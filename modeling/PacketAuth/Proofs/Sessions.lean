import PacketAuth.Proofs.Entry
import PacketAuth.Proofs.Register

/-! Sessions of lanes. A lane asks the engine until it gets a session and never again, no two lanes
share one, and both the engine and the services know how many there are. -/
namespace PacketAuth

theorem eq_of_mem_flatMap {α β : Type} {xs : List α} {g : α → List β} (hn : (xs.flatMap g).Nodup)
    {i j : Nat} {x y : α} {b : β} (hx : xs[i]? = some x) (hy : xs[j]? = some y) (hb : b ∈ g x)
    (hb' : b ∈ g y) : i = j := by
  obtain ⟨-, apart⟩ := List.nodup_flatMap.mp hn
  obtain ⟨hi, rfl⟩ := List.getElem?_eq_some_iff.mp hx
  obtain ⟨hj, rfl⟩ := List.getElem?_eq_some_iff.mp hy
  rw [List.pairwise_iff_getElem] at apart
  rcases Nat.lt_trichotomy i j with below | same | above
  · exact absurd hb' (apart i j hi hj below hb)
  · exact same
  · exact absurd hb (apart j i hj hi above hb')

/-- The same engine, but for the sessions that it opens. -/
def Engine.withSessions {σ : Type}
    (create : AuthKey → σ → Step σ (Except EngineError SessionHandle)) (E : Engine σ) : Engine σ :=
  { E with createSession := create }

/-- How often an engine was asked for a session. -/
def Accounting.sessionsAsked (a : Accounting) : Nat := a.sessionsCreated + a.sessionFailures

namespace Host
variable {σ : Type} {E : Engine σ}
  {create : AuthKey → σ → Step σ (Except EngineError SessionHandle)}

theorem deliverNext_withSessions (n : Nat) :
    deliverNext (E.withSessions create) n = deliverNext E n := by
  induction n with
  | zero => rfl
  | succ n ih =>
    funext h
    rw [deliverNext, deliverNext, ih]
    rfl

theorem drain_withSessions (h : Host σ) : h.drain (E.withSessions create) = h.drain E := by
  rw [drain, deliverNext_withSessions]
  rfl

theorem advance_withSessions (instant : Nat) (h : Host σ) :
    h.advance (E.withSessions create) instant = h.advance E instant := by
  simp only [advance, closeUnused, drain_withSessions]
  rfl

theorem passUntil_withSessions (done : Host σ → Bool) (limit : Option Nat) (n : Nat) :
    passUntil (E.withSessions create) done limit n = passUntil E done limit n := by
  induction n with
  | zero => rfl
  | succ n ih =>
    funext h
    simp only [passUntil, advance_withSessions, ih]
    rfl

/-- The sessions that the engine opens matter to a request only while it is let in. -/
theorem perform_withSessions {s : Service} {r : Request} {h : Host σ}
    (he : h.enter (E.withSessions create) s r = h.enter E s r) :
    h.perform (E.withSessions create) s r = h.perform E s r := by
  simp only [perform, start, await, he, passUntil_withSessions, drain_withSessions]
  rfl

theorem session?_eq_some {i : Nat} {l : LaneId} {handle : SessionHandle} {h : Host σ} :
    h.session? i l = some handle ↔ ∃ s lane, h.services[i]? = some s ∧
      s.lanes[l.index.toNat]? = some lane ∧ lane.session = some handle := by
  simp only [session?, Option.bind_eq_some_iff, exists_and_left]

/-- A lane in a session lets its callers in without the engine's help. -/
theorem openSession_of_some {i : Nat} {key : AuthKey} {lane : Lane} {handle : SessionHandle}
    (hl : lane.session = some handle) (h : Host σ) :
    h.openSession E i key lane = (.ok handle, h) := by
  rw [openSession, hl]

/-- The sessions of a lane's calls, whatever the engine would do if it were asked for one. -/
structure Provided (E : Engine σ) (h : Host σ) (i : Nat) (l : LaneId) (handle : SessionHandle) :
    Prop where
  session : h.session? i l = some handle
  ensured : ∀ s, h.services[i]? = some s → ∀ E' : Engine σ,
    h.ensureSession E' i s l = (.ok handle, h)
  called : ∀ s, h.services[i]? = some s → ∀ r : Request, r.service = i → r.lane = l →
    ∀ create, h.enter (E.withSessions create) s r = h.enter E s r ∧
      h.perform (E.withSessions create) s r = h.perform E s r

theorem provided_of_session {h : Host σ} {i : Nat} {l : LaneId} {handle : SessionHandle}
    (hh : h.session? i l = some handle) : h.Provided E i l handle := by
  obtain ⟨s, lane, hs, hl, hsession⟩ := session?_eq_some.mp hh
  have found : ∀ t, h.services[i]? = some t → t = s :=
    fun t ht => Option.some.inj (ht.symm.trans hs)
  refine ⟨hh, fun t ht E' => ?_, fun t ht r hr hlane create => ?_⟩
  · obtain rfl := found t ht
    rw [ensureSession, Service.lane, hl]
    exact openSession_of_some hsession h
  · obtain rfl := found t ht
    have entered : h.enter (E.withSessions create) t r = h.enter E t r := by
      rw [enter, enter]
      cases hp : t.prepare r with
      | error f => rfl
      | ok prepared =>
        obtain ⟨found, regions⟩ := prepared
        obtain ⟨hprepared, -⟩ := World.prepare_ok hp
        rw [hlane, hl] at hprepared
        obtain rfl := Option.some.inj hprepared
        dsimp only
        rw [openSession_of_some hsession, openSession_of_some hsession]
        rfl
    exact ⟨entered, perform_withSessions entered⟩

theorem session?_count (j : Nat) (c : Stats.Counter) (i : Nat) (l : LaneId) (h : Host σ) :
    (h.count j c).session? i l = h.session? i l := by
  rw [session?, count, updateService, List.getElem?_modify, session?]
  cases h.services[i]? with
  | none => rfl
  | some s =>
    simp only [Option.map_eq_map, Option.map_some]
    split <;> rfl

/-- The engine was asked once for a session for a lane, and the lane has what it gave. -/
structure Asked (h : Host Software) (i : Nat) (s : Service) (l : LaneId) (h' : Host Software) :
    Prop where
  once : h'.engine.accounting.sessionsAsked = h.engine.accounting.sessionsAsked + 1
  given : ∀ handle, (h.engine.createSession s.key).answer = .ok handle →
    h'.session? i l = some handle
  refused : ∀ e, (h.engine.createSession s.key).answer = .error e →
    h'.session? i l = none ∧ h'.engine.sessions = h.engine.sessions

theorem Asked.congr {h h₁ h₂ : Host Software} {i : Nat} {s : Service} {l : LaneId}
    (a : h.Asked i s l h₁) (he : Software.SameRegister h₁.engine h₂.engine)
    (hs : h₂.session? i l = h₁.session? i l) : h.Asked i s l h₂ where
  once := by
    rw [← a.once, Accounting.sessionsAsked, he.created, he.failures, Accounting.sessionsAsked]
  given handle hh := hs.trans (a.given handle hh)
  refused e hh := ⟨hs.trans (a.refused e hh).1, he.sessions.trans (a.refused e hh).2⟩

/-- What a lane without a session gets for its caller. -/
def askedFor (s : Service) (h : Host Software) : Except Failure SessionHandle :=
  (h.engine.createSession s.key).answer.mapError fun e =>
    ⟨.sessionCreationFailed, some e.message⟩

section Asking
variable {h : Host Software} {i : Nat} {s : Service} {l : LaneId} {lane : Lane}

theorem openSession_asked (hs : h.services[i]? = some s)
    (hl : s.lanes[l.index.toNat]? = some lane) (hn : lane.session = none)
    (own : lane.id.index.toNat = l.index.toNat) :
    (h.openSession Software.engine i s.key lane).1 = h.askedFor s ∧
      h.Asked i s l (h.openSession Software.engine i s.key lane).2 := by
  obtain ⟨-, -, -, haccounting⟩ := Software.createSession_frame s.key h.engine
  rw [openSession, hn]
  dsimp only [onEngine, Software.engine]
  cases ha : (h.engine.createSession s.key).answer with
  | error e =>
    rw [ha] at haccounting
    refine ⟨by rw [askedFor, ha]; rfl, ?_, fun handle hh => ?_, fun e' hh => ⟨?_, ?_⟩⟩
    · dsimp only [count, updateService, emit]
      rw [haccounting]
      exact (Nat.add_assoc _ _ 1).symm
    · rw [ha] at hh
      cases hh
    · simp [session?, count, updateService, emit, hs, Service.count, hl, hn]
    · exact (Software.createSession_error ha).sessions
  | ok handle =>
    rw [ha] at haccounting
    refine ⟨by rw [askedFor, ha]; rfl, ?_, fun handle' hh => ?_, fun e hh => ?_⟩
    · dsimp only [count, updateService, emit]
      rw [haccounting]
      exact Nat.add_right_comm _ 1 _
    · rw [ha] at hh
      cases hh
      simp [session?, count, updateService, emit, hs, Service.count, Service.updateLane, hl, own]
    · rw [ha] at hh
      cases hh

/-- From the session on, letting a request in is no matter of sessions. -/
theorem enter_sameRegister {r : Request} {regions : Regions} {session : SessionHandle}
    {opened : Host Software} (hp : s.prepare r = .ok (lane, regions))
    (ho : h.openSession Software.engine r.service s.key lane = (.ok session, opened)) :
    Software.SameRegister opened.engine (h.enter Software.engine s r).2.engine ∧
      (h.enter Software.engine s r).2.session? i l = opened.session? i l := by
  have acquired := Software.acquire_sameRegister opened.engine
  rw [enter, hp]
  dsimp only
  rw [ho]
  dsimp only [onEngine, Software.engine]
  cases opened.engine.acquire.answer with
  | none => exact ⟨acquired, session?_count _ _ _ _ _⟩
  | some job =>
    dsimp only
    rw [submitJob_eq]
    exact ⟨acquired.trans (Software.submit_sameRegister _ _ _ _), rfl⟩

/-- A lane without a session asks the engine for one on every call that comes so far, and its
callers are turned away if it gets none. -/
structure Asks (h : Host Software) (i : Nat) (s : Service) (l : LaneId) : Prop where
  ensured : (h.ensureSession Software.engine i s l).1 = h.askedFor s ∧
    h.Asked i s l (h.ensureSession Software.engine i s l).2
  entered : ∀ r : Request, r.service = i → r.lane = l →
    s.config.layout.minLength ≤ r.length → r.length ≤ r.buffer.length →
    h.Asked i s l (h.enter Software.engine s r).2 ∧
    ∀ f, h.askedFor s = .error f → (h.enter Software.engine s r).1 = .error f ∧
      h.perform Software.engine s r = (some (.failed r f), (h.enter Software.engine s r).2)

theorem asks_of_none (hs : h.services[i]? = some s) (hn : s.Numbered)
    (hl : l.index.toNat < s.lanes.length) (hh : h.session? i l = none) : h.Asks i s l := by
  obtain ⟨lane, hlane⟩ : ∃ lane, s.lanes[l.index.toNat]? = some lane :=
    ⟨_, List.getElem?_eq_getElem hl⟩
  have hnone : lane.session = none := by simpa [session?, hs, hlane] using hh
  obtain ⟨answered, asked⟩ := openSession_asked hs hlane hnone (hn _ lane hlane)
  have found : s.lane l = .ok lane := by rw [Service.lane, hlane]
  refine ⟨?_, fun r hr hrl hmin hfit => ?_⟩
  · rw [ensureSession, found]
    exact ⟨answered, asked⟩
  · have prepared : ∃ regions, s.prepare r = .ok (lane, regions) := by
      rw [Service.prepare, hrl, found, Layout.split_eq_ok hmin hfit]
      exact ⟨_, rfl⟩
    obtain ⟨regions, hp⟩ := prepared
    subst hr
    cases ho : h.openSession Software.engine r.service s.key lane with
    | mk answer opened =>
      rw [ho] at answered asked
      cases answer with
      | error f =>
        have entered : h.enter Software.engine s r = (.error f, opened) := by
          rw [enter, hp]
          dsimp only
          rw [ho]
        refine ⟨by rw [entered]; exact asked, fun f' hf => ?_⟩
        obtain rfl : f = f' := Except.error.inj (answered.trans hf)
        refine ⟨by rw [entered], ?_⟩
        rw [perform, start, entered]
      | ok session =>
        obtain ⟨register, same⟩ := enter_sameRegister (l := l) hp ho
        refine ⟨asked.congr register same, fun f hf => ?_⟩
        rw [← answered] at hf
        cases hf

end Asking
end Host

namespace World
variable {w v : World Software} {capacity : Capacity}

theorem Registered.effects (h : Registered capacity w) (e : Effects Software.rules w v) :
    Registered capacity v ∧ ∀ i l handle, w.host.session? i l = some handle →
      v.host.session? i l = some handle := by
  induction e with
  | refl => exact ⟨h, fun _ _ _ hh => hh⟩
  | tail _ effect ih =>
    obtain ⟨registered, kept⟩ := ih
    refine ⟨registered.registration effect.registration, fun i l handle hh => ?_⟩
    exact effect.registration.kept registered.numbered (kept i l handle hh)

theorem mem_heldSessions {i : Nat} {l : LaneId} {handle : SessionHandle}
    (h : w.host.session? i l = some handle) :
    ∃ s, w.host.services[i]? = some s ∧ (handle, s.key) ∈ s.held ∧
      (handle, s.key) ∈ heldSessions w.host.services := by
  obtain ⟨s, lane, hs, hl, hsession⟩ := Host.session?_eq_some.mp h
  have held : (handle, s.key) ∈ s.held :=
    Service.mem_held.mpr ⟨rfl, lane, List.mem_of_getElem? hl, hsession⟩
  exact ⟨s, hs, held, List.mem_flatMap.mpr ⟨s, List.mem_of_getElem? hs, held⟩⟩

/-- A handle that two lanes hold is held by one. -/
theorem Registered.lane_unique (h : Registered capacity w) (k : Keyed w) {i j : Nat}
    {l m : LaneId} {handle : SessionHandle} (hl : w.host.session? i l = some handle)
    (hm : w.host.session? j m = some handle) : i = j ∧ l = m := by
  obtain ⟨s, lane, hs, hlane, hsession⟩ := Host.session?_eq_some.mp hl
  obtain ⟨t, lane', ht, hlane', hsession'⟩ := Host.session?_eq_some.mp hm
  have distinct : (w.host.services.flatMap fun s => s.held.map Prod.fst).Nodup := by
    rw [← List.map_flatMap]
    exact (h.held.map Prod.fst).nodup_iff.mpr k.distinct
  obtain ⟨s', hs', held, -⟩ := mem_heldSessions hl
  obtain ⟨t', ht', held', -⟩ := mem_heldSessions hm
  obtain rfl : s = s' := Option.some.inj (hs.symm.trans hs')
  obtain rfl : t = t' := Option.some.inj (ht.symm.trans ht')
  obtain rfl := eq_of_mem_flatMap distinct hs ht (List.mem_map.mpr ⟨_, held, rfl⟩)
    (List.mem_map.mpr ⟨_, held', rfl⟩)
  obtain rfl : s = t := Option.some.inj (hs.symm.trans ht)
  have within : (s.lanes.flatMap fun l => l.session.toList).Nodup := by
    have inner := (List.nodup_flatMap.mp distinct).1 s (List.mem_of_getElem? hs)
    simpa [Service.held, List.map_flatMap, Function.comp_def] using inner
  have place := eq_of_mem_flatMap within hlane hlane' (Option.mem_toList.mpr hsession)
    (Option.mem_toList.mpr hsession')
  exact ⟨rfl, congrArg LaneId.mk (UInt8.toNat_inj.mp place)⟩

/-- Whatever was done with a new engine: a lane that has a session keeps it, and its calls have no
need of another; no two lanes have the same; each is in the engine's table for the key of its
service; the engine and the services agree on how many there are, and on how many were refused; and
a lane without a session asks for one on every call, as often as it is refused. -/
theorem lanes_keep_their_sessions (reach : Run Software.rules (fresh capacity) w) :
    let e := w.host.engine
    let total := Service.total w.host.services
    (∀ i l handle, w.host.session? i l = some handle → ∀ v, Run Software.rules w v →
      v.host.Provided Software.engine i l handle) ∧
    (∀ i l j m handle, w.host.session? i l = some handle → w.host.session? j m = some handle →
      i = j ∧ l = m) ∧
    (∀ i l handle, w.host.session? i l = some handle → ∃ s, w.host.services[i]? = some s ∧
      e.sessions.key? handle = some s.key) ∧
    (e.sessions.length = e.accounting.sessionsCreated ∧
      e.accounting.sessionsCreated = total .sessionsCreated ∧
      total .sessionsCreated = (w.host.services.map fun s => s.openLanes.length).sum ∧
      e.sessions.length ≤ capacity.sessions) ∧
    e.accounting.sessionFailures = total .sessionFailures ∧
    (∀ v, Run Software.rules w v → ∀ i s l, v.host.services[i]? = some s →
      l.index.toNat < s.lanes.length → v.host.session? i l = none → v.host.Asks i s l) := by
  intro e total
  have keyed := (Keyed.fresh capacity).run reach
  obtain ⟨registered, -⟩ := (Registered.fresh capacity).effects (Run.effects reach)
  refine ⟨fun i l handle hh v run => ?_, fun i l j m handle => registered.lane_unique keyed,
    fun i l handle hh => ?_, ⟨registered.created.symm, ?_, ?_, registered.room⟩,
    registered.failures, fun v run i s l hs hl hn => ?_⟩
  · obtain ⟨-, kept⟩ := registered.effects (Run.effects run)
    exact Host.provided_of_session (kept i l handle hh)
  · obtain ⟨s, hs, -, held⟩ := mem_heldSessions hh
    exact ⟨s, hs, Sessions.key?_of_mem keyed.distinct (registered.held.mem_iff.mp held)⟩
  · exact registered.created.trans registered.opened.symm
  · have lengths := registered.held.length_eq
    rw [heldSessions, List.length_flatMap] at lengths
    simp only [Service.held_length] at lengths
    exact registered.opened.trans lengths.symm
  · obtain ⟨later, -⟩ := registered.effects (Run.effects run)
    exact Host.asks_of_none hs (later.numbered s (List.mem_of_getElem? hs)) hl hn

/-- A lane that is refused a session once, gets one the second time, and fills the table. -/
theorem refused_lane_asks_again :
    ∃ w, Run Software.rules (fresh ⟨1, 1⟩) w ∧ w.host.session? 0 ⟨3⟩ = some ⟨1⟩ ∧
      w.host.engine.sessions.length = 1 ∧ w.host.engine.accounting.sessionFailures = 1 ∧
      w.host.Provided Software.engine 0 ⟨3⟩ ⟨1⟩ := by
  let s : Service := .create {} (.ofSeed 1)
  let installed : World Software :=
    ⟨((fresh ⟨1, 1⟩).host.install { key := some (.ofSeed 1) }).2, []⟩
  let faulty : World Software :=
    ⟨{ installed.host with engine := installed.host.engine.injectSessionFailures 1 }, []⟩
  let refused : World Software := ⟨(faulty.host.ensureSession Software.engine 0 s ⟨3⟩).2, []⟩
  let s' : Service := s.count .sessionFailures
  let opened : World Software := ⟨(refused.host.ensureSession Software.engine 0 s' ⟨3⟩).2, []⟩
  have faulting : Run Software.rules (fresh ⟨1, 1⟩) faulty :=
    (Relation.ReflTransGen.single (.install (fresh ⟨1, 1⟩) _)).tail
      (Next.change (R := Software.rules) installed (.injectSessionFailures _ 1))
  have refusing : Run Software.rules (fresh ⟨1, 1⟩) refused :=
    faulting.tail (.ensureSession faulty (s := s) rfl ⟨3⟩)
  have reach : Run Software.rules (fresh ⟨1, 1⟩) opened :=
    refusing.tail (.ensureSession refused (s := s') rfl ⟨3⟩)
  have session : opened.host.session? 0 ⟨3⟩ = some ⟨1⟩ := rfl
  obtain ⟨kept, -, -, ⟨hcreated, htotal, hlanes, -⟩, hfailures, -⟩ :=
    lanes_keep_their_sessions reach
  have hopen : (opened.host.services.map fun s => s.openLanes.length).sum = 1 := by decide
  have hrefused : Service.total opened.host.services .sessionFailures = 1 := by decide
  exact ⟨opened, reach, session, hcreated.trans (htotal.trans (hlanes.trans hopen)),
    hfailures.trans hrefused, kept 0 ⟨3⟩ ⟨1⟩ session opened .refl⟩

end World
end PacketAuth
