import PacketAuth.Proofs.Balance
import PacketAuth.Proofs.Keying

/-! The register of sessions. What the engine has in its table is, in some order, what the lanes of
all services hold, each under the key of its service; and both sides counted every opening. -/
namespace PacketAuth

theorem flatMap_modify_of_same {α β : Type} (xs : List α) (k : Nat) {f : α → α} {g : α → List β}
    (hf : ∀ x, g (f x) = g x) : (xs.modify k f).flatMap g = xs.flatMap g := by
  induction xs generalizing k with
  | nil => simp
  | cons x xs ih =>
    cases k with
    | zero => simp [hf]
    | succ k => simp [ih]

theorem flatMap_modify_perm {α β : Type} {xs : List α} {k : Nat} {x : α} {f : α → α}
    {g : α → List β} {y : β} (hx : xs[k]? = some x) (hf : (g (f x)).Perm (y :: g x)) :
    ((xs.modify k f).flatMap g).Perm (y :: xs.flatMap g) := by
  induction xs generalizing k with
  | nil => simp at hx
  | cons x' xs ih =>
    cases k with
    | zero =>
      obtain rfl : x' = x := by simpa using hx
      simpa using hf.append_right (xs.flatMap g)
    | succ k =>
      have rest := ih (by simpa using hx)
      simpa using (rest.append_left (g x')).trans List.perm_middle

namespace Service

/-- The sessions of the lanes of a service, with its key. -/
def held (s : Service) : Sessions :=
  s.lanes.flatMap fun l => l.session.toList.map fun handle => (handle, s.key)

/-- A service that was given a session for one of its lanes. -/
def enrol (l : LaneId) (handle : SessionHandle) (s : Service) : Service :=
  (s.updateLane l fun l => { l with session := some handle }).count .sessionsCreated

/-- Every lane stands in its own place. -/
def Numbered (s : Service) : Prop :=
  ∀ (k : Nat) (lane : Lane), s.lanes[k]? = some lane → lane.id.index.toNat = k

/-- A service with the lanes of another, as far as their names and sessions go, and the same count
of openings. -/
structure SameSessions (s s' : Service) : Prop where
  key : s'.key = s.key
  lanes : s'.lanes.map (fun l => (l.id, l.session)) = s.lanes.map fun l => (l.id, l.session)
  created : s'.stats.get .sessionsCreated = s.stats.get .sessionsCreated
  failures : s'.stats.get .sessionFailures = s.stats.get .sessionFailures

theorem held_length (s : Service) : s.held.length = s.openLanes.length := by
  unfold held openLanes
  induction s.lanes with
  | nil => rfl
  | cons l lanes ih =>
    cases h : l.session <;> simp [h, ih, Nat.add_comm]

theorem mem_held {s : Service} {entry : SessionHandle × AuthKey} :
    entry ∈ s.held ↔ entry.2 = s.key ∧ ∃ lane ∈ s.lanes, lane.session = some entry.1 := by
  simp only [held, List.mem_flatMap, List.mem_map, Option.mem_toList]
  constructor
  · rintro ⟨lane, hl, handle, hh, rfl⟩
    exact ⟨rfl, lane, hl, hh⟩
  · rintro ⟨hk, lane, hl, hh⟩
    exact ⟨lane, hl, entry.1, hh, by rw [← hk]⟩

namespace SameSessions
variable {s s' : Service}

theorem held (h : s.SameSessions s') : s'.held = s.held := by
  have view : ∀ t : Service, t.held =
      (t.lanes.map fun l => (l.id, l.session)).flatMap fun p =>
        p.2.toList.map fun handle => (handle, t.key) := by
    intro t
    rw [List.flatMap_map]
    rfl
  rw [view, view, h.lanes, h.key]

theorem lane (h : s.SameSessions s') (k : Nat) :
    (s'.lanes[k]?).map (fun l => (l.id, l.session)) =
      (s.lanes[k]?).map fun l => (l.id, l.session) := by
  rw [← List.getElem?_map, ← List.getElem?_map, h.lanes]

theorem numbered (h : s.SameSessions s') (hn : s.Numbered) : s'.Numbered := by
  intro k lane hl
  have same := h.lane k
  rw [hl] at same
  obtain ⟨old, hold, heq⟩ := Option.map_eq_some_iff.mp same.symm
  rw [← (Prod.mk.inj heq).1]
  exact hn k old hold

theorem session (h : s.SameSessions s') (k : Nat) :
    s'.lanes[k]?.bind Lane.session = s.lanes[k]?.bind Lane.session := by
  have same := congrArg (Option.bind · Prod.snd) (h.lane k)
  simpa [Option.bind_map, Function.comp_def] using same

theorem of_count (s : Service) {c : Stats.Counter} (hc : c ≠ .sessionsCreated)
    (hf : c ≠ .sessionFailures) : s.SameSessions (s.count c) :=
  ⟨rfl, rfl, (s.stats.get_count c _).trans (by rw [if_neg hc, Nat.add_zero]),
    (s.stats.get_count c _).trans (by rw [if_neg hf, Nat.add_zero])⟩

/-- The end of a call leaves the sessions of its service alone. -/
theorem of_credit (c : Call) (job : Job) (s : Service) : s.SameSessions (c.credit job s) := by
  refine ⟨(Service.credit_persists c job s).key, ?_, Call.credit_get ?_ s, Call.credit_get ?_ s⟩
  · unfold Call.credit
    dsimp only
    cases (c.ending job).cached with
    | none => rfl
    | some tag =>
      refine List.ext_getElem? fun k => ?_
      simp only [Service.count, Service.updateLane, List.getElem?_map, List.getElem?_modify]
      cases s.lanes[k]? with
      | none => rfl
      | some lane =>
        simp only [Option.map_some]
        split <;> rfl
  · rcases c.ending_counter job with h | h | h | h <;> rw [h] <;> decide
  · rcases c.ending_counter job with h | h | h | h <;> rw [h] <;> decide

end SameSessions

theorem numbered_create (config : Config) (key : AuthKey) : (create config key).Numbered := by
  intro k lane hl
  simp only [create, freshLanes, List.getElem?_map] at hl
  obtain ⟨i, hi, rfl⟩ := Option.map_eq_some_iff.mp hl
  obtain ⟨hlt, rfl⟩ := List.getElem?_eq_some_iff.mp hi
  rw [List.length_range, maxLaneCount] at hlt
  simp only [List.getElem_range, UInt8.toNat_ofNat']
  omega

theorem Numbered.updateLane {s : Service} (h : s.Numbered) {l : LaneId} {f : Lane → Lane}
    (hf : ∀ lane, (f lane).id = lane.id) : (s.updateLane l f).Numbered := by
  intro k lane hl
  simp only [Service.updateLane, List.getElem?_modify] at hl
  obtain ⟨old, hold, rfl⟩ := Option.map_eq_some_iff.mp hl
  have own := h k old hold
  split
  · rw [hf]
    exact own
  · exact own

theorem held_create (config : Config) (key : AuthKey) : (create config key).held = [] := by
  refine List.flatMap_eq_nil_iff.mpr fun lane hl => ?_
  obtain ⟨i, -, rfl⟩ := List.mem_map.mp hl
  rfl

/-- A lane that is given a session adds to what its service holds. -/
theorem held_enrol {s : Service} {l : LaneId} {lane : Lane}
    (hl : s.lanes[l.index.toNat]? = some lane) (hn : lane.session = none)
    (handle : SessionHandle) : ((s.enrol l handle).held).Perm ((handle, s.key) :: s.held) := by
  refine flatMap_modify_perm hl ?_
  rw [hn]
  exact .refl _

end Service

namespace Software

/-- One engine has the sessions of another, and counted the same openings. -/
structure SameRegister (s s' : Software) : Prop where
  sessions : s'.sessions = s.sessions
  created : s'.accounting.sessionsCreated = s.accounting.sessionsCreated
  failures : s'.accounting.sessionFailures = s.accounting.sessionFailures
  capacity : s'.capacity = s.capacity

theorem Change.sameRegister {s : Software} {step : Step Software Unit} (h : Change s step) :
    SameRegister s step.state := by
  obtain ⟨_, _, _, _, _, _, h⟩ := h.state_eq
  rw [h]
  exact ⟨rfl, rfl, rfl, rfl⟩

theorem submit_sameRegister (job : Job) (delay now : Nat) (s : Software) :
    SameRegister s (s.submit job delay now).state := by
  obtain ⟨queue, returning, h, -⟩ := s.submit_frame job delay now
  rw [h]
  exact ⟨rfl, rfl, rfl, rfl⟩

theorem SameRegister.trans {s s' s'' : Software} (h : SameRegister s s') (h' : SameRegister s' s'') :
    SameRegister s s'' :=
  ⟨h'.sessions.trans h.sessions, h'.created.trans h.created, h'.failures.trans h.failures,
    h'.capacity.trans h.capacity⟩

theorem acquire_sameRegister (s : Software) : SameRegister s s.acquire.state := by
  rw [acquire_def]
  split
  · exact ⟨rfl, rfl, rfl, rfl⟩
  · dsimp only
    split <;> exact ⟨rfl, rfl, rfl, rfl⟩

theorem handBack_sameRegister {s : Software} {now : Nat} {step : Step Software Job}
    (h : s.handBack now = some step) : SameRegister s step.state := by
  obtain ⟨before, job, after, output, outcome, -, -, -, queue, returning, faults, hstate, -⟩ :=
    handBack_spec h
  rw [hstate]
  cases outcome <;> exact ⟨rfl, rfl, rfl, rfl⟩

theorem withdraw_sameRegister (id : JobId) (s : Software) :
    SameRegister s (engine.withdraw id s) := by
  cases h : Queue.remove id s.queue <;>
    simp only [Engine.withdraw, engine, cancel, h] <;> exact ⟨rfl, rfl, rfl, rfl⟩

theorem createSession_room {key : AuthKey} {s : Software} {handle : SessionHandle}
    (h : (s.createSession key).answer = .ok handle) :
    s.sessions.length < s.capacity.sessions := by
  unfold createSession at h
  split_ifs at h with hf hs hc
  exact Nat.lt_of_not_le hc

theorem createSession_capacity (key : AuthKey) (s : Software) :
    (s.createSession key).state.capacity = s.capacity := by
  unfold createSession
  split_ifs <;> rfl

end Software

/-- The sessions of all lanes of all services. -/
def heldSessions (services : List Service) : Sessions := services.flatMap Service.held

/-- The session of a lane of a service. -/
def Host.session? {σ : Type} (i : Nat) (l : LaneId) (h : Host σ) : Option SessionHandle :=
  h.services[i]?.bind fun s => s.lanes[l.index.toNat]?.bind Lane.session

namespace World
variable {w w' : World Software}

/-- The table of the engine is what the lanes hold, and both sides counted the same. -/
structure Registered (capacity : Capacity) (w : World Software) : Prop where
  numbered : ∀ s ∈ w.host.services, s.Numbered
  held : (heldSessions w.host.services).Perm w.host.engine.sessions
  created : w.host.engine.accounting.sessionsCreated = w.host.engine.sessions.length
  opened : Service.total w.host.services .sessionsCreated = w.host.engine.sessions.length
  failures :
    w.host.engine.accounting.sessionFailures = Service.total w.host.services .sessionFailures
  sized : w.host.engine.capacity = capacity
  room : w.host.engine.sessions.length ≤ capacity.sessions

/-- Nothing was entered in the register, and no lane lost its session. -/
structure Unregistered (w w' : World Software) : Prop where
  engine : Software.SameRegister w.host.engine w'.host.engine
  held : heldSessions w'.host.services = heldSessions w.host.services
  numbered : (∀ s ∈ w.host.services, s.Numbered) → ∀ s ∈ w'.host.services, s.Numbered
  created : Service.total w'.host.services .sessionsCreated =
    Service.total w.host.services .sessionsCreated
  failures : Service.total w'.host.services .sessionFailures =
    Service.total w.host.services .sessionFailures
  kept : ∀ i l handle, w.host.session? i l = some handle → w'.host.session? i l = some handle

namespace Unregistered

theorem of_eq (he : Software.SameRegister w.host.engine w'.host.engine)
    (hs : w'.host.services = w.host.services) : Unregistered w w' := by
  refine ⟨he, by rw [hs], by rw [hs]; exact id, by rw [hs], by rw [hs], fun i l handle h => ?_⟩
  rw [Host.session?, hs]
  exact h

theorem of_modify {i : Nat} {f : Service → Service}
    (he : Software.SameRegister w.host.engine w'.host.engine)
    (hs : w'.host.services = w.host.services.modify i f)
    (hf : ∀ s : Service, s.SameSessions (f s)) : Unregistered w w' := by
  refine ⟨he, ?_, fun hn s hmem => ?_, ?_, ?_, fun j l handle h => ?_⟩
  · rw [hs]
    exact flatMap_modify_of_same _ i fun s => (hf s).held
  · rw [hs] at hmem
    exact forall_mem_modify hn (fun s _ numbered => (hf s).numbered numbered) s hmem
  · rw [hs]
    exact Service.total_modify_of_same _ i fun s => (hf s).created
  · rw [hs]
    exact Service.total_modify_of_same _ i fun s => (hf s).failures
  · obtain ⟨s, hj, hl⟩ := Option.bind_eq_some_iff.mp h
    rw [Host.session?, hs, List.getElem?_modify, hj]
    by_cases same : i = j
    · simp only [same, if_true, Option.map_eq_map, Option.map_some, Option.bind_some]
      rw [(hf s).session]
      exact hl
    · simpa [same] using hl

theorem of_append {config : Config} {key : AuthKey}
    (he : Software.SameRegister w.host.engine w'.host.engine)
    (hs : w'.host.services = w.host.services ++ [.create config key]) : Unregistered w w' := by
  refine ⟨he, ?_, fun hn s hmem => ?_, ?_, ?_, fun j l handle h => ?_⟩
  · rw [hs, heldSessions, List.flatMap_append]
    simp [heldSessions, Service.held_create]
  · rw [hs] at hmem
    rcases List.mem_append.mp hmem with hmem | hmem
    · exact hn s hmem
    · rw [List.mem_singleton.mp hmem]
      exact Service.numbered_create config key
  · rw [hs, Service.total_append]
    rfl
  · rw [hs, Service.total_append]
    rfl
  · obtain ⟨s, hj, hl⟩ := Option.bind_eq_some_iff.mp h
    rw [Host.session?, hs, List.getElem?_append_left (List.getElem?_eq_some_iff.mp hj).1, hj]
    exact hl

end Unregistered

/-- What an effect may enter in the register: nothing, a session for a lane that had none, or a
refusal of one. -/
inductive Registration (w w' : World Software) : Prop
  | nothing (h : Unregistered w w')
  | opened {i : Nat} {s : Service} {l : LaneId} {lane : Lane} {handle : SessionHandle}
      (hs : w.host.services[i]? = some s) (hl : s.lanes[l.index.toNat]? = some lane)
      (hn : lane.session = none) (ha : (w.host.engine.createSession s.key).answer = .ok handle)
      (he : w'.host.engine = (w.host.engine.createSession s.key).state)
      (hw : w'.host.services = w.host.services.modify i (·.enrol lane.id handle))
  | refused {i : Nat} {s : Service} {e : EngineError} (hs : w.host.services[i]? = some s)
      (ha : (w.host.engine.createSession s.key).answer = .error e)
      (he : w'.host.engine = (w.host.engine.createSession s.key).state)
      (hw : w'.host.services = w.host.services.modify i (·.count .sessionFailures))

theorem Settlement.unregistered {host host' : Host Software} {before after : List Job} {job : Job}
    (s : Settlement Software.engine host job host') :
    Unregistered ⟨host, before ++ job :: after⟩ ⟨host', before ++ after⟩ := by
  cases s with
  | strayed | stranded => exact .of_eq ⟨rfl, rfl, rfl, rfl⟩ rfl
  | resubmitted hj hc hb ha hr hq =>
    subst hq
    exact .of_modify (Software.submit_sameRegister _ _ _ _) rfl
      fun s => .of_count s (by decide) (by decide)
  | finished => exact .of_modify ⟨rfl, rfl, rfl, rfl⟩ rfl fun s => .of_credit _ _ s
  | refused =>
    refine .of_eq ?_ rfl
    dsimp only
    split <;> exact ⟨rfl, rfl, rfl, rfl⟩

theorem Effect.registration (e : Effect Software.rules w w') : Registration w w' := by
  cases e with
  | aside | misconfigured => exact .nothing (.of_eq ⟨rfl, rfl, rfl, rfl⟩ rfl)
  | installed _ hb =>
    obtain ⟨-, key, rfl⟩ := build_ok hb
    exact .nothing (.of_append ⟨rfl, rfl, rfl, rfl⟩ rfl)
  | dropped =>
    exact .nothing (.of_modify ⟨rfl, rfl, rfl, rfl⟩ rfl fun _ => ⟨rfl, rfl, rfl, rfl⟩)
  | changed _ hchange => exact .nothing (.of_eq hchange.sameRegister rfl)
  | opened _ hs hl hn ha => exact .opened hs hl hn ha rfl rfl
  | notOpened _ hs hl hn ha => exact .refused hs ha rfl rfl
  | rejected =>
    exact .nothing
      (.of_modify ⟨rfl, rfl, rfl, rfl⟩ rfl fun s => .of_count s (by decide) (by decide))
  | starved =>
    exact .nothing (.of_modify (Software.acquire_sameRegister _) rfl
      fun s => .of_count s (by decide) (by decide))
  | admitted _ hs hl hr ho ha hq =>
    subst hq
    exact .nothing (.of_eq ((Software.acquire_sameRegister w.host.engine).trans
      (Software.submit_sameRegister _ 0 w.host.now _)) rfl)
  | taken _ hstep => exact .nothing (.of_eq (Software.handBack_sameRegister hstep) rfl)
  | passed host before after s => exact .nothing s.unregistered
  | collected =>
    exact .nothing (.of_modify ⟨rfl, rfl, rfl, rfl⟩ rfl fun s => .of_credit _ _ s)
  | left =>
    exact .nothing (.of_modify (Software.withdraw_sameRegister _ _) rfl
      fun s => .of_count s (by decide) (by decide))

/-- A lane keeps its session, whatever is entered for the others. -/
theorem Registration.kept (r : Registration w w') {i : Nat} {l : LaneId} {handle : SessionHandle}
    (hn : ∀ s ∈ w.host.services, s.Numbered) (h : w.host.session? i l = some handle) :
    w'.host.session? i l = some handle := by
  cases r with
  | nothing hnothing => exact hnothing.kept i l handle h
  | @opened j s l' lane new hs hl hnone ha he hw =>
    obtain ⟨t, ht, hsession⟩ := Option.bind_eq_some_iff.mp h
    obtain ⟨old, hold, hhandle⟩ := Option.bind_eq_some_iff.mp hsession
    have own := hn s (List.mem_of_getElem? hs) _ lane hl
    rw [Host.session?, hw, List.getElem?_modify, ht]
    by_cases same : j = i
    · subst same
      obtain rfl : s = t := Option.some.inj (hs.symm.trans ht)
      -- the lane that was given a session had none
      have other : lane.id.index.toNat ≠ l.index.toNat := by
        intro heq
        rw [← own, heq, hold] at hl
        obtain rfl := Option.some.inj hl
        rw [hhandle] at hnone
        cases hnone
      simp [Service.enrol, Service.count, Service.updateLane, other, hold, hhandle]
    · simp [same, hold, hhandle]
  | @refused j s e hs ha he hw =>
    obtain ⟨t, ht, hsession⟩ := Option.bind_eq_some_iff.mp h
    rw [Host.session?, hw, List.getElem?_modify, ht]
    by_cases same : j = i
    · simpa [same, Service.count] using hsession
    · simpa [same] using hsession

namespace Registered
variable {capacity : Capacity}

theorem fresh (capacity : Capacity) : Registered capacity (World.fresh capacity) where
  numbered := by simp [World.fresh]
  held := .refl _
  created := rfl
  opened := rfl
  failures := rfl
  sized := rfl
  room := Nat.zero_le _

theorem registration (h : Registered capacity w) (r : Registration w w') :
    Registered capacity w' := by
  cases r with
  | nothing hnothing =>
    obtain ⟨⟨sessions, created, failures, sized⟩, held, numbered, total, refusals, -⟩ := hnothing
    refine ⟨numbered h.numbered, ?_, ?_, ?_, ?_, sized.trans h.sized, ?_⟩
    · rw [held, sessions]
      exact h.held
    · rw [created, sessions, h.created]
    · rw [total, sessions, h.opened]
    · rw [failures, refusals, h.failures]
    · rw [sessions]
      exact h.room
  | @opened i s l lane handle hs hl hn ha he hw =>
    obtain ⟨-, hsessions, -⟩ := Software.createSession_ok ha
    obtain ⟨-, -, -, haccounting⟩ := Software.createSession_frame s.key w.host.engine
    have hroom := Software.createSession_room ha
    have own := h.numbered s (List.mem_of_getElem? hs) _ lane hl
    have hi := (List.getElem?_eq_some_iff.mp hs).1
    have total := Service.total_modify hi (f := (·.enrol lane.id handle)) (d := .sessionsCreated)
      fun _ => rfl
    rw [ha] at haccounting
    rw [← own] at hl
    refine ⟨?_, ?_, ?_, ?_, ?_, ?_, ?_⟩
    · rw [hw]
      exact forall_mem_modify h.numbered fun s _ hs => hs.updateLane fun _ => rfl
    · rw [he, hsessions, hw]
      have entered := flatMap_modify_perm (f := (·.enrol lane.id handle)) hs
        (Service.held_enrol hl hn handle)
      exact entered.trans ((h.held.cons _).trans (List.perm_append_singleton _ _).symm)
    · rw [he, hsessions, haccounting, List.length_append, List.length_singleton, ← h.created]
      rfl
    · rw [he, hsessions, hw, total, List.length_append, List.length_singleton, h.opened, if_pos rfl]
    · rw [he, haccounting, hw, total]
      exact h.failures
    · rw [he, Software.createSession_capacity, h.sized]
    · rw [h.sized] at hroom
      rw [he, hsessions, List.length_append, List.length_singleton]
      exact hroom
  | @refused i s e hs ha he hw =>
    have hsessions := (Software.createSession_error ha).sessions
    obtain ⟨-, -, -, haccounting⟩ := Software.createSession_frame s.key w.host.engine
    have hi := (List.getElem?_eq_some_iff.mp hs).1
    have total := Service.total_count hi .sessionFailures
    have lanes : ∀ s : Service, (s.count .sessionFailures).held = s.held := fun _ => rfl
    rw [ha] at haccounting
    refine ⟨?_, ?_, ?_, ?_, ?_, ?_, ?_⟩
    · rw [hw]
      exact forall_mem_modify h.numbered fun _ _ hs => hs
    · rw [he, hsessions, hw, heldSessions, flatMap_modify_of_same _ i lanes]
      exact h.held
    · rw [he, hsessions, haccounting]
      exact h.created
    · rw [he, hsessions, hw, total]
      exact h.opened
    · rw [he, haccounting, hw, total, if_pos rfl, ← h.failures]
      rfl
    · rw [he, Software.createSession_capacity, h.sized]
    · rw [he, hsessions]
      exact h.room

end Registered
end World
end PacketAuth
