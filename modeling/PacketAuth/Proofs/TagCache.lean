import PacketAuth.Proofs.Register
import PacketAuth.Proofs.Script
import Mathlib.Data.List.Induction

/-! The tag that a lane keeps. It is the one of the latest read there that got a tag at all,
whatever became of the comparison; no turn on one lane touches another. -/
namespace PacketAuth

/-- The service and the lane of a request. -/
def Request.place (r : Request) : Nat × Nat := (r.service, r.lane.index.toNat)

namespace Service
variable {services : List Service} {i l k : Nat} {lane : Lane}

/-- A lane of one of several services. -/
def lane? (i l : Nat) (services : List Service) : Option Lane := services[i]?.bind (·.lanes[l]?)

theorem lane?_eq_some : lane? i l services = some lane ↔
    ∃ s, services[i]? = some s ∧ s.lanes[l]? = some lane := Option.bind_eq_some_iff

theorem lane?_append (h : lane? i l services = some lane) (s : Service) :
    lane? i l (services ++ [s]) = some lane := by
  obtain ⟨t, ht, hl⟩ := lane?_eq_some.mp h
  refine lane?_eq_some.mpr ⟨t, ?_, hl⟩
  rw [List.getElem?_append_left (List.getElem?_eq_some_iff.mp ht).1]
  exact ht

theorem lane?_of_append {s : Service} (h : lane? i l (services ++ [s]) = some lane) :
    lane? i l services = some lane ∨ lane ∈ s.lanes := by
  obtain ⟨t, ht, hl⟩ := lane?_eq_some.mp h
  rcases Nat.lt_or_ge i services.length with old | new
  · rw [List.getElem?_append_left old] at ht
    exact .inl (lane?_eq_some.mpr ⟨t, ht, hl⟩)
  · rw [List.getElem?_append_right new] at ht
    obtain rfl := List.mem_singleton.mp (List.mem_of_getElem? ht)
    exact .inr (List.mem_of_getElem? hl)

theorem freshLanes_cachedTag {n : Nat} (h : lane ∈ freshLanes n) : lane.cachedTag = .zero := by
  obtain ⟨k, -, rfl⟩ := List.mem_map.mp h
  rfl

/-- A change of one service that keeps its lanes keeps all lanes. -/
theorem lane?_modify {f : Service → Service} (hf : ∀ s, (f s).lanes = s.lanes) (i l : Nat) :
    lane? i l (services.modify k f) = lane? i l services := by
  rw [lane?, lane?, List.getElem?_modify]
  cases services[i]? with
  | none => rfl
  | some s =>
    by_cases here : k = i
    · simp [here, hf]
    · simp [here]

@[simp] theorem lane?_count (c : Stats.Counter) (i l : Nat) :
    lane? i l (services.modify k (·.count c)) = lane? i l services :=
  lane?_modify (f := (·.count c)) (fun _ => rfl) i l

/-- A change of one lane of one service leaves all others alone. -/
theorem lane?_updateLane (id : LaneId) (f : Lane → Lane) (c : Stats.Counter) (i l : Nat) :
    lane? i l (services.modify k fun s => (s.updateLane id f).count c) =
      (lane? i l services).map fun lane =>
        if (k, id.index.toNat) = (i, l) then f lane else lane := by
  rw [lane?, lane?, List.getElem?_modify]
  cases services[i]? with
  | none => rfl
  | some s =>
    by_cases here : k = i
    · by_cases lane : id.index.toNat = l
      · simp [here, lane, Service.count, Service.updateLane]
      · simp [here, lane, Service.count, Service.updateLane]
    · simp [here]

end Service

namespace Call

/-- The tag that a read compares when it gets its job. -/
def compares (c : Call) (job : Job) : Option Tag :=
  if c.request.command = .read then job.verdict.toOption else none

theorem ending_cached (c : Call) (job : Job) : (c.ending job).cached = c.compares job := by
  cases hv : job.verdict with
  | error f => simp [ending, compares, hv, Except.toOption]
  | ok tag =>
    cases hc : c.request.command with
    | write =>
      rw [ending_of_write hv hc]
      simp [compares, hc]
    | read =>
      rw [ending_of_read hv hc]
      split <;> simp [compares, hc, hv, Except.toOption]

/-- The end of a call leaves its tag, if it got one to compare, in its own lane. -/
theorem lane?_credit (c : Call) (job : Job) (services : List Service) (i l : Nat) :
    Service.lane? i l (services.modify c.request.service (c.credit job)) =
      (Service.lane? i l services).map fun lane =>
        if c.request.place = (i, l) then
          { lane with cachedTag := (c.compares job).getD lane.cachedTag }
        else lane := by
  cases ht : c.compares job with
  | none =>
    have credit : c.credit job = fun s => s.count (c.ending job).counter := by
      funext s
      simp [Call.credit, c.ending_cached, ht]
    rw [credit, Service.lane?_count]
    simp
  | some tag =>
    have credit : c.credit job = fun s =>
        (s.updateLane c.request.lane fun l => { l with cachedTag := tag }).count
          (c.ending job).counter := by
      funext s
      simp [Call.credit, c.ending_cached, ht]
    rw [credit, Service.lane?_updateLane]
    rfl

/-- What the end of a call says about the tag that its lane keeps from now on: a read that got one
says whether it agrees with the buffer; any other end brings none. -/
inductive Checked (c : Call) : Option Tag → Except Failure Unit → Prop
  | agreed {tag : Tag} (hc : c.request.command = .read)
      (ha : tag.agrees (c.regions.tag.read c.request.buffer) = true) : Checked c (some tag) (.ok ())
  | mismatched {tag : Tag} (hc : c.request.command = .read)
      (ha : tag.agrees (c.regions.tag.read c.request.buffer) = false) (context : Option String) :
      Checked c (some tag) (.error ⟨.authenticationMismatch, context⟩)
  | written (hc : c.request.command = .write) : Checked c none (.ok ())
  | failed {f : Failure} (hf : f.kind = .waitInterrupted ∨ ∃ code, f.kind = .engineFailed code) :
      Checked c none (.error f)

theorem checked_ending (c : Call) (job : Job) :
    c.Checked (c.compares job) (c.ending job).reply.result := by
  cases hv : job.verdict with
  | error f =>
    have nothing : c.compares job = none := by simp [compares, hv, Except.toOption]
    rw [nothing, (c.ending_of_error hv).1]
    exact .failed (.inr (Job.verdict_error hv))
  | ok tag =>
    cases hc : c.request.command with
    | write =>
      have nothing : c.compares job = none := by simp [compares, hc]
      rw [nothing, ending_of_write hv hc]
      exact .written hc
    | read =>
      have got : c.compares job = some tag := by simp [compares, hv, hc, Except.toOption]
      rw [got, ending_of_read hv hc]
      split
      · rename_i ha
        exact .agreed hc ha
      · rename_i ha
        exact .mismatched hc (eq_false_of_ne_true ha) _

end Call

namespace Moment
variable {σ κ : Type}

/-- The lane that a turn is about. -/
def address (m : Moment σ κ) : Option (Nat × Nat) :=
  match m.turn with
  | .ensureSession i l => some (i, l.index.toNat)
  | .enter r => some r.place
  | .deliver place => (m.before.returning place).map (·.2.1.request.place)
  | .look ticket => m.before.host.calls[ticket]?.map (·.request.place)
  | _ => none

/-- The tag that a read on a lane got in a turn. -/
def compared (m : Moment σ κ) (i l : Nat) : Option Tag :=
  m.receives.bind fun (_, c, job) => if c.request.place = (i, l) then c.compares job else none

/-- What a turn makes of a lane: a turn on another lane changes nothing of it, and no turn its tag
unless a read there got one. -/
structure Tends (m : Moment σ κ) (i l : Nat) (f : Lane → Lane) : Prop where
  tag : ∀ lane, (f lane).cachedTag = (m.compared i l).getD lane.cachedTag
  foreign : m.address ≠ some (i, l) → ∀ lane, f lane = lane

theorem Tends.of_none {m : Moment σ κ} {i l : Nat} {f : Lane → Lane} (hc : m.compared i l = none)
    (tag : ∀ lane, (f lane).cachedTag = lane.cachedTag)
    (foreign : m.address ≠ some (i, l) → ∀ lane, f lane = lane) : m.Tends i l f :=
  ⟨fun lane => by rw [hc, Option.getD_none, tag], foreign⟩

theorem Tends.id {m : Moment σ κ} {i l : Nat} (hc : m.compared i l = none) : m.Tends i l id :=
  .of_none hc (fun _ => rfl) fun _ _ => rfl

end Moment

namespace World
variable {σ κ : Type} {R : Rules σ} {C : Controls σ κ} {w w' : World σ} {i l : Nat} {lane : Lane}

theorem numbered_effect (h : ∀ s ∈ w.host.services, s.Numbered) (e : Effect R w w') :
    ∀ s ∈ w'.host.services, s.Numbered := by
  have credited : ∀ (i : Nat) (c : Call) (job : Job),
      ∀ s ∈ w.host.services.modify i (c.credit job), s.Numbered := fun i c job =>
    forall_mem_modify h fun s _ hs => (Service.SameSessions.of_credit c job s).numbered hs
  cases e with
  | aside | misconfigured | changed | admitted | taken => exact h
  | installed _ hb =>
    intro s hs
    rcases List.mem_append.mp hs with hs | hs
    · exact h s hs
    · obtain ⟨-, key, rfl⟩ := build_ok hb
      rw [List.mem_singleton.mp hs]
      exact Service.numbered_create _ key
  | opened => exact forall_mem_modify h fun s _ hs => hs.updateLane fun _ => rfl
  | dropped | notOpened | rejected | starved | left => exact forall_mem_modify h fun s _ hs => hs
  | passed host before after s =>
    cases s with
    | strayed | stranded | refused => exact h
    | resubmitted => exact forall_mem_modify h fun s _ hs => hs
    | finished => exact credited _ _ _
  | collected => exact credited _ _ _

theorem numbered_run (h : ∀ s ∈ w.host.services, s.Numbered) (run : Run R w w') :
    ∀ s ∈ w'.host.services, s.Numbered := by
  have along {v : World σ} (e : Effects R w v) : ∀ s ∈ v.host.services, s.Numbered := by
    induction e with
    | refl => exact h
    | tail _ effect ih => exact numbered_effect ih effect
  exact along run.effects

end World

namespace Host
variable {σ : Type} {E : Engine σ} {h h' : Host σ} {s : Service} {k : Nat}

/-- Opening a session leaves all tags alone, and all lanes but the one that gets it. -/
theorem Opening.lane? {id : LaneId} {old : Lane} {answer : Except Failure SessionHandle}
    (hl : s.lanes[id.index.toNat]? = some old) (hn : s.Numbered)
    (o : Opening E k s.key old h answer h') (i l : Nat) :
    ∃ f : Lane → Lane, Service.lane? i l h'.services = (Service.lane? i l h.services).map f ∧
      (∀ lane, (f lane).cachedTag = lane.cachedTag) ∧
      ((k, id.index.toNat) ≠ (i, l) → ∀ lane, f lane = lane) := by
  have own := hn _ old hl
  cases o with
  | known => exact ⟨fun lane => lane, by simp, fun _ => rfl, fun _ _ => rfl⟩
  | opened _ log =>
    refine ⟨_, Service.lane?_updateLane _ _ _ i l, fun lane => ?_, fun other lane => ?_⟩
    · split <;> rfl
    · rw [own, if_neg other]
  | refused _ context log => exact ⟨fun lane => lane, by simp, fun _ => rfl, fun _ _ => rfl⟩

/-- So does letting a request in. -/
theorem Admission.lane? {r : Request} {answer : Except Failure Nat} (hn : s.Numbered)
    (a : Admission E s r h answer h') (i l : Nat) :
    ∃ f : Lane → Lane, Service.lane? i l h'.services = (Service.lane? i l h.services).map f ∧
      (∀ lane, (f lane).cachedTag = lane.cachedTag) ∧
      (r.place ≠ (i, l) → ∀ lane, f lane = lane) := by
  cases a with
  | malformed hp log => exact ⟨fun lane => lane, by simp, fun _ => rfl, fun _ _ => rfl⟩
  | unopened hp ho => exact ho.lane? (World.prepare_ok hp).1 hn i l
  | starved hp ho context log =>
    obtain ⟨f, found, tag, foreign⟩ := ho.lane? (World.prepare_ok hp).1 hn i l
    exact ⟨f, by rw [Service.lane?_count, found], tag, foreign⟩
  | admitted hp ho log =>
    obtain ⟨f, found, tag, foreign⟩ := ho.lane? (World.prepare_ok hp).1 hn i l
    exact ⟨f, found, tag, foreign⟩

end Host

namespace World
variable {σ κ : Type} {C : Controls σ κ} {w : World σ} {i l : Nat}

theorem compared_of_receives {t : Turn κ} {ticket : Nat} {c : Call} {job : Job}
    (hr : (w.moment C t).receives = some (ticket, c, job)) (i l : Nat) :
    (w.moment C t).compared i l = if c.request.place = (i, l) then c.compares job else none := by
  simp [Moment.compared, hr]

theorem compared_of_none {t : Turn κ} (hr : (w.moment C t).receives = none) (i l : Nat) :
    (w.moment C t).compared i l = none := by
  simp [Moment.compared, hr]

/-- A turn in which a call ends with its job leaves the tag of a read in its lane. -/
theorem tends_credit {m : Moment σ κ} {c : Call} {job : Job}
    (hc : m.compared i l = if c.request.place = (i, l) then c.compares job else none)
    (ha : m.address = some c.request.place) :
    m.Tends i l fun lane =>
      if c.request.place = (i, l) then
        { lane with cachedTag := (c.compares job).getD lane.cachedTag }
      else lane where
  tag lane := by
    rw [hc]
    split <;> rfl
  foreign other lane := if_neg fun here => other (by rw [ha, here])

/-- What a turn makes of the lanes that are there. -/
def Attended (C : Controls σ κ) (w : World σ) (t : Turn κ) (i l : Nat) : Prop :=
  ∃ f : Lane → Lane, Service.lane? i l (w.turn C t).2.host.services =
    (Service.lane? i l w.host.services).map f ∧ (w.moment C t).Tends i l f

/-- A turn that leaves the services alone. -/
theorem Attended.of_eq {t : Turn κ}
    (hs : Service.lane? i l (w.turn C t).2.host.services = Service.lane? i l w.host.services)
    (hc : (w.moment C t).compared i l = none) : Attended C w t i l :=
  ⟨id, by rw [hs, Option.map_id, id], .id hc⟩

theorem attended_deliver (place : Nat) : Attended C w (.deliver place) i l := by
  have delivered := w.deliver_spec (C := C) place
  generalize ht : (w.turn C (.deliver place)).2.host = h' at delivered
  cases delivered with
  | lost _ _ hr | stranded _ _ hr | refused _ hr => exact .of_eq (by rw [ht]) (compared_of_none hr i l)
  | resubmitted _ hr => exact .of_eq (by rw [ht, Service.lane?_count]) (compared_of_none hr i l)
  | @finished ticket c job job' _ hj hw hr =>
    exact ⟨_, by rw [ht, c.lane?_credit],
      tends_credit (compared_of_receives hr i l) (by simp [Moment.address, moment, hj])⟩

theorem attended_look (ticket : Nat) : Attended C w (.look ticket) i l := by
  have glance := Host.look_spec C.engine ticket w.host
  have after : (w.turn C (.look ticket)).2.host = w.host.look C.engine ticket := rfl
  rw [← after] at glance
  generalize ht : (w.turn C (.look ticket)).2.host = h' at glance
  cases glance with
  | nothing hn => exact .of_eq (by rw [ht]) (compared_of_none (receives_of_nothing hn) i l)
  | @collected c job hc hw hp log =>
    exact ⟨_, by rw [ht, c.lane?_credit],
      tends_credit (compared_of_receives (receives_of_completed hc hw hp) i l)
        (by simp [Moment.address, moment, hc])⟩
  | @left c hc hw hp slot context log =>
    refine .of_eq (by rw [ht, Service.lane?_count])
      (compared_of_none (receives_of_nothing fun d hd _ => ?_) i l)
    obtain rfl : c = d := Option.some.inj (hc.symm.trans hd)
    exact hp

/-- Every turn tends every lane that is there; lanes come with their service, and without a tag. -/
theorem attended_turn (numbered : ∀ s ∈ w.host.services, s.Numbered) (t : Turn κ) (i l : Nat) :
    Attended C w t i l ∨
      (w.moment C t).compared i l = none ∧ Service.lane? i l w.host.services = none ∧
        ∀ lane, Service.lane? i l (w.turn C t).2.host.services = some lane →
          lane.cachedTag = .zero := by
  cases t with
  | install b =>
    cases hb : b.build with
    | error e => exact .inl (.of_eq (by simp [turn, Host.install, hb]) rfl)
    | ok s =>
      have services : (w.turn C (.install b)).2.host.services = w.host.services ++ [s] := by
        simp [turn, Host.install, hb]
      rw [services]
      cases known : Service.lane? i l w.host.services with
      | some lane => exact .inl (.of_eq (by rw [services, known, Service.lane?_append known]) rfl)
      | none =>
        refine .inr ⟨rfl, rfl, fun lane found => ?_⟩
        obtain ⟨-, key, rfl⟩ := build_ok hb
        rcases Service.lane?_of_append found with old | new
        · rw [known] at old
          cases old
        · exact Service.freshLanes_cachedTag new
  | ensureSession k id =>
    left
    cases hs : w.host.services[k]? with
    | none => exact .of_eq (by simp [turn, hs]) rfl
    | some s =>
      cases hl : s.lanes[id.index.toNat]? with
      | none => exact .of_eq (by simp [turn, hs, Host.ensureSession, Service.lane, hl]) rfl
      | some old =>
        have opening := Host.openSession_spec C.engine k s.key old w.host
        obtain ⟨f, found, tag, foreign⟩ :=
          opening.lane? hl (numbered s (List.mem_of_getElem? hs)) i l
        refine ⟨f, ?_, .of_none rfl tag fun other => foreign fun here => other (congrArg some here)⟩
        simpa [turn, hs, Host.ensureSession, Service.lane, hl] using found
  | enter r =>
    left
    cases hs : w.host.services[r.service]? with
    | none => exact .of_eq (by simp [turn, hs]) rfl
    | some s =>
      have admission := Host.enter_spec C.engine s r w.host
      obtain ⟨f, found, tag, foreign⟩ := admission.lane? (numbered s (List.mem_of_getElem? hs)) i l
      refine ⟨f, ?_, .of_none rfl tag fun other => foreign fun here => other (congrArg some here)⟩
      simpa [turn, hs] using found
  | take =>
    refine .inl (.of_eq ?_ rfl)
    rw [turn]
    split <;> rfl
  | deliver place => exact .inl (attended_deliver place)
  | look ticket => exact .inl (attended_look ticket)
  | dropService k =>
    exact .inl (.of_eq (Service.lane?_modify (f := fun s => { s with isHeld := false })
      (fun _ => rfl) i l) rfl)
  | pass | trigger | reset | change => exact .inl (.of_eq rfl rfl)

/-- Every call is on a lane that is there. -/
def Placed (w : World σ) : Prop :=
  ∀ c ∈ w.host.calls, ∃ lane,
    Service.lane? c.request.service c.request.lane.index.toNat w.host.services = some lane

theorem Placed.turn (h : Placed w) (numbered : ∀ s ∈ w.host.services, s.Numbered) (t : Turn κ) :
    Placed (w.turn C t).2 := by
  have kept : ∀ i l, (∃ lane, Service.lane? i l w.host.services = some lane) →
      ∃ lane, Service.lane? i l (w.turn C t).2.host.services = some lane := by
    rintro i l ⟨lane, known⟩
    rcases attended_turn (C := C) numbered t i l with ⟨f, found, -⟩ | ⟨-, unknown, -⟩
    · exact ⟨f lane, by rw [found, known, Option.map_some]⟩
    · rw [known] at unknown
      cases unknown
  have old : ∀ r ∈ w.host.calls.map Call.request, ∃ lane,
      Service.lane? r.service r.lane.index.toNat (w.turn C t).2.host.services = some lane := by
    intro r hr
    obtain ⟨c, hc, rfl⟩ := List.mem_map.mp hr
    exact kept _ _ (h c hc)
  intro c hc
  have mem : c.request ∈ (w.turn C t).2.host.calls.map Call.request := List.mem_map_of_mem hc
  rcases w.requests_turn (C := C) t with same | ⟨s, r, lane, regions, hs, hp, added⟩
  · rw [same] at mem
    exact old _ mem
  · rw [added] at mem
    rcases List.mem_append.mp mem with mem | new
    · exact old _ mem
    · rw [List.mem_singleton.mp new]
      exact kept _ _ ⟨lane, Service.lane?_eq_some.mpr ⟨s, hs, (prepare_ok hp).1⟩⟩

/-- Only a lane that is there gets a tag. -/
theorem Placed.compared_of_none (h : Placed w) (hn : Service.lane? i l w.host.services = none)
    (t : Turn κ) : (w.moment C t).compared i l = none := by
  rw [Option.eq_none_iff_forall_ne_some]
  intro tag hc
  obtain ⟨⟨ticket, c, job⟩, hr, hc⟩ := Option.bind_eq_some_iff.mp hc
  dsimp only at hc
  split at hc
  · rename_i here
    obtain ⟨rfl, rfl⟩ := Prod.mk.inj here
    obtain ⟨lane, known⟩ := h c (List.mem_of_getElem? (call_of_receives hr))
    rw [hn] at known
    cases known
  · cases hc

/-- The tags that reads on a lane got, in the order of their turns. -/
def tagsRead (moments : List (Moment σ κ)) (i l : Nat) : List Tag :=
  moments.filterMap (·.compared i l)

/-- Every lane keeps the latest tag that was read there; no tag was read where no lane is. -/
structure Cached (moments : List (Moment σ κ)) (w : World σ) : Prop where
  numbered : ∀ s ∈ w.host.services, s.Numbered
  placed : Placed w
  latest : ∀ i l lane, Service.lane? i l w.host.services = some lane →
    lane.cachedTag = (tagsRead moments i l).getLast?.getD .zero
  nowhere : ∀ i l, Service.lane? i l w.host.services = none → tagsRead moments i l = []

theorem tagsRead_concat (moments : List (Moment σ κ)) (m : Moment σ κ) (i l : Nat) :
    tagsRead (moments ++ [m]) i l = tagsRead moments i l ++ (m.compared i l).toList := by
  rw [tagsRead, List.filterMap_append, tagsRead]
  cases h : m.compared i l <;> simp [h]

theorem getLast?_append_toList {α : Type} (xs : List α) (x : Option α) (y : α) :
    (xs ++ x.toList).getLast?.getD y = x.getD (xs.getLast?.getD y) := by
  cases x <;> simp

theorem Cached.turn {moments : List (Moment σ κ)} (h : Cached moments w) (t : Turn κ) :
    Cached (moments ++ [w.moment C t]) (w.turn C t).2 where
  numbered := numbered_run h.numbered (w.run_turn t)
  placed := h.placed.turn h.numbered t
  latest i l lane found := by
    rw [tagsRead_concat, getLast?_append_toList]
    rcases attended_turn (C := C) h.numbered t i l with ⟨f, eq, tends⟩ | ⟨none, unknown, blank⟩
    · obtain ⟨old, known, rfl⟩ := Option.map_eq_some_iff.mp (eq.symm.trans found)
      rw [tends.tag, h.latest i l old known]
    · rw [none, h.nowhere i l unknown, blank lane found]
      rfl
  nowhere i l gone := by
    have unknown : Service.lane? i l w.host.services = none := by
      rcases attended_turn (C := C) h.numbered t i l with ⟨f, eq, -⟩ | ⟨-, unknown, -⟩
      · exact Option.map_eq_none_iff.mp (eq.symm.trans gone)
      · exact unknown
    rw [tagsRead_concat, h.nowhere i l unknown, h.placed.compared_of_none unknown]
    rfl

theorem cached_play (ts : List (Turn κ)) (s₀ : σ) :
    Cached ((vacant s₀).moments C ts) ((vacant s₀).play C ts) := by
  induction ts using List.reverseRecOn with
  | nil =>
    constructor
    · intro s hs
      cases hs
    · intro c hc
      cases hc
    · intro i l lane known
      cases known
    · intro i l _
      rfl
  | append_singleton ts t ih =>
    rw [moments_concat, play_append]
    exact ih.turn t

/-- A call that ends in a turn is checked by the tag that its lane gets there. -/
theorem checked_turn {t : Turn κ} {ticket : Nat} {c : Call} {reply : Reply}
    (hc : w.host.calls[ticket]? = some c) (hw : c.isWaiting = true)
    (hr : (w.turn C t).2.host.reply? ticket = some reply) :
    c.Checked ((w.moment C t).compared c.request.service c.request.lane.index.toNat)
      reply.result := by
  rcases ended_turn hc hw hr with ⟨job, receives, rfl⟩ | ⟨receives, context, rfl⟩
  · rw [compared_of_receives receives, Request.place, if_pos rfl]
    exact c.checked_ending job
  · rw [compared_of_none receives]
    exact .failed (.inl rfl)

/-- On every engine and in every interleaving: the tag of a lane is the latest that a read there got
with its job, and zero before the first. A turn in which no read on a lane gets a tag leaves the tag
of the lane alone, a turn that is about another lane leaves all of it alone, and a call gets a tag
for its lane only by ending as a read whose comparison it decides. -/
theorem lanes_keep_latest_tags (C : Controls σ κ) (s₀ : σ) (ts : List (Turn κ)) :
    (∀ i l lane, Service.lane? i l ((vacant s₀).play C ts).host.services = some lane →
      lane.cachedTag = (tagsRead ((vacant s₀).moments C ts) i l).getLast?.getD .zero) ∧
    ∀ m ∈ (vacant s₀).moments C ts,
      (∀ i l lane, Service.lane? i l m.before.host.services = some lane →
        ∃ lane', Service.lane? i l m.after.host.services = some lane' ∧
          lane'.cachedTag = (m.compared i l).getD lane.cachedTag ∧
          (m.address ≠ some (i, l) → lane' = lane)) ∧
      ∀ ticket c reply, m.before.host.calls[ticket]? = some c → c.isWaiting = true →
        m.after.host.reply? ticket = some reply →
          c.Checked (m.compared c.request.service c.request.lane.index.toNat) reply.result := by
  refine ⟨(cached_play ts s₀).latest, fun m hm => ?_⟩
  obtain ⟨us, t, rfl⟩ := exists_of_mem_moments hm
  refine ⟨fun i l lane known => ?_, fun ticket c reply hc hw hr => checked_turn hc hw hr⟩
  dsimp only [moment] at known
  rcases attended_turn (C := C) (cached_play us s₀).numbered t i l with
    ⟨f, eq, tends⟩ | ⟨-, unknown, -⟩
  · refine ⟨f lane, ?_, tends.tag lane, fun other => tends.foreign other lane⟩
    exact eq.trans (by rw [known, Option.map_some])
  · rw [known] at unknown
    cases unknown

end World
end PacketAuth
