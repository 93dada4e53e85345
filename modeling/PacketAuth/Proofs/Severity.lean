import PacketAuth.Interrupt
import Mathlib.Data.List.Induction

/-! The reason of an interrupt against its history. All clones of a handle are handles on one
interrupt. It tells the first of the most severe reasons that it was triggered with since its last
reset, through whichever of them. -/
namespace PacketAuth

theorem CancelKind.severity_injective : Function.Injective CancelKind.severity := by
  intro k l same
  cases k <;> cases l <;> first | rfl | cases same

namespace CancelReason

def severity (r : CancelReason) : Nat := r.kind.severity

/-- The first of the most severe reasons. -/
def Leads (r : CancelReason) (reasons : List CancelReason) : Prop :=
  ∃ before after, reasons = before ++ r :: after ∧ (∀ x ∈ before, x.severity < r.severity) ∧
    ∀ x ∈ after, x.severity ≤ r.severity

/-- A reason strengthened by others in turn, and for each of them whether it was changed. -/
def strengthenAll (current : CancelReason) : List CancelReason → List Bool × CancelReason
  | [] => ([], current)
  | r :: rest =>
    let (changed, next) := current.strengthen r
    let (changes, last) := next.strengthenAll rest
    (changed :: changes, last)

variable {current r r' : CancelReason} {reasons reasons' : List CancelReason}

theorem strengthen_of_lt (h : current.severity < r.severity) : current.strengthen r = (true, r) :=
  if_pos h

theorem strengthen_of_le (h : r.severity ≤ current.severity) :
    current.strengthen r = (false, current) :=
  if_neg (Nat.not_lt.mpr h)

namespace Leads

theorem single (r : CancelReason) : r.Leads [r] := ⟨[], [], rfl, nofun, nofun⟩

theorem mem (h : r.Leads reasons) : r ∈ reasons := by
  obtain ⟨before, after, rfl, -, -⟩ := h
  exact List.mem_append_right _ List.mem_cons_self

theorem le (h : r.Leads reasons) {x : CancelReason} (hx : x ∈ reasons) :
    x.severity ≤ r.severity := by
  obtain ⟨before, after, rfl, lower, others⟩ := h
  rcases List.mem_append.mp hx with hx | hx
  · exact Nat.le_of_lt (lower x hx)
  · rcases List.mem_cons.mp hx with rfl | hx
    · exact Nat.le_refl _
    · exact others x hx

/-- To be above the leading reason is to be above all. -/
theorem lt_iff (h : current.Leads reasons) :
    current.severity < r.severity ↔ ∀ x ∈ reasons, x.severity < r.severity :=
  ⟨fun above _ hx => Nat.lt_of_le_of_lt (h.le hx) above, fun all => all current h.mem⟩

theorem strengthen (h : current.Leads reasons) (r : CancelReason) :
    (current.strengthen r).2.Leads (reasons ++ [r]) := by
  by_cases above : current.severity < r.severity
  · rw [strengthen_of_lt above]
    exact ⟨reasons, [], rfl, h.lt_iff.mp above, nofun⟩
  · have below := Nat.not_lt.mp above
    rw [strengthen_of_le below]
    obtain ⟨before, after, rfl, lower, others⟩ := h
    refine ⟨before, after ++ [r], by simp, lower, fun x hx => ?_⟩
    rcases List.mem_append.mp hx with hx | hx
    · exact others x hx
    · rw [List.mem_singleton.mp hx]
      exact below

/-- No reason lies before one that leads and leads as well. -/
theorem eq_of_cons {between after after' : List CancelReason}
    (split : r :: after = between ++ r' :: after') (others : ∀ x ∈ after, x.severity ≤ r.severity)
    (lower : ∀ x ∈ between, x.severity < r'.severity) : r = r' := by
  cases between with
  | nil => exact (List.cons.inj split).1
  | cons x between =>
    obtain ⟨rfl, rfl⟩ := List.cons.inj split
    have above := lower r List.mem_cons_self
    have below := others r' (List.mem_append_right _ List.mem_cons_self)
    exact absurd above (Nat.not_lt.mpr below)

theorem unique (h : r.Leads reasons) (h' : r'.Leads reasons) : r = r' := by
  obtain ⟨before, after, rfl, lower, others⟩ := h
  obtain ⟨before', after', split, lower', others'⟩ := h'
  rcases List.append_eq_append_iff.mp split with ⟨between, rfl, rest⟩ | ⟨between, rfl, rest⟩
  · exact eq_of_cons rest others fun x hx => lower' x (List.mem_append_right _ hx)
  · exact (eq_of_cons rest others' fun x hx => lower x (List.mem_append_right _ hx)).symm

/-- Which kind of reason leads does not depend on the order. -/
theorem kind_of_perm (h : r.Leads reasons) (h' : r'.Leads reasons') (perm : reasons'.Perm reasons) :
    r'.kind = r.kind :=
  CancelKind.severity_injective
    (Nat.le_antisymm (h.le (perm.mem_iff.mp h'.mem)) (h'.le (perm.mem_iff.mpr h.mem)))

end Leads

theorem strengthen_fst : (current.strengthen r).1 = decide (current.severity < r.severity) := by
  by_cases above : current.severity < r.severity
  · rw [strengthen_of_lt above, decide_eq_true above]
  · rw [strengthen_of_le (Nat.not_lt.mp above), decide_eq_false above]

theorem strengthenAll_spec (h : current.Leads reasons) (rest : List CancelReason) :
    (current.strengthenAll rest).2.Leads (reasons ++ rest) ∧
      ∀ k : Nat, (current.strengthenAll rest).1[k]? =
        rest[k]?.map fun r => decide (∀ x ∈ reasons ++ rest.take k, x.severity < r.severity) := by
  induction rest generalizing current reasons with
  | nil =>
    rw [List.append_nil]
    exact ⟨h, fun k => rfl⟩
  | cons r rest ih =>
    obtain ⟨leads, changes⟩ := ih (h.strengthen r)
    simp only [List.append_assoc, List.singleton_append] at leads changes
    refine ⟨leads, fun k => ?_⟩
    cases k with
    | zero =>
      have first : (current.strengthenAll (r :: rest)).1[0]? = some (current.strengthen r).1 := rfl
      rw [first, strengthen_fst, List.take_zero, List.append_nil, decide_eq_decide.mpr h.lt_iff]
      rfl
    | succ k => exact changes k

end CancelReason

namespace Interrupt

/-- What bears on the reason. -/
inductive Update where
  | trigger (reason : CancelReason)
  | reset
  deriving Repr, DecidableEq

def obey (i : Interrupt) : Update → Interrupt
  | .trigger reason => (i.trigger reason).2
  | .reset => i.reset

/-- The reasons of the triggers since the last reset, in their order. -/
def sinceReset (updates : List Update) : List CancelReason :=
  updates.foldl (fun reasons u => match u with | .trigger r => reasons ++ [r] | .reset => []) []

/-- What an interrupt tells after some triggers. -/
def Tells (reasons : List CancelReason) : Option CancelReason → Prop
  | none => reasons = []
  | some r => r.Leads reasons

variable {i : Interrupt} {updates tail : List Update}

namespace Tells
variable {reason reason' : Option CancelReason} {reasons reasons' more : List CancelReason}

theorem eq_none_iff (t : Tells reasons reason) : reason = none ↔ reasons = [] := by
  cases reason with
  | none => exact iff_of_true rfl t
  | some r => exact iff_of_false nofun (List.ne_nil_of_mem t.mem)

theorem eq_some_iff (t : Tells reasons reason) {r : CancelReason} :
    reason = some r ↔ r.Leads reasons := by
  cases reason with
  | none =>
    have empty : reasons = [] := t
    exact iff_of_false nofun fun leads => List.not_mem_nil (empty ▸ leads.mem)
  | some current =>
    have leads : current.Leads reasons := t
    exact ⟨fun same => Option.some.inj same ▸ leads,
      fun other => congrArg some (leads.unique other)⟩

theorem kind_of_perm (t : Tells reasons reason) (t' : Tells reasons' reason')
    (perm : reasons'.Perm reasons) : reason'.map (·.kind) = reason.map (·.kind) := by
  cases hr : reason with
  | none =>
    have empty : reasons' = [] := (t.eq_none_iff.mp hr ▸ perm).eq_nil
    rw [t'.eq_none_iff.mpr empty]
  | some r =>
    have leads := t.eq_some_iff.mp hr
    obtain ⟨r', hr'⟩ : ∃ r', reason' = some r' := by
      rw [← Option.ne_none_iff_exists', Ne, t'.eq_none_iff]
      exact List.ne_nil_of_mem (perm.mem_iff.mpr leads.mem)
    rw [hr']
    exact congrArg some (leads.kind_of_perm (t'.eq_some_iff.mp hr') perm)

/-- More triggers can only raise the severity. -/
theorem raised (t : Tells (reasons ++ more) reason') {r : CancelReason} (h : r.Leads reasons) :
    ∃ r', reason' = some r' ∧ r.severity ≤ r'.severity := by
  have there := List.mem_append_left more h.mem
  cases hr : reason' with
  | none => exact absurd (t.eq_none_iff.mp hr) (List.ne_nil_of_mem there)
  | some r' => exact ⟨r', rfl, (t.eq_some_iff.mp hr).le there⟩

end Tells

theorem sinceReset_trigger (updates : List Update) (r : CancelReason) :
    sinceReset (updates ++ [.trigger r]) = sinceReset updates ++ [r] := by
  rw [sinceReset, List.foldl_append]
  rfl

theorem sinceReset_reset (updates : List Update) : sinceReset (updates ++ [.reset]) = [] := by
  rw [sinceReset, List.foldl_append]
  rfl

theorem sinceReset_append (h : .reset ∉ tail) :
    ∃ more, sinceReset (updates ++ tail) = sinceReset updates ++ more := by
  induction tail using List.reverseRecOn with
  | nil => exact ⟨[], by rw [List.append_nil, List.append_nil]⟩
  | append_singleton tail u ih =>
    obtain ⟨more, grown⟩ := ih fun earlier => h (List.mem_append_left _ earlier)
    cases u with
    | reset => exact absurd (List.mem_append_right _ (List.mem_singleton_self _)) h
    | trigger r =>
      refine ⟨more ++ [r], ?_⟩
      rw [← List.append_assoc, sinceReset_trigger, grown, List.append_assoc]

theorem Tells.obey (h : Tells (sinceReset updates) i.reason) (u : Update) :
    Tells (sinceReset (updates ++ [u])) (i.obey u).reason := by
  cases u with
  | reset => exact sinceReset_reset updates
  | trigger r =>
    rw [sinceReset_trigger]
    obtain ⟨reason, waiters⟩ := i
    cases reason with
    | none =>
      have untriggered : sinceReset updates = [] := h
      rw [untriggered]
      exact .single r
    | some current => exact h.strengthen r

end Interrupt

open Interrupt

/-- Interrupts, and for each handle the place of the one that it is on: a clone is on the same as
the handle that it was made of. Beside them stand the updates, each with the handle that it went
through. -/
structure Handles where
  interrupts : List Interrupt := []
  places : List Nat := []
  updates : List (Nat × Update) := []
  deriving DecidableEq

namespace Handles

inductive Move where
  | create
  | clone (handle : Nat)
  | register (handle ticket : Nat)
  | update (handle : Nat) (u : Update)
  deriving DecidableEq

/-- An update through a handle on the interrupt at a place. -/
def send (h : Handles) (handle place : Nat) (u : Update) : Handles :=
  { h with
    interrupts := h.interrupts.modify place (·.obey u)
    updates := h.updates ++ [(handle, u)] }

/-- Nothing happens through a handle that there is not. -/
def act (h : Handles) : Move → Handles
  | .create =>
    { h with interrupts := h.interrupts ++ [{}], places := h.places ++ [h.interrupts.length] }
  | .clone handle => { h with places := h.places ++ h.places[handle]?.toList }
  | .register handle ticket =>
    match h.places[handle]? with
    | none => h
    | some place => { h with interrupts := h.interrupts.modify place (·.register ticket) }
  | .update handle u =>
    match h.places[handle]? with
    | none => h
    | some place => h.send handle place u

def play (h : Handles) (moves : List Move) : Handles := moves.foldl act h

/-- The reason as it is read through a handle. -/
def reason (h : Handles) (handle : Nat) : Option CancelReason :=
  h.places[handle]?.bind fun place => h.interrupts[place]?.bind (·.reason)

/-- The updates through all handles on the interrupt at a place. -/
def heardAt (h : Handles) (place : Nat) : List Update :=
  (h.updates.filter fun d => h.places[d.1]? = some place).map (·.2)

/-- The updates through a handle and all others on its interrupt. -/
def heard (h : Handles) (handle : Nat) : List Update := h.places[handle]?.elim [] h.heardAt

/-- Every handle is on an interrupt, every update went through a handle, and every interrupt tells
what it was triggered with. -/
structure Sound (h : Handles) : Prop where
  placed : ∀ place ∈ h.places, place < h.interrupts.length
  known : ∀ d ∈ h.updates, d.1 < h.places.length
  told : ∀ (place : Nat) (i : Interrupt), h.interrupts[place]? = some i →
    Tells (sinceReset (h.heardAt place)) i.reason

variable {h : Handles}

/-- New handles do not change where the old updates went. -/
theorem heardAt_grown (known : ∀ d ∈ h.updates, d.1 < h.places.length) (h' : Handles)
    {places : List Nat} {updates : List (Nat × Update)} (hp : h'.places = h.places ++ places)
    (hu : h'.updates = h.updates ++ updates) (place : Nat) :
    h'.heardAt place =
      h.heardAt place ++ (updates.filter fun d => h'.places[d.1]? = some place).map (·.2) := by
  rw [heardAt, hu, List.filter_append, List.map_append]
  refine congrArg (· ++ _) (congrArg (List.map _) (List.filter_congr fun d hd => ?_))
  rw [hp, List.getElem?_append_left (known d hd)]

theorem heardAt_placed (known : ∀ d ∈ h.updates, d.1 < h.places.length) (h' : Handles)
    {places : List Nat} (hp : h'.places = h.places ++ places) (hu : h'.updates = h.updates)
    (place : Nat) : h'.heardAt place = h.heardAt place := by
  rw [heardAt_grown known h' hp (hu.trans (List.append_nil _).symm)]
  exact List.append_nil _

theorem heardAt_unplaced {place : Nat} (h' : place ∉ h.places) : h.heardAt place = [] := by
  rw [heardAt, List.map_eq_nil_iff, List.filter_eq_nil_iff]
  intro d hd there
  exact h' (List.mem_of_getElem? (of_decide_eq_true there))

namespace Sound

theorem fresh : Sound {} where
  placed := nofun
  known := nofun
  told := nofun

theorem create (sound : h.Sound) : (h.act .create).Sound := by
  have unplaced : h.interrupts.length ∉ h.places := fun there =>
    Nat.lt_irrefl _ (sound.placed _ there)
  refine ⟨fun place there => ?_, fun d hd => ?_, fun place i hi => ?_⟩
  · rw [act, List.length_append]
    rcases List.mem_append.mp there with there | there
    · exact Nat.lt_add_right _ (sound.placed place there)
    · rw [List.mem_singleton.mp there]
      exact Nat.lt_add_one _
  · rw [act, List.length_append]
    exact Nat.lt_add_right _ (sound.known d hd)
  · rw [heardAt_placed sound.known (h.act .create) rfl rfl]
    by_cases old : place < h.interrupts.length
    · rw [act, List.getElem?_append_left old] at hi
      exact sound.told place i hi
    · obtain ⟨rfl, rfl⟩ : place = h.interrupts.length ∧ i = {} := by
        rw [act, List.getElem?_append_right (Nat.not_lt.mp old), List.getElem?_singleton] at hi
        split at hi
        · exact ⟨by omega, (Option.some.inj hi).symm⟩
        · cases hi
      rw [heardAt_unplaced unplaced]
      exact sinceReset_reset []

theorem clone (sound : h.Sound) (handle : Nat) : (h.act (.clone handle)).Sound := by
  refine ⟨fun place there => ?_, fun d hd => ?_, fun place i hi => ?_⟩
  · rcases List.mem_append.mp there with there | there
    · exact sound.placed place there
    · exact sound.placed place (List.mem_of_getElem? (Option.mem_toList.mp there))
  · rw [act, List.length_append]
    exact Nat.lt_add_right _ (sound.known d hd)
  · rw [heardAt_placed sound.known (h.act (.clone handle)) rfl rfl]
    exact sound.told place i hi

theorem register (sound : h.Sound) (handle ticket : Nat) :
    (h.act (.register handle ticket)).Sound := by
  rw [act]
  split
  · exact sound
  · rename_i target there
    refine ⟨fun place hp => ?_, sound.known, fun place i hi => ?_⟩
    · rw [List.length_modify]
      exact sound.placed place hp
    · rw [List.getElem?_modify] at hi
      obtain ⟨old, before, rfl⟩ := Option.map_eq_some_iff.mp hi
      have same : (if target = place then old.register ticket else old).reason = old.reason := by
        split <;> rfl
      rw [same]
      exact sound.told place old before

theorem send (sound : h.Sound) {handle target : Nat} (there : h.places[handle]? = some target)
    (u : Update) : (h.send handle target u).Sound := by
  refine ⟨fun place hp => ?_, fun d hd => ?_, fun place i hi => ?_⟩
  · rw [Handles.send, List.length_modify]
    exact sound.placed place hp
  · rcases List.mem_append.mp hd with hd | hd
    · exact sound.known d hd
    · rw [List.mem_singleton.mp hd]
      exact (List.getElem?_eq_some_iff.mp there).1
  · rw [Handles.send, List.getElem?_modify] at hi
    obtain ⟨old, before, rfl⟩ := Option.map_eq_some_iff.mp hi
    have told := sound.told place old before
    rw [heardAt_grown sound.known (h.send handle target u) (List.append_nil _).symm rfl]
    by_cases same : target = place
    · subst same
      simpa [Handles.send, there] using told.obey u
    · simpa [Handles.send, there, same] using told

theorem act (sound : h.Sound) (m : Move) : (h.act m).Sound := by
  cases m with
  | create => exact sound.create
  | clone handle => exact sound.clone handle
  | register handle ticket => exact sound.register handle ticket
  | update handle u =>
    rw [Handles.act]
    split
    · exact sound
    · rename_i target there
      exact sound.send there u

theorem play (sound : h.Sound) (moves : List Move) : (h.play moves).Sound := by
  induction moves generalizing h with
  | nil => exact sound
  | cons m moves ih => exact ih (sound.act m)

theorem tells (sound : h.Sound) (handle : Nat) :
    Tells (sinceReset (h.heard handle)) (h.reason handle) := by
  rw [heard, reason]
  cases there : h.places[handle]? with
  | none => exact sinceReset_reset []
  | some place =>
    have found := List.getElem?_eq_getElem (sound.placed place (List.mem_of_getElem? there))
    rw [Option.bind_some, found]
    exact sound.told place _ found

end Sound

/-- A handle stays on its interrupt, and an update is never forgotten. -/
theorem grown_act (h : Handles) (m : Move) :
    h.places <+: (h.act m).places ∧ h.updates <+: (h.act m).updates := by
  cases m with
  | create | clone => exact ⟨List.prefix_append _ _, List.prefix_rfl⟩
  | register =>
    rw [act]
    split <;> exact ⟨List.prefix_rfl, List.prefix_rfl⟩
  | update handle u =>
    rw [act]
    split
    · exact ⟨List.prefix_rfl, List.prefix_rfl⟩
    · exact ⟨List.prefix_rfl, List.prefix_append _ _⟩

theorem grown_play (h : Handles) (moves : List Move) :
    h.places <+: (h.play moves).places ∧ h.updates <+: (h.play moves).updates := by
  induction moves generalizing h with
  | nil => exact ⟨List.prefix_rfl, List.prefix_rfl⟩
  | cons m moves ih =>
    obtain ⟨placed, heard⟩ := h.grown_act m
    obtain ⟨placed', heard'⟩ := ih (h.act m)
    exact ⟨placed.trans placed', heard.trans heard'⟩

theorem heard_play (sound : h.Sound) {handle : Nat} (there : handle < h.places.length)
    (later : List Move) : ∃ tail, (h.play later).heard handle = h.heard handle ++ tail := by
  obtain ⟨⟨places, hp⟩, updates, hu⟩ := h.grown_play later
  rw [heard, heard, ← hp, List.getElem?_append_left there, List.getElem?_eq_getElem there]
  exact ⟨_, heardAt_grown sound.known _ hp.symm hu.symm _⟩

/-- Read through any handle, the reason is the first of the most severe ones since the last reset,
through whichever handles on the same interrupt the updates went. So the order of the triggers makes
no difference to its kind, and until the next reset it only becomes more severe. A reason that is
strengthened by others in turn changes where one comes that is more severe than all before. -/
theorem reason_is_first_of_most_severe (moves : List Move) (handle : Nat) :
    let h := play {} moves
    let reasons := sinceReset (h.heard handle)
    (h.reason handle = none ↔ reasons = []) ∧
    (∀ r, h.reason handle = some r ↔ r.Leads reasons) ∧
    (∀ moves' handle', (sinceReset ((play {} moves').heard handle')).Perm reasons →
      ((play {} moves').reason handle').map (·.kind) = (h.reason handle).map (·.kind)) ∧
    (∀ later r, h.reason handle = some r → ∃ tail,
      (h.play later).heard handle = h.heard handle ++ tail ∧ (.reset ∉ tail →
        ∃ r', (h.play later).reason handle = some r' ∧ r.severity ≤ r'.severity)) ∧
    ∀ (current : CancelReason) (rest : List CancelReason),
      (current.strengthenAll rest).2.Leads (current :: rest) ∧
      ∀ k : Nat, (current.strengthenAll rest).1[k]? = rest[k]?.map fun r =>
        decide (∀ x ∈ current :: rest.take k, x.severity < r.severity) := by
  intro h reasons
  have sound : h.Sound := Sound.fresh.play moves
  have tells : Tells reasons (h.reason handle) := sound.tells handle
  refine ⟨tells.eq_none_iff, fun r => tells.eq_some_iff,
    fun moves' handle' => tells.kind_of_perm ((Sound.fresh.play moves').tells handle'),
    fun later r hr => ?_,
    fun current rest => CancelReason.strengthenAll_spec (.single current) rest⟩
  have there : handle < h.places.length := by
    obtain ⟨place, hp, -⟩ := Option.bind_eq_some_iff.mp hr
    exact (List.getElem?_eq_some_iff.mp hp).1
  obtain ⟨tail, grown⟩ := heard_play sound there later
  refine ⟨tail, grown, fun unreset => ?_⟩
  obtain ⟨more, longer⟩ := @sinceReset_append (h.heard handle) tail unreset
  have later_tells := (sound.play later).tells handle
  rw [grown, longer] at later_tells
  exact later_tells.raised (tells.eq_some_iff.mp hr)

/-- A user interruption and two shutdowns, through two clones, and a reset of another interrupt. The
first shutdown stays. Another order leaves a shutdown too, and so does a timeout behind it. -/
theorem first_shutdown_stays :
    let user : CancelReason := ⟨.user, some "enough"⟩
    let first : CancelReason := ⟨.shutdown, some "first"⟩
    let second : CancelReason := ⟨.shutdown, some "second"⟩
    let h := play {} [.create, .clone 0, .create, .update 0 (.trigger user),
      .update 1 (.trigger first), .update 2 .reset, .update 0 (.trigger second)]
    let other := play {} [.create, .update 0 (.trigger second), .update 0 (.trigger user),
      .update 0 (.trigger first)]
    let later := h.play [.update 1 (.trigger .timeout)]
    h.reason 0 = some first ∧ h.reason 1 = h.reason 0 ∧ h.reason 2 = none ∧
      (other.reason 0).map (·.kind) = (h.reason 0).map (·.kind) ∧
      ∃ r, later.reason 0 = some r ∧ first.severity ≤ r.severity := by
  intro user first second h other later
  obtain ⟨-, told, kinds, raised, -⟩ := reason_is_first_of_most_severe
    [.create, .clone 0, .create, .update 0 (.trigger user), .update 1 (.trigger first),
      .update 2 .reset, .update 0 (.trigger second)] 0
  have stays : h.reason 0 = some first :=
    (told first).mpr ⟨[user], [second], rfl, by decide, by decide⟩
  obtain ⟨tail, grown, still⟩ := raised [.update 1 (.trigger .timeout)] first stays
  have unreset : tail = [.trigger .timeout] := List.append_cancel_left grown.symm
  refine ⟨stays, rfl, rfl, kinds [.create, .update 0 (.trigger second), .update 0 (.trigger user),
    .update 0 (.trigger first)] 0 (by decide), still ?_⟩
  rw [unreset]
  decide

end Handles
end PacketAuth
