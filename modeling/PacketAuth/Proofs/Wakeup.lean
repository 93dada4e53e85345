import PacketAuth.Completion
import PacketAuth.Interrupt
import Mathlib.Data.List.Induction

/-! Waits that sleep on an interrupt. What is done under one lock is one step, and the steps of all
waits and of whoever triggers and resets come in any order. A wait registers once, and a trigger
takes its registration; when a reset overtakes the wait that was woken, no later trigger wakes
it. -/
namespace PacketAuth

/-- How far a wait has come. One that is awake looks next; one that is parked is to be woken. -/
inductive Stage where
  | awake
  | parked
  | ended (arrival : Arrival)
  deriving DecidableEq

/-- A wait with a slot of its own. -/
structure Waiter where
  slot : Slot := .pending
  stage : Stage := .awake
  deriving DecidableEq

namespace Waiter

/-- One that sleeps: its job has not come, and nobody has woken it. -/
def asleep : Waiter := ⟨.pending, .parked⟩

def Ended (x : Waiter) : Prop := ∃ a, x.stage = .ended a

def wake (x : Waiter) : Waiter := if x.stage = .parked then { x with stage := .awake } else x

/-- A wait that finds nothing and has not run out of time parks. -/
def see (reason : Option CancelReason) (expired : Bool) (x : Waiter) : Waiter :=
  match x.slot.look reason expired with
  | (some a, slot) => ⟨slot, .ended a⟩
  | (none, slot) => ⟨slot, .parked⟩

/-- The look of a wait that has just begun or was woken. -/
def look (reason : Option CancelReason) (x : Waiter) : Waiter :=
  if x.stage = .awake then x.see reason false else x

/-- The end of the time of a wait that is parked: it does not ask for a reason any more. -/
def expire (x : Waiter) : Waiter := if x.stage = .parked then x.see none true else x

/-- A job that the slot takes wakes the wait. -/
def complete (job : Job) (x : Waiter) : Waiter :=
  match x.slot.complete job with
  | (.delivered, slot) => { x with slot }.wake
  | (.refused _, _) => x

end Waiter

/-- An interrupt, all waits that ever began on it, and those that triggers have still to notify. -/
structure Watch where
  interrupt : Interrupt := {}
  waits : List Waiter := []
  due : List Nat := []
  deriving DecidableEq

namespace Watch

/-- The steps of waits, engines, triggers and resets. A trigger merges its reason and takes the
registrations in one step; then it notifies one wait a step. -/
inductive Deed where
  | register
  | look (ticket : Nat)
  | expire (ticket : Nat)
  | complete (ticket : Nat) (job : Job)
  | trigger (reason : CancelReason)
  | notify (place : Nat)
  | reset
  deriving DecidableEq

/-- A step that is not possible leaves all as it is. -/
def act (w : Watch) : Deed → Watch
  | .register =>
    { w with interrupt := w.interrupt.register w.waits.length, waits := w.waits ++ [{}] }
  | .look ticket => { w with waits := w.waits.modify ticket (·.look w.interrupt.reason) }
  | .expire ticket => { w with waits := w.waits.modify ticket Waiter.expire }
  | .complete ticket job => { w with waits := w.waits.modify ticket (·.complete job) }
  | .trigger reason =>
    { w with
      interrupt := (w.interrupt.trigger reason).2
      due := w.due ++ (w.interrupt.trigger reason).1 }
  | .notify place =>
    match w.due[place]? with
    | none => w
    | some ticket =>
      { w with waits := w.waits.modify ticket Waiter.wake, due := w.due.eraseIdx place }
  | .reset => { w with interrupt := w.interrupt.reset }

def play (w : Watch) (deeds : List Deed) : Watch := deeds.foldl act w

/-- No trigger is under way and the reason is set, and yet a wait sleeps. -/
def Loses (w : Watch) (ticket : Nat) : Prop :=
  w.due = [] ∧ w.interrupt.isTriggered = true ∧ w.waits[ticket]? = some .asleep

instance (w : Watch) (ticket : Nat) : Decidable (w.Loses ticket) :=
  inferInstanceAs (Decidable (_ ∧ _ ∧ _))

/-- A trigger took the registration of a wait that has not ended. -/
def Owes (w : Watch) (ticket : Nat) : Prop :=
  ticket ∉ w.interrupt.waiters ∧ ∃ x, w.waits[ticket]? = some x ∧ ¬ x.Ended

/-- The steps that end a sleep without the interrupt. -/
def Deed.Rouses (ticket : Nat) (d : Deed) : Prop :=
  d = .expire ticket ∨ ∃ job, d = .complete ticket job

end Watch

namespace Waiter

/-- How a step changes a wait: it has not come back from its end, and it is parked after it only if
it was parked or looked and saw no reason. -/
structure Goes (reason : Option CancelReason) (x x' : Waiter) : Prop where
  ended : x.Ended → x'.Ended
  parked : x'.stage = .parked → x.stage = .parked ∨ reason = none

variable {reason : Option CancelReason} {x : Waiter}

theorem wake_goes (x : Waiter) : x.Goes reason x.wake := by
  unfold wake
  split
  · rename_i parked
    exact ⟨fun ⟨a, ended⟩ => by simp [parked] at ended, nofun⟩
  · exact ⟨id, .inl⟩

theorem wake_not_parked (x : Waiter) : x.wake.stage ≠ .parked := by
  unfold wake
  split
  · nofun
  · assumption

/-- A wait that looks while a reason is set does not go on sleeping. -/
theorem see_ended (x : Waiter) {expired : Bool} (h : reason ≠ none ∨ expired = true) :
    (x.see reason expired).Ended := by
  unfold see Ended
  cases x.slot <;> cases reason <;> cases expired <;> simp_all [Slot.look]

theorem look_goes (x : Waiter) : x.Goes reason (x.look reason) := by
  unfold look
  split
  · rename_i awake
    refine ⟨fun ⟨a, ended⟩ => by simp [awake] at ended, fun parked => .inr ?_⟩
    cases hr : reason with
    | none => rfl
    | some why =>
      have found : (x.see reason false).Ended := x.see_ended (.inl (by simp [hr]))
      obtain ⟨a, ended⟩ := found
      simp [parked] at ended
  · exact ⟨id, .inl⟩

theorem look_ended (h : reason ≠ none) (hx : x.stage ≠ .parked) : (x.look reason).Ended := by
  unfold look
  split
  · exact x.see_ended (.inl h)
  · cases hs : x.stage with
    | awake => contradiction
    | parked => contradiction
    | ended a => exact ⟨a, hs⟩

theorem expire_goes (x : Waiter) : x.Goes reason x.expire := by
  unfold expire
  split
  · rename_i parked
    exact ⟨fun _ => x.see_ended (.inr rfl), fun _ => .inl parked⟩
  · exact ⟨id, .inl⟩

theorem complete_goes (job : Job) (x : Waiter) : x.Goes reason (x.complete job) := by
  unfold complete
  split
  · rename_i slot _
    have woken : Goes reason { x with slot } ({ x with slot } : Waiter).wake := wake_goes _
    exact ⟨woken.ended, woken.parked⟩
  · exact ⟨id, .inl⟩

end Waiter

namespace Watch
variable {w : Watch} {ticket : Nat} {d : Deed} {x : Waiter}

theorem exists_goes_of_modify {reason : Option CancelReason} {f : Waiter → Waiter}
    (hf : ∀ x : Waiter, x.Goes reason (f x)) {waits : List Waiter} {t : Nat}
    (h : (waits.modify t f)[ticket]? = some x) :
    ∃ y, waits[ticket]? = some y ∧ y.Goes reason x ∧ (t = ticket → x = f y) := by
  rw [List.getElem?_modify] at h
  obtain ⟨y, hy, rfl⟩ := Option.map_eq_some_iff.mp h
  refine ⟨y, hy, ?_, fun same => by simp [same]⟩
  split
  · exact hf y
  · exact ⟨id, .inl⟩

/-- What a step makes of a wait: it is a new one, or it goes on, and it does not sleep on when it is
the one that is notified. -/
theorem waits_act (h : (w.act d).waits[ticket]? = some x) :
    d = .register ∧ ticket = w.waits.length ∧ x = {} ∨
      ∃ y, w.waits[ticket]? = some y ∧ y.Goes w.interrupt.reason x ∧
        ∀ place, d = .notify place → w.due[place]? = some ticket → x.stage ≠ .parked := by
  cases d with
  | register =>
    rw [act] at h
    dsimp only at h
    rcases Nat.lt_trichotomy ticket w.waits.length with old | rfl | beyond
    · rw [List.getElem?_append_left old] at h
      exact .inr ⟨x, h, ⟨id, .inl⟩, by simp⟩
    · rw [List.getElem?_concat_length] at h
      exact .inl ⟨rfl, rfl, (Option.some.inj h).symm⟩
    · rw [List.getElem?_eq_none (by simp; omega)] at h
      cases h
  | look t =>
    obtain ⟨y, hy, goes, -⟩ := exists_goes_of_modify Waiter.look_goes h
    exact .inr ⟨y, hy, goes, by simp⟩
  | expire t =>
    obtain ⟨y, hy, goes, -⟩ := exists_goes_of_modify Waiter.expire_goes h
    exact .inr ⟨y, hy, goes, by simp⟩
  | complete t job =>
    obtain ⟨y, hy, goes, -⟩ := exists_goes_of_modify (Waiter.complete_goes job) h
    exact .inr ⟨y, hy, goes, by simp⟩
  | trigger | reset => exact .inr ⟨x, h, ⟨id, .inl⟩, by simp⟩
  | notify place =>
    rw [act] at h
    cases hd : w.due[place]? with
    | none =>
      rw [hd] at h
      refine .inr ⟨x, h, ⟨id, .inl⟩, fun p hp taken => ?_⟩
      rw [Deed.notify.inj hp] at hd
      simp [hd] at taken
    | some t =>
      rw [hd] at h
      obtain ⟨y, hy, goes, woken⟩ := exists_goes_of_modify Waiter.wake_goes h
      refine .inr ⟨y, hy, goes, fun p hp taken => ?_⟩
      rw [← Deed.notify.inj hp, hd] at taken
      rw [woken (Option.some.inj taken)]
      exact y.wake_not_parked

/-- A wait that is sure to be woken: while it is registered it sleeps only without a reason, and
when a trigger took it, the reason is still there, and it sleeps only until it is notified. Or there
is an excuse why that trigger may not wake it. -/
structure Minds (excuse : Prop) (w : Watch) (ticket : Nat) (x : Waiter) : Prop where
  registered : ticket ∈ w.interrupt.waiters → x.stage = .parked → w.interrupt.reason = none
  taken : ticket ∉ w.interrupt.waiters →
    excuse ∨ w.interrupt.reason ≠ none ∧ (x.stage = .parked → ticket ∈ w.due)

theorem Minds.mono {excuse excuse' : Prop} (h : Minds excuse w ticket x) (he : excuse → excuse') :
    Minds excuse' w ticket x :=
  ⟨h.registered, fun gone => (h.taken gone).imp_left he⟩

/-- It stays so while it goes on by itself. -/
theorem Minds.goes {excuse : Prop} {y : Waiter} (h : Minds excuse w ticket y)
    (goes : y.Goes w.interrupt.reason x) : Minds excuse w ticket x where
  registered there parked := (goes.parked parked).elim (h.registered there) id
  taken gone := by
    rcases h.taken gone with excused | ⟨set, due⟩
    · exact .inl excused
    · exact .inr ⟨set, fun parked => (goes.parked parked).elim due fun unset => absurd unset set⟩

/-- Only a reset can make a wait sleep that nobody is going to wake. -/
theorem Minds.act {excuse : Prop} (hd : d ≠ .reset) (hx : (w.act d).waits[ticket]? = some x)
    (live : ¬ x.Ended)
    (h : ∀ y, w.waits[ticket]? = some y → ¬ y.Ended → Minds excuse w ticket y) :
    Minds excuse (w.act d) ticket x := by
  rcases waits_act hx with ⟨rfl, rfl, rfl⟩ | ⟨y, hy, goes, woken⟩
  · refine ⟨fun _ => nofun, fun gone => absurd ?_ gone⟩
    simp [Watch.act, Interrupt.register]
  · obtain ⟨registered, taken⟩ := (h y hy fun ended => live (goes.ended ended)).goes goes
    cases d with
    | reset => exact absurd rfl hd
    | look | expire | complete => exact ⟨registered, taken⟩
    | register =>
      have there := (List.getElem?_eq_some_iff.mp hy).1
      have old : ticket ≠ w.waits.length := by omega
      have same : ticket ∈ (w.act .register).interrupt.waiters ↔ ticket ∈ w.interrupt.waiters := by
        simp [Watch.act, Interrupt.register, old]
      rw [← same] at registered taken
      exact ⟨registered, taken⟩
    | trigger reason =>
      have set : (w.act (.trigger reason)).interrupt.reason ≠ none := by
        simp [Watch.act, Interrupt.trigger]
      refine ⟨fun there => by simp [Watch.act, Interrupt.trigger] at there, fun _ => ?_⟩
      by_cases there : ticket ∈ w.interrupt.waiters
      · exact .inr ⟨set, fun _ => List.mem_append_right _ there⟩
      · exact (taken there).imp_right fun ⟨_, due⟩ =>
          ⟨set, fun parked => List.mem_append_left _ (due parked)⟩
    | notify place =>
      rw [Watch.act]
      cases hp : w.due[place]? with
      | none => exact ⟨registered, taken⟩
      | some t =>
        refine ⟨registered, fun gone => (taken gone).imp_right fun ⟨set, due⟩ => ⟨set, ?_⟩⟩
        intro parked
        rw [List.mem_eraseIdx_iff_getElem?]
        obtain ⟨i, hi⟩ := List.getElem?_of_mem (due parked)
        refine ⟨i, ?_, hi⟩
        rintro rfl
        exact woken i rfl hi parked

theorem play_append (before after : List Deed) (w : Watch) :
    w.play (before ++ after) = (w.play before).play after := List.foldl_append

/-- A reset came when a trigger had taken the registration of a wait that had not ended. -/
def Overtaken (deeds : List Deed) (ticket : Nat) : Prop :=
  ∃ before after, deeds = before ++ .reset :: after ∧ (play {} before).Owes ticket

theorem Overtaken.append {deeds : List Deed} (h : Overtaken deeds ticket) (later : List Deed) :
    Overtaken (deeds ++ later) ticket := by
  obtain ⟨before, after, rfl, owes⟩ := h
  exact ⟨before, after ++ later, by simp, owes⟩

theorem minds_play (deeds : List Deed) (ticket : Nat) :
    ∀ x, (play {} deeds).waits[ticket]? = some x → ¬ x.Ended →
      Minds (Overtaken deeds ticket) (play {} deeds) ticket x := by
  induction deeds using List.reverseRecOn with
  | nil =>
    intro x hx
    simp [play] at hx
  | append_singleton deeds d ih =>
    intro x hx live
    rw [play_append] at hx ⊢
    by_cases hd : d = .reset
    · subst hd
      exact ⟨fun _ _ => rfl, fun gone => .inl ⟨deeds, [], rfl, gone, x, hx, live⟩⟩
    · exact (Minds.act hd hx live ih).mono fun overtaken => overtaken.append [d]

theorem asleep_of_modify {waits : List Waiter} {t : Nat} {f : Waiter → Waiter}
    (hx : waits[ticket]? = some .asleep) (hf : t = ticket → f .asleep = .asleep) :
    (waits.modify t f)[ticket]? = some .asleep := by
  rw [List.getElem?_modify, hx]
  by_cases same : t = ticket
  · simp [same, hf same]
  · simp [same]

/-- A wait that sleeps while nobody is going to notify it goes on so, whoever triggers and
resets. -/
theorem asleep_act (hx : w.waits[ticket]? = some .asleep) (gone : ticket ∉ w.interrupt.waiters)
    (undue : ticket ∉ w.due) (hd : ¬ d.Rouses ticket) :
    (w.act d).waits[ticket]? = some .asleep ∧ ticket ∉ (w.act d).interrupt.waiters ∧
      ticket ∉ (w.act d).due := by
  cases d with
  | register =>
    have there := (List.getElem?_eq_some_iff.mp hx).1
    have old : ticket ≠ w.waits.length := by omega
    refine ⟨?_, ?_, undue⟩
    · rw [act, List.getElem?_append_left there, hx]
    · simp [act, Interrupt.register, gone, old]
  | look t => exact ⟨asleep_of_modify hx fun _ => rfl, gone, undue⟩
  | expire t =>
    exact ⟨asleep_of_modify hx fun same => absurd (.inl (same ▸ rfl)) hd, gone, undue⟩
  | complete t job =>
    exact ⟨asleep_of_modify hx fun same => absurd (.inr ⟨job, same ▸ rfl⟩) hd, gone, undue⟩
  | trigger reason =>
    refine ⟨hx, by simp [act, Interrupt.trigger], ?_⟩
    simp [act, Interrupt.trigger, gone, undue]
  | notify place =>
    rw [act]
    cases hp : w.due[place]? with
    | none => exact ⟨hx, gone, undue⟩
    | some t =>
      have other : t ≠ ticket := by
        rintro rfl
        exact undue (List.mem_of_getElem? hp)
      refine ⟨asleep_of_modify hx fun same => absurd same other, gone, fun due => ?_⟩
      exact undue (List.mem_of_mem_eraseIdx due)
  | reset => exact ⟨hx, gone, undue⟩

theorem asleep_play (deeds : List Deed) (hx : w.waits[ticket]? = some .asleep)
    (gone : ticket ∉ w.interrupt.waiters) (undue : ticket ∉ w.due)
    (hd : ∀ d ∈ deeds, ¬ d.Rouses ticket) : (w.play deeds).waits[ticket]? = some .asleep := by
  induction deeds generalizing w with
  | nil => exact hx
  | cons d deeds ih =>
    obtain ⟨first, rest⟩ := List.forall_mem_cons.mp hd
    obtain ⟨hx, gone, undue⟩ := asleep_act hx gone undue first
    exact ih hx gone undue rest

/-- Nothing but a reset takes the reason away. -/
theorem triggered_act (hd : d ≠ .reset) (set : w.interrupt.reason ≠ none) :
    (w.act d).interrupt.reason ≠ none := by
  cases d with
  | reset => exact absurd rfl hd
  | register | look | expire | complete => exact set
  | trigger reason => simp [act, Interrupt.trigger]
  | notify place =>
    rw [act]
    split <;> exact set

/-- A trigger wakes the waits that are registered when it comes, if no reset follows too soon. -/
theorem minds_of_trigger (reason : CancelReason) (there : ticket ∈ w.interrupt.waiters)
    (deeds : List Deed) (hd : .reset ∉ deeds) :
    let v := (w.act (.trigger reason)).play deeds
    v.interrupt.reason ≠ none ∧
      ∀ x, v.waits[ticket]? = some x → ¬ x.Ended → Minds False v ticket x := by
  induction deeds using List.reverseRecOn with
  | nil =>
    have set : (w.act (.trigger reason)).interrupt.reason ≠ none := by
      simp [Watch.act, Interrupt.trigger]
    refine ⟨set, fun x hx live => ⟨fun still => ?_, fun _ => .inr ⟨set, fun _ => ?_⟩⟩⟩
    · simp [play, Watch.act, Interrupt.trigger] at still
    · exact List.mem_append_right _ there
  | append_singleton deeds d ih =>
    obtain ⟨set, minds⟩ := ih fun earlier => hd (List.mem_append_left _ earlier)
    have other : d ≠ .reset := by
      rintro rfl
      exact hd (List.mem_append_right _ (List.mem_singleton_self _))
    rw [play_append]
    exact ⟨triggered_act other set, fun x hx live => Minds.act other hx live minds⟩

/-- With a reason set and no trigger under way, a wait that is sure to be woken is awake. -/
theorem Minds.awake {excuse : Prop} (h : Minds excuse w ticket x) (unexcused : ¬ excuse)
    (set : w.interrupt.reason ≠ none) (undue : w.due = []) : x.stage ≠ .parked := by
  intro parked
  by_cases there : ticket ∈ w.interrupt.waiters
  · exact set (h.registered there parked)
  · rcases h.taken there with excused | ⟨-, due⟩
    · exact unexcused excused
    · simpa [undue] using due parked

/-- A wait stays on the list for ever. -/
theorem length_act (w : Watch) (d : Deed) : w.waits.length ≤ (w.act d).waits.length := by
  cases d with
  | notify place =>
    rw [act]
    split <;> simp
  | _ => simp [act]

theorem length_play (w : Watch) (deeds : List Deed) :
    w.waits.length ≤ (w.play deeds).waits.length := by
  induction deeds generalizing w with
  | nil => exact Nat.le_refl _
  | cons d deeds ih => exact Nat.le_trans (w.length_act d) (ih (w.act d))

theorem overtaken_of_loses {deeds : List Deed} (h : (play {} deeds).Loses ticket) :
    Overtaken deeds ticket := by
  obtain ⟨undue, triggered, hx⟩ := h
  have set : (play {} deeds).interrupt.reason ≠ none := Option.isSome_iff_ne_none.mp triggered
  by_contra never
  exact (minds_play deeds ticket .asleep hx nofun).awake never set undue rfl

/-- A host that resets only when every wait has ended that a trigger took never loses a wake-up. -/
theorem not_loses_of_patient_resets {deeds : List Deed} (patient : ∀ before after,
    deeds = before ++ .reset :: after → ∀ ticket, ¬ (play {} before).Owes ticket) (ticket : Nat) :
    ¬ (play {} deeds).Loses ticket := by
  intro lost
  obtain ⟨before, after, split, owes⟩ := overtaken_of_loses lost
  exact patient before after split ticket owes

/-- The loss is for good. -/
theorem asleep_of_loses {deeds later : List Deed} (h : (play {} deeds).Loses ticket)
    (hd : ∀ d ∈ later, ¬ d.Rouses ticket) :
    ((play {} deeds).play later).waits[ticket]? = some .asleep := by
  obtain ⟨undue, triggered, hx⟩ := h
  have set : (play {} deeds).interrupt.reason ≠ none := Option.isSome_iff_ne_none.mp triggered
  have gone : ticket ∉ (play {} deeds).interrupt.waiters := fun there =>
    set ((minds_play deeds ticket .asleep hx nofun).registered there rfl)
  exact asleep_play later hx gone (by simp [undue]) hd

theorem woken_of_trigger {reason : CancelReason} {later : List Deed}
    (hx : w.waits[ticket]? = some x) (there : ticket ∈ w.interrupt.waiters) (hd : .reset ∉ later)
    (undue : ((w.act (.trigger reason)).play later).due = []) :
    let v := (w.act (.trigger reason)).play later
    ∃ y, v.waits[ticket]? = some y ∧ y.stage ≠ .parked ∧ (y.look v.interrupt.reason).Ended := by
  intro v
  have room : ticket < v.waits.length := by
    have old := (List.getElem?_eq_some_iff.mp hx).1
    have grown := (w.act (.trigger reason)).length_play later
    exact Nat.lt_of_lt_of_le old (Nat.le_trans (w.length_act _) grown)
  obtain ⟨set, minds⟩ := minds_of_trigger reason there later hd
  have hv := List.getElem?_eq_getElem room
  generalize v.waits[ticket] = y at hv
  have awake : y.stage ≠ .parked := by
    by_cases ended : y.Ended
    · obtain ⟨a, ha⟩ := ended
      simp [ha]
    · exact (minds y hv ended).awake id set undue
  exact ⟨y, hv, awake, Waiter.look_ended set awake⟩

/-- A wait that sleeps, with no trigger under way and the reason set, was overtaken by a reset; and
then no trigger, reset or look of others will ever wake it. A trigger that finds a wait registered
does wake it: when it has notified all, and no reset has come, the wait has ended or ends as soon as
it looks. -/
theorem early_resets_alone_lose_wake_ups (deeds : List Deed) (ticket : Nat) :
    let w := play {} deeds
    (w.Loses ticket → Overtaken deeds ticket ∧
      ∀ later, (∀ d ∈ later, ¬ d.Rouses ticket) → (w.play later).waits[ticket]? = some .asleep) ∧
    (w.waits[ticket]? = some .asleep → ticket ∈ w.interrupt.waiters →
      ∀ reason later, .reset ∉ later →
        let v := (w.act (.trigger reason)).play later
        v.due = [] → ∃ x, v.waits[ticket]? = some x ∧ x.stage ≠ .parked ∧
          (x.look v.interrupt.reason).Ended) := by
  intro w
  constructor
  · intro lost
    exact ⟨overtaken_of_loses lost, fun later hd => asleep_of_loses lost hd⟩
  · intro hx there reason later hd v undue
    exact woken_of_trigger hx there hd undue

/-- What a host does in turn, each trigger to its end: it triggers, resets before the wait that it
woke has looked, and triggers again. -/
def hastyReset : List Deed :=
  [.register, .look 0, .trigger ⟨.user, none⟩, .notify 0, .reset, .look 0,
    .trigger ⟨.shutdown, none⟩]

/-- The second trigger comes when the wait is parked, and does not wake it. -/
theorem hasty_reset_loses_wake_up :
    (play {} (hastyReset.take 2)).waits = [.asleep] ∧ (play {} (hastyReset.take 4)).due = [] ∧
      (play {} (hastyReset.take 6)).waits = [.asleep] ∧
      ¬ ∀ deeds ticket, ¬ (play {} deeds).Loses ticket := by
  refine ⟨rfl, rfl, rfl, fun never => never hastyReset 0 ?_⟩
  decide

/-- It sleeps through a third trigger too, after one more reset. -/
theorem third_trigger_wakes_nobody :
    (play {} hastyReset).Loses 0 ∧ Overtaken hastyReset 0 ∧
      ((play {} hastyReset).play [.reset, .trigger ⟨.user, none⟩]).waits[0]? = some .asleep := by
  have lost : (play {} hastyReset).Loses 0 := by decide
  obtain ⟨overtaken, sleeps⟩ := (early_resets_alone_lose_wake_ups hastyReset 0).1 lost
  refine ⟨lost, overtaken, sleeps _ fun d hd => ?_⟩
  rintro (rfl | ⟨job, rfl⟩) <;> simp at hd

end Watch
end PacketAuth
