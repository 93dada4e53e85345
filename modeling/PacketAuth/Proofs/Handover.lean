import PacketAuth.Completion
import PacketAuth.Interrupt
import Mathlib.Data.List.Perm.Basic

/-! The way of a finished job through its slot. Completions and waits meet there in any order and
any number, with interrupts that come and go; every job that was completed is in one place, and at
most one of them ever reaches a wait. -/
namespace PacketAuth

/-- A wait on a slot: the interrupt it watches, when its time is over, and how it ended. -/
structure Wait where
  interrupt : Option Nat := none
  deadline : Option Nat := none
  arrival : Option Arrival := none

/-- The job that a wait ended with. -/
def Arrival.job? : Arrival → Option Job
  | completed job => some job
  | interrupted _ => none

def Wait.job? (w : Wait) : Option Job := w.arrival.bind Arrival.job?

/-- The job in a slot. -/
def Slot.held : Slot → List Job
  | completed job => [job]
  | _ => []

/-- A slot and all that was ever done with it: each job completed, with what became of it, and each
wait. -/
structure Signal where
  slot : Slot := .pending
  completions : List (Job × Delivery) := []
  waits : List Wait := []
  interrupts : Nat → Interrupt := fun _ => {}
  now : Nat := 0

theorem Slot.complete_of_ne_pending {slot : Slot} (h : slot ≠ .pending) (job : Job) :
    slot.complete job = (.refused job, slot) := by
  cases slot with
  | pending => exact absurd rfl h
  | completed | taken | abandoned => rfl

/-- A look leaves all as it is, or it ends the wait, with the job that the slot held if it held one,
and closes the slot. -/
theorem Slot.look_cases (slot : Slot) (reason : Option CancelReason) (expired : Bool) :
    slot.look reason expired = (none, slot) ∨
      ∃ a closed, slot.look reason expired = (some a, closed) ∧ a.job?.toList = slot.held ∧
        closed.held = [] ∧ closed ≠ .pending := by
  cases slot with
  | completed job => exact .inr ⟨_, _, rfl, rfl, rfl, nofun⟩
  | pending | taken | abandoned =>
    cases reason with
    | some why => exact .inr ⟨_, _, rfl, rfl, rfl, nofun⟩
    | none =>
      cases expired with
      | false => exact .inl rfl
      | true => exact .inr ⟨_, _, rfl, rfl, rfl, nofun⟩

namespace Signal

/-- What can be done with a slot, and with what its waits depend on. A wait looks any number of
times, at times of its own, until it ends. -/
inductive Deed where
  | complete (job : Job)
  | notify
  | wait (interrupt timeout : Option Nat)
  | look (ticket : Nat)
  | trigger (interrupt : Nat) (reason : CancelReason)
  | reset (interrupt : Nat)
  | pass (duration : Nat)

def complete (job : Job) (s : Signal) : Signal :=
  { s with
    slot := (s.slot.complete job).2
    completions := s.completions ++ [(job, (s.slot.complete job).1)] }

def setInterrupt (i : Nat) (interrupt : Interrupt) (s : Signal) : Signal :=
  { s with interrupts := fun j => if j = i then interrupt else s.interrupts j }

/-- Begins a wait. It has not looked yet. -/
def wait (interrupt timeout : Option Nat) (s : Signal) : Signal :=
  let begun := { s with waits := s.waits ++ [⟨interrupt, timeout.map (s.now + ·), none⟩] }
  match interrupt with
  | none => begun
  | some i => begun.setInterrupt i ((s.interrupts i).register s.waits.length)

/-- A wait that has not ended looks at the slot, at its interrupt and at the time. -/
def look (ticket : Nat) (s : Signal) : Signal :=
  match s.waits[ticket]? with
  | none => s
  | some w =>
    match w.arrival with
    | some _ => s
    | none =>
      let seen := s.slot.look (w.interrupt.bind fun i => (s.interrupts i).reason)
        (w.deadline.any (· ≤ s.now))
      { s with slot := seen.2, waits := s.waits.set ticket { w with arrival := seen.1 } }

def act (s : Signal) : Deed → Signal
  | .complete job => s.complete job
  | .notify => (List.range s.waits.length).foldl (fun s ticket => s.look ticket) s
  | .wait interrupt timeout => s.wait interrupt timeout
  | .look ticket => s.look ticket
  | .trigger i reason => s.setInterrupt i ((s.interrupts i).trigger reason).2
  | .reset i => s.setInterrupt i (s.interrupts i).reset
  | .pass duration => { s with now := s.now + duration }

/-- The jobs that the slot took, in the order of their completion. -/
def delivered (s : Signal) : List Job :=
  s.completions.filterMap fun c => if c.2 = .delivered then some c.1 else none

/-- The jobs that came straight back. -/
def returned (s : Signal) : List Job :=
  s.completions.filterMap fun c =>
    match c.2 with
    | .delivered => none
    | .refused job => some job

/-- The jobs that waits ended with. -/
def received (s : Signal) : List Job := s.waits.filterMap Wait.job?

/-- How a wait ended, if it did. -/
def arrival? (ticket : Nat) (s : Signal) : Option Arrival := s.waits[ticket]?.bind Wait.arrival

/-- No wait has ended. -/
def Awaited (s : Signal) : Prop := ∀ w ∈ s.waits, w.arrival = none

/-- What the slot took is still there or was received, and it took one job at most. It is open for
one as long as it took none and no wait has ended. -/
structure Orderly (s : Signal) : Prop where
  once : s.delivered.length ≤ 1
  whereabouts : s.delivered.Perm (s.slot.held ++ s.received)
  pending : s.slot = .pending ↔ s.delivered = [] ∧ s.Awaited
  completed : ∀ job, s.slot = .completed job → s.Awaited
  honest : ∀ c ∈ s.completions, c.2 = .delivered ∨ c.2 = .refused c.1

section Step
variable {s s' : Signal}

theorem arrival?_eq_some {ticket : Nat} {a : Arrival} :
    s.arrival? ticket = some a ↔ ∃ w, s.waits[ticket]? = some w ∧ w.arrival = some a := by
  simp [arrival?, Option.bind_eq_some_iff]

theorem mem_received {job : Job} :
    job ∈ s.received ↔ ∃ ticket, s.arrival? ticket = some (.completed job) := by
  rw [received, List.mem_filterMap]
  constructor
  · rintro ⟨w, hmem, hj⟩
    obtain ⟨ticket, hw⟩ := List.getElem?_of_mem hmem
    obtain ⟨a, ha, hjob⟩ := Option.bind_eq_some_iff.mp hj
    refine ⟨ticket, arrival?_eq_some.mpr ⟨w, hw, ?_⟩⟩
    cases a with
    | completed found => rw [ha, Option.some.inj hjob]
    | interrupted => cases hjob
  · rintro ⟨ticket, ha⟩
    obtain ⟨w, hw, ha⟩ := arrival?_eq_some.mp ha
    exact ⟨w, List.mem_of_getElem? hw, by rw [Wait.job?, ha]; rfl⟩

theorem received_of_awaited (h : s.Awaited) : s.received = [] := by
  refine List.filterMap_eq_nil_iff.mpr fun w hw => ?_
  rw [Wait.job?, h w hw]
  rfl

/-- What a look does to a wait that has not ended. -/
theorem look_of_unended {ticket : Nat} {w : Wait} (hw : s.waits[ticket]? = some w)
    (ha : w.arrival = none) :
    ∃ reason expired, s.look ticket =
      { s with
        slot := (s.slot.look reason expired).2
        waits := s.waits.set ticket { w with arrival := (s.slot.look reason expired).1 } } := by
  unfold look
  rw [hw]
  dsimp only
  rw [ha]
  exact ⟨_, _, rfl⟩

/-- A wait that has ended, or was never begun, does not look. -/
theorem look_of_ended {ticket : Nat}
    (h : ∀ w, s.waits[ticket]? = some w → w.arrival ≠ none) : s.look ticket = s := by
  unfold look
  split
  · rfl
  · rename_i w hw
    split
    · rfl
    · rename_i ha
      exact absurd ha (h w hw)

/-- The jobs received after one wait took another turn. -/
theorem received_set {waits : List Wait} {ticket : Nat} {w : Wait} (hw : waits[ticket]? = some w)
    (hn : w.job? = none) (w' : Wait) :
    ((waits.set ticket w').filterMap Wait.job?).Perm
      (w'.job?.toList ++ waits.filterMap Wait.job?) := by
  obtain ⟨hlt, hget⟩ := List.getElem?_eq_some_iff.mp hw
  have split : waits = waits.take ticket ++ w :: waits.drop (ticket + 1) := by
    rw [← hget, List.getElem_cons_drop, List.take_append_drop]
  rw [List.set_eq_take_append_cons_drop, if_pos hlt]
  conv_rhs => rw [split]
  rw [List.filterMap_append, List.filterMap_append, List.filterMap_cons, List.filterMap_cons, hn]
  cases w'.job? with
  | none => exact .refl _
  | some job => exact List.perm_middle

theorem delivered_complete (job : Job) (s : Signal) :
    (s.complete job).delivered =
      s.delivered ++ if s.slot = .pending then [job] else [] := by
  unfold delivered complete
  rw [List.filterMap_append]
  by_cases h : s.slot = .pending
  · simp [h]
  · simp [h, Slot.complete_of_ne_pending h]

theorem wait_frame (interrupt timeout : Option Nat) (s : Signal) :
    (s.wait interrupt timeout).slot = s.slot ∧
      (s.wait interrupt timeout).completions = s.completions ∧
      (s.wait interrupt timeout).waits =
        s.waits ++ [⟨interrupt, timeout.map (s.now + ·), none⟩] := by
  unfold wait
  cases interrupt <;> exact ⟨rfl, rfl, rfl⟩

namespace Orderly

theorem fresh : Orderly {} where
  once := by simp [delivered]
  whereabouts := by simp [delivered, received, Slot.held]
  pending := by simp [delivered, Awaited]
  completed := by simp
  honest := by simp

/-- Nothing happened to the slot, and no wait ended. -/
theorem congr (h : s.Orderly) (slot : s'.slot = s.slot)
    (completions : s'.completions = s.completions) (received : s'.received = s.received)
    (awaited : s'.Awaited ↔ s.Awaited) : s'.Orderly := by
  have delivered : s'.delivered = s.delivered := by
    rw [Signal.delivered, completions, Signal.delivered]
  refine ⟨?_, ?_, ?_, ?_, ?_⟩
  · rw [delivered]
    exact h.once
  · rw [delivered, slot, received]
    exact h.whereabouts
  · rw [slot, delivered, awaited]
    exact h.pending
  · rw [slot]
    exact fun job held => awaited.mpr (h.completed job held)
  · rw [completions]
    exact h.honest

theorem complete (h : s.Orderly) (job : Job) : (s.complete job).Orderly := by
  have delivered := delivered_complete job s
  have honest : ∀ c ∈ (s.complete job).completions, c.2 = .delivered ∨ c.2 = .refused c.1 := by
    intro c hc
    rcases List.mem_append.mp hc with hc | hc
    · exact h.honest c hc
    · rw [List.mem_singleton.mp hc]
      cases s.slot with
      | pending => exact .inl rfl
      | completed | taken | abandoned => exact .inr rfl
  by_cases hp : s.slot = .pending
  · obtain ⟨none, awaited⟩ := h.pending.mp hp
    have slot : (s.complete job).slot = .completed job := by
      simp only [Signal.complete, hp, Slot.complete_pending]
    rw [none, if_pos hp, List.nil_append] at delivered
    refine ⟨?_, ?_, ?_, fun _ _ => awaited, honest⟩
    · rw [delivered]
      exact Nat.le_refl 1
    · rw [delivered, slot, received_of_awaited (s := s.complete job) awaited]
      exact .refl _
    · rw [slot, delivered]
      exact ⟨nofun, fun hnil => absurd hnil.1 (List.cons_ne_nil _ _)⟩
  · have slot : (s.complete job).slot = s.slot := by
      simp only [Signal.complete, Slot.complete_of_ne_pending hp]
    rw [if_neg hp, List.append_nil] at delivered
    refine ⟨?_, ?_, ?_, ?_, honest⟩
    · rw [delivered]
      exact h.once
    · rw [delivered, slot]
      exact h.whereabouts
    · rw [delivered, slot]
      exact h.pending
    · rw [slot]
      exact h.completed

theorem look (h : s.Orderly) (ticket : Nat) : (s.look ticket).Orderly := by
  by_cases active : ∃ w, s.waits[ticket]? = some w ∧ w.arrival = none
  · obtain ⟨w, hw, ha⟩ := active
    obtain ⟨reason, expired, looked⟩ := look_of_unended hw ha
    have empty : w.job? = none := by
      rw [Wait.job?, ha]
      rfl
    obtain ⟨hlt, hget⟩ := List.getElem?_eq_some_iff.mp hw
    rcases s.slot.look_cases reason expired with seen | ⟨a, closed, seen, job, emptied, shut⟩
    · have unchanged : s.look ticket = s := by
        rw [looked, seen, ← ha, ← hget, List.set_getElem_self]
      rw [unchanged]
      exact h
    · rw [seen] at looked
      have received := received_set hw empty { w with arrival := some a }
      have ended : ¬ (s.look ticket).Awaited := by
        intro awaited
        have mem : { w with arrival := some a } ∈ (s.look ticket).waits := by
          rw [looked]
          exact List.mem_of_getElem? (List.getElem?_set_self hlt)
        cases awaited _ mem
      rw [looked] at ended ⊢
      refine ⟨h.once, ?_, ⟨fun hp => absurd hp shut, fun still => absurd still.2 ended⟩, ?_,
        h.honest⟩
      · have same : ({ w with arrival := some a } : Wait).job?.toList = s.slot.held := job
        rw [same] at received
        rw [emptied]
        exact h.whereabouts.trans received.symm
      · rintro held rfl
        cases emptied
  · rw [look_of_ended fun w hw ha => active ⟨w, hw, ha⟩]
    exact h

theorem wait (h : s.Orderly) (interrupt timeout : Option Nat) :
    (s.wait interrupt timeout).Orderly := by
  obtain ⟨slot, completions, waits⟩ := wait_frame interrupt timeout s
  refine h.congr slot completions ?_ ?_
  · rw [received, waits, List.filterMap_append]
    exact List.append_nil _
  · rw [Awaited, waits, List.forall_mem_append]
    exact and_iff_left fun w hw => by rw [List.mem_singleton.mp hw]

theorem act (h : s.Orderly) (deed : Deed) : (s.act deed).Orderly := by
  have looks (tickets : List Nat) : (tickets.foldl (fun s ticket => s.look ticket) s).Orderly := by
    induction tickets generalizing s with
    | nil => exact h
    | cons ticket tickets ih => exact ih (h.look ticket)
  cases deed with
  | complete job => exact h.complete job
  | notify => exact looks _
  | wait interrupt timeout => exact h.wait interrupt timeout
  | look ticket => exact h.look ticket
  | trigger | reset | pass => exact h.congr rfl rfl rfl Iff.rfl

theorem acts (h : s.Orderly) (deeds : List Deed) : (deeds.foldl Signal.act s).Orderly := by
  induction deeds generalizing s with
  | nil => exact h
  | cons deed deeds ih => exact ih (h.act deed)

end Orderly

/-- A wait that has ended stays as it ended. -/
theorem arrival?_look {ticket : Nat} {a : Arrival} (h : s.arrival? ticket = some a) (other : Nat) :
    (s.look other).arrival? ticket = some a := by
  obtain ⟨w, hw, ha⟩ := arrival?_eq_some.mp h
  by_cases active : ∃ v, s.waits[other]? = some v ∧ v.arrival = none
  · obtain ⟨v, hv, hnone⟩ := active
    have apart : other ≠ ticket := by
      rintro rfl
      rw [Option.some.inj (hv.symm.trans hw), ha] at hnone
      cases hnone
    obtain ⟨reason, expired, looked⟩ := look_of_unended hv hnone
    rw [looked]
    exact arrival?_eq_some.mpr ⟨w, (List.getElem?_set_ne apart).trans hw, ha⟩
  · rw [look_of_ended fun v hv hnone => active ⟨v, hv, hnone⟩]
    exact h

theorem arrival?_act {ticket : Nat} {a : Arrival} (h : s.arrival? ticket = some a) (deed : Deed) :
    (s.act deed).arrival? ticket = some a := by
  have looks (tickets : List Nat) :
      (tickets.foldl (fun s ticket => s.look ticket) s).arrival? ticket = some a := by
    induction tickets generalizing s with
    | nil => exact h
    | cons other tickets ih => exact ih (arrival?_look h other)
  cases deed with
  | complete | trigger | reset | pass => exact h
  | notify => exact looks _
  | look other => exact arrival?_look h other
  | wait interrupt timeout =>
    obtain ⟨w, hw, ha⟩ := arrival?_eq_some.mp h
    refine arrival?_eq_some.mpr ⟨w, ?_, ha⟩
    rw [Signal.act, (wait_frame interrupt timeout s).2.2,
      List.getElem?_append_left (List.getElem?_eq_some_iff.mp hw).1]
    exact hw

theorem arrival?_acts {ticket : Nat} {a : Arrival} (h : s.arrival? ticket = some a)
    (deeds : List Deed) : (deeds.foldl act s).arrival? ticket = some a := by
  induction deeds generalizing s with
  | nil => exact h
  | cons deed deeds ih => exact ih (arrival?_act h deed)

namespace Orderly

/-- Once a wait has ended, the slot takes no job any more. -/
theorem closed (h : s.Orderly) {ticket : Nat} {a : Arrival} (ha : s.arrival? ticket = some a)
    (job : Job) : s.slot.complete job = (.refused job, s.slot) := by
  refine Slot.complete_of_ne_pending (fun hp => ?_) job
  obtain ⟨w, hw, ha⟩ := arrival?_eq_some.mp ha
  rw [(h.pending.mp hp).2 w (List.mem_of_getElem? hw)] at ha
  cases ha

/-- A look at a slot with a job takes it, whatever the interrupt and the time say. -/
theorem taken (h : s.Orderly) {job : Job} (hp : s.slot = .completed job) {ticket : Nat}
    (hlt : ticket < s.waits.length) : (s.look ticket).arrival? ticket = some (.completed job) := by
  have hw := List.getElem?_eq_getElem hlt
  obtain ⟨reason, expired, looked⟩ := look_of_unended hw
    (h.completed job hp _ (List.getElem_mem hlt))
  rw [looked, hp]
  exact arrival?_eq_some.mpr ⟨_, List.getElem?_set_self hlt, rfl⟩

/-- The jobs that were completed, by where they are now. -/
theorem perm (h : s.Orderly) :
    (s.completions.map Prod.fst).Perm (s.slot.held ++ s.received ++ s.returned) := by
  refine List.Perm.trans ?_ (h.whereabouts.append_right _)
  have honest := h.honest
  unfold delivered returned
  generalize s.completions = completions at honest
  induction completions with
  | nil => exact .refl _
  | cons c completions ih =>
    obtain ⟨first, rest⟩ := List.forall_mem_cons.mp honest
    rw [List.map_cons, List.filterMap_cons, List.filterMap_cons]
    rcases first with delivered | refused
    · rw [delivered]
      exact (ih rest).cons _
    · rw [refused]
      exact ((ih rest).cons _).trans List.perm_middle.symm

end Orderly
end Step

/-- Whatever is done with a new slot, it takes one job at most, and one wait at most ends with a
job, which is the one that the slot took. Every other job comes straight back, so that each is in
the slot, with a wait, or back, and nowhere else. A job in the slot goes to the wait that looks
next, though its interrupt was triggered or its time is over; once any wait has ended, no job is
taken any more, while before that the first one is. -/
theorem completed_job_has_one_place (deeds : List Deed) :
    let s := deeds.foldl act {}
    s.delivered.length ≤ 1 ∧ s.received.length ≤ 1 ∧
      (∀ ticket job, s.arrival? ticket = some (.completed job) →
        (job, .delivered) ∈ s.completions) ∧
      (∀ c ∈ s.completions, c.2 = .delivered ∨ c.2 = .refused c.1) ∧
      (s.completions.map Prod.fst).Perm (s.slot.held ++ s.received ++ s.returned) ∧
      (∀ job, s.slot = .completed job →
        (∀ ticket < s.waits.length, (s.look ticket).arrival? ticket = some (.completed job)) ∧
        ∀ interrupt timeout, ((s.wait interrupt timeout).look s.waits.length).arrival?
          s.waits.length = some (.completed job)) ∧
      (∀ ticket a, s.arrival? ticket = some a → ∀ (later : List Deed) (job : Job),
        ((later.foldl act s).slot.complete job).1 = .refused job) ∧
      (s.completions = [] → s.Awaited → ∀ job, (s.slot.complete job).1 = .delivered) := by
  intro s
  have orderly : s.Orderly := Orderly.fresh.acts deeds
  have whereabouts := orderly.whereabouts.length_eq
  rw [List.length_append] at whereabouts
  refine ⟨orderly.once, ?_, fun ticket job ha => ?_, orderly.honest, orderly.perm,
    fun job hp => ⟨fun ticket hlt => orderly.taken hp hlt, fun interrupt timeout => ?_⟩,
    fun ticket a ha later job => ?_, fun none awaited job => ?_⟩
  · have once := orderly.once
    omega
  · have mem : job ∈ s.delivered := orderly.whereabouts.mem_iff.mpr
      (List.mem_append_right _ (mem_received.mpr ⟨ticket, ha⟩))
    obtain ⟨⟨job', delivery⟩, hc, hj⟩ := List.mem_filterMap.mp mem
    dsimp only at hj
    split at hj
    · rename_i hd
      rw [← Option.some.inj hj, ← hd]
      exact hc
    · cases hj
  · obtain ⟨slot, -, waits⟩ := wait_frame interrupt timeout s
    exact (orderly.wait interrupt timeout).taken (slot.trans hp) (by rw [waits]; simp)
  · rw [(orderly.acts later).closed (arrival?_acts ha later)]
  · have pending := orderly.pending.mpr ⟨by rw [delivered, none]; rfl, awaited⟩
    rw [pending]
    rfl

/-- A wait whose interrupt was triggered and whose time is over gets the first of two jobs; the
second came back, and so does any later one. -/
theorem first_of_two_jobs_is_received :
    let first : Job := { id := ⟨1⟩, outcome := .done }
    let second : Job := { id := ⟨2⟩, outcome := .busy }
    let s := [Deed.wait (some 0) (some 5), .trigger 0 ⟨.user, none⟩, .pass 9, .complete first,
      .complete second].foldl act {}
    s.slot = .completed first ∧ (s.look 0).arrival? 0 = some (.completed first) ∧
      s.returned = [second] ∧ ((s.look 0).slot.complete second).1 = .refused second := by
  intro first second s
  have held : s.slot = .completed first := rfl
  obtain ⟨-, -, -, -, -, next, -⟩ := completed_job_has_one_place
    [Deed.wait (some 0) (some 5), .trigger 0 ⟨.user, none⟩, .pass 9, .complete first,
      .complete second]
  obtain ⟨-, -, -, -, -, -, closed, -⟩ := completed_job_has_one_place
    [Deed.wait (some 0) (some 5), .trigger 0 ⟨.user, none⟩, .pass 9, .complete first,
      .complete second, .look 0]
  have received := (next first held).1 0 Nat.one_pos
  exact ⟨held, received, rfl, closed 0 _ received [] second⟩

end Signal
end PacketAuth
