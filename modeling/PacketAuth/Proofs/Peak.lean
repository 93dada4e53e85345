import PacketAuth.Accounting
import Mathlib.Data.List.Induction
import Mathlib.Order.Bounds.Basic
import Mathlib.Order.MinMax

/-! The counters of an engine against what was recorded in them. The gauge is the difference of two
counters and may go below zero; the peak is raised only when a job is acquired, and yet it is the
highest that the gauge ever was. -/
namespace PacketAuth.Accounting

/-- The counters after some entries, from zero. -/
def tally (entries : List Entry) : Accounting := entries.foldl record {}

/-- The counter of an entry. -/
def counter (a : Accounting) : Entry → Nat
  | .jobAcquired => a.jobsAcquired
  | .jobReleased => a.jobsReleased
  | .acquireFailed => a.acquireFailures
  | .jobDispatched => a.dispatches
  | .jobBusy => a.busyOutcomes
  | .jobCompleted => a.completions
  | .jobFailed => a.failures
  | .jobCancelled => a.cancellations
  | .sessionCreated => a.sessionsCreated
  | .sessionFailed => a.sessionFailures

/-- The gauge was at a level at some time: at first, or after some of the entries. -/
def Reached (entries : List Entry) (level : Int) : Prop :=
  level = 0 ∨ ∃ earlier, earlier <+: entries ∧ level = (tally earlier).jobsOutstanding

variable (a : Accounting) (entries : List Entry) (e : Entry)

@[simp] theorem counter_record (d : Entry) :
    (a.record e).counter d = a.counter d + if e = d then 1 else 0 := by
  cases e <;> cases d <;> rfl

theorem tally_append (later : List Entry) :
    tally (entries ++ later) = later.foldl record (tally entries) := List.foldl_append

theorem tally_concat : tally (entries ++ [e]) = (tally entries).record e :=
  tally_append entries [e]

theorem counter_tally (d : Entry) : (tally entries).counter d = entries.count d := by
  induction entries using List.reverseRecOn with
  | nil => cases d <;> rfl
  | append_singleton entries e ih =>
    rw [tally_concat, counter_record, ih, List.count_append, List.count_singleton]
    simp

variable {a entries}

theorem gauge_record (h : a.jobsOutstanding = a.jobsAcquired - a.jobsReleased) :
    (a.record e).jobsOutstanding = (a.record e).jobsAcquired - (a.record e).jobsReleased := by
  cases e with
  | jobAcquired | jobReleased =>
    dsimp only [record]
    omega
  | _ => exact h

/-- Only an acquisition raises the gauge, so no other entry can raise the peak. -/
theorem peak_record (h : a.jobsOutstanding ≤ a.jobsPeak) :
    (a.record e).jobsPeak = max a.jobsPeak (a.record e).jobsOutstanding := by
  cases e with
  | jobAcquired => rfl
  | jobReleased => exact (max_eq_left (Int.le_trans (Int.sub_le_self _ Int.one_nonneg) h)).symm
  | _ => exact (max_eq_left h).symm

variable (entries)

theorem gauge_tally : (tally entries).jobsOutstanding =
    (tally entries).jobsAcquired - (tally entries).jobsReleased := by
  induction entries using List.reverseRecOn with
  | nil => rfl
  | append_singleton entries e ih =>
    rw [tally_concat]
    exact gauge_record e ih

theorem outstanding_le_peak : (tally entries).jobsOutstanding ≤ (tally entries).jobsPeak := by
  induction entries using List.reverseRecOn with
  | nil => exact Int.le_refl _
  | append_singleton entries e ih =>
    rw [tally_concat, peak_record e ih]
    exact le_max_right _ _

theorem peak_concat : (tally (entries ++ [e])).jobsPeak =
    max (tally entries).jobsPeak (tally (entries ++ [e])).jobsOutstanding := by
  rw [tally_concat]
  exact peak_record e (outstanding_le_peak entries)

theorem reached_concat {level : Int} : Reached (entries ++ [e]) level ↔
    Reached entries level ∨ level = (tally (entries ++ [e])).jobsOutstanding := by
  simp only [Reached, List.prefix_concat_iff]
  constructor
  · rintro (zero | ⟨earlier, rfl | before, reached⟩)
    · exact .inl (.inl zero)
    · exact .inr reached
    · exact .inl (.inr ⟨earlier, before, reached⟩)
  · rintro ((zero | ⟨earlier, before, reached⟩) | now)
    · exact .inl zero
    · exact .inr ⟨earlier, .inr before, reached⟩
    · exact .inr ⟨_, .inl rfl, now⟩

theorem peak_isGreatest : IsGreatest {level | Reached entries level} (tally entries).jobsPeak := by
  induction entries using List.reverseRecOn with
  | nil =>
    refine ⟨.inl rfl, ?_⟩
    rintro level (zero | ⟨earlier, before, reached⟩)
    · exact Int.le_of_eq zero
    · rw [List.prefix_nil.mp before] at reached
      exact Int.le_of_eq reached
  | append_singleton entries e ih =>
    obtain ⟨reached, highest⟩ := ih
    rw [peak_concat]
    constructor
    · refine (reached_concat entries e).mpr ?_
      rcases max_choice (tally entries).jobsPeak (tally (entries ++ [e])).jobsOutstanding with
        old | new
      · rw [old]
        exact .inl reached
      · rw [new]
        exact .inr rfl
    · intro level now
      rcases (reached_concat entries e).mp now with before | rfl
      · exact le_max_of_le_left (highest before)
      · exact le_max_right _ _

theorem peak_append (later : List Entry) :
    (tally entries).jobsPeak ≤ (tally (entries ++ later)).jobsPeak := by
  obtain ⟨reached, -⟩ := peak_isGreatest entries
  refine (peak_isGreatest (entries ++ later)).2 ?_
  rcases reached with zero | ⟨earlier, before, level⟩
  · exact .inl zero
  · exact .inr ⟨earlier, before.trans (List.prefix_append _ _), level⟩

/-- Whatever is recorded, in whatever order, each counter is the number of its entries, the gauge is
what was acquired less what was released, and the peak is the highest that the gauge was at any
time. A snapshot shows these numbers. Nothing but the gauge ever goes down. -/
theorem counters_tell_their_history (entries : List Entry) :
    let a := tally entries
    (∀ e, a.counter e = entries.count e) ∧
    a.jobsOutstanding = a.jobsAcquired - a.jobsReleased ∧
    IsGreatest {level | Reached entries level} a.jobsPeak ∧
    a.snapshot =
      [("jobs_acquired", (entries.count .jobAcquired : Int)),
       ("jobs_released", entries.count .jobReleased),
       ("jobs_outstanding", entries.count .jobAcquired - entries.count .jobReleased),
       ("jobs_peak", a.jobsPeak), ("acquire_failures", entries.count .acquireFailed),
       ("dispatches", entries.count .jobDispatched), ("busy_outcomes", entries.count .jobBusy),
       ("completions", entries.count .jobCompleted), ("failures", entries.count .jobFailed),
       ("cancellations", entries.count .jobCancelled),
       ("sessions_created", entries.count .sessionCreated),
       ("session_failures", entries.count .sessionFailed)] ∧
    a.jobsOutstanding ≤ a.jobsPeak ∧
    ∀ later, (∀ e, a.counter e ≤ (tally (entries ++ later)).counter e) ∧
      a.jobsPeak ≤ (tally (entries ++ later)).jobsPeak := by
  intro a
  have counts := counter_tally entries
  have gauge := gauge_tally entries
  refine ⟨counts, gauge, peak_isGreatest entries, ?_, outstanding_le_peak entries,
    fun later => ⟨fun e => ?_, peak_append entries later⟩⟩
  · simp only [← counts]
    rw [snapshot, gauge]
    rfl
  · rw [counts, counter_tally, List.count_append]
    exact Nat.le_add_right _ _

end PacketAuth.Accounting
