import PacketAuth.Proofs.Software

/-! Deferred jobs. The worker takes the oldest job that is due, and while none is, it sleeps until
the first one will be. So no job starts early, none that is due is overtaken by a later submission,
and none is slept through. -/
namespace PacketAuth

namespace Queue
variable {now : Nat} {queue : List Queued}

/-- A job is taken out of the queue at the first place that is ready. -/
theorem popReady_eq (now : Nat) (queue : List Queued) :
    popReady now queue =
      queue[queue.findIdx (·.isReady now)]?.map fun q =>
        (q.job, queue.eraseIdx (queue.findIdx (·.isReady now))) := by
  induction queue with
  | nil => rfl
  | cons q queue ih =>
    rw [popReady, List.findIdx_cons]
    split
    · rename_i ready
      simp [ready]
    · rename_i deferred
      simp [ih, eq_false_of_ne_true deferred, Function.comp_def]

/-- A job is taken back from the first place that has its id. -/
theorem remove_eq (id : JobId) (queue : List Queued) :
    remove id queue =
      queue[queue.findIdx (·.job.id = id)]?.map fun q =>
        (q.job, queue.eraseIdx (queue.findIdx (·.job.id = id))) := by
  induction queue with
  | nil => rfl
  | cons q queue ih =>
    rw [remove, List.findIdx_cons]
    split
    · rename_i same
      simp [same]
    · rename_i other
      simp [ih, other, Function.comp_def]

/-- If a job is ready, the oldest such job is taken and the others stay in their order. -/
theorem popReady_of_ready (h : ∃ q ∈ queue, q.isReady now = true) :
    ∃ before q after, queue = before ++ q :: after ∧ q.isReady now = true ∧
      (∀ x ∈ before, x.isReady now = false) ∧
      popReady now queue = some (q.job, before ++ after) := by
  cases hpop : popReady now queue with
  | none =>
    obtain ⟨q, hq, ready⟩ := h
    rw [popReady_eq_none hpop q hq] at ready
    cases ready
  | some found =>
    obtain ⟨job, rest⟩ := found
    obtain ⟨before, q, after, hqueue, rfl, rfl, ready, deferred⟩ := popReady_eq_some hpop
    exact ⟨before, q, after, hqueue, ready, deferred, rfl⟩

theorem popReady_of_deferred (h : ∀ q ∈ queue, q.isReady now = false) :
    popReady now queue = none := by
  cases hpop : popReady now queue with
  | none => rfl
  | some found =>
    obtain ⟨job, rest⟩ := found
    obtain ⟨before, q, after, rfl, -, -, ready, -⟩ := popReady_eq_some hpop
    rw [h q (by simp)] at ready
    cases ready

/-- The deadline of a queue is one of its instants, and no other lies before it. -/
theorem nextDeadline_eq_some {d : Nat} :
    nextDeadline queue = some d ↔
      (∃ q ∈ queue, q.notBefore = some d) ∧
        ∀ q ∈ queue, ∀ instant, q.notBefore = some instant → d ≤ instant := by
  rw [nextDeadline, List.min?_eq_some_iff, List.mem_filterMap]
  apply and_congr_right
  intro _
  constructor
  · intro least q hq instant hi
    exact least instant (List.mem_filterMap.mpr ⟨q, hq, hi⟩)
  · intro least instant hi
    obtain ⟨q, hq, hi⟩ := List.mem_filterMap.mp hi
    exact least q hq instant hi

/-- A queue in which no job is ready has a deadline, which lies ahead, and then one is ready. -/
theorem nextDeadline_of_deferred (h : ∀ q ∈ queue, q.isReady now = false) (hne : queue ≠ []) :
    ∃ d, nextDeadline queue = some d ∧ now < d ∧ ∃ q ∈ queue, q.isReady d = true := by
  cases hd : nextDeadline queue with
  | none =>
    rw [nextDeadline, List.min?_eq_none_iff, List.filterMap_eq_nil_iff] at hd
    obtain ⟨q, hq⟩ := List.exists_mem_of_ne_nil queue hne
    have deferred := h q hq
    rw [Queued.isReady, hd q hq] at deferred
    cases deferred
  | some d =>
    obtain ⟨⟨q, hq, instant⟩, -⟩ := nextDeadline_eq_some.mp hd
    have deferred := h q hq
    simp only [Queued.isReady, instant, Option.all_some, decide_eq_false_iff_not] at deferred
    refine ⟨d, rfl, by omega, q, hq, ?_⟩
    simp [Queued.isReady, instant]

end Queue

namespace Software
variable {s : Software} {now : Nat} {step : Step Software Job}

/-- A worker with a job in its queue takes one up, or sleeps until an instant at which it can. -/
theorem handBack_or_wake (hr : s.isShutDown = false) (hp : s.paused = false)
    (hne : s.queue ≠ []) (now : Nat) :
    (s.handBack now).isSome ∨
      s.handBack now = none ∧ ∃ d, s.wake = some d ∧ now < d ∧ (s.handBack d).isSome := by
  cases hstep : s.handBack now with
  | some step => exact .inl rfl
  | none =>
    right
    have deferred := handBack_eq_none hr hp hstep
    obtain ⟨d, deadline, ahead, ready⟩ := Queue.nextDeadline_of_deferred deferred hne
    obtain ⟨before, q, after, -, -, -, taken⟩ := Queue.popReady_of_ready ready
    refine ⟨rfl, d, ?_, ahead, ?_⟩
    · rw [wake, hr, hp]
      exact deadline
    · rw [handBack_of_running hr hp, taken]
      rfl

/-- The worker takes the first job that is ready and gives it nothing but an output and an
outcome. -/
theorem handBack_queue (hr : s.isShutDown = false) (h : s.handBack now = some step) :
    ∃ q, s.queue[s.queue.findIdx (·.isReady now)]? = some q ∧
      step.state.queue = s.queue.eraseIdx (s.queue.findIdx (·.isReady now)) ∧
      step.answer =
        { q.job with output := step.answer.output, outcome := step.answer.outcome } := by
  cases hp : s.paused with
  | true =>
    rw [handBack_of_paused hr hp] at h
    cases h
  | false =>
    rw [handBack_of_running hr hp, Queue.popReady_eq, Option.map_map] at h
    obtain ⟨q, hq, rfl⟩ := Option.map_eq_some_iff.mp h
    obtain ⟨output, outcome, answer, -, faults, state⟩ := work_spec q.job
      { s with queue := s.queue.eraseIdx (s.queue.findIdx (·.isReady now)) }
    refine ⟨q, hq, ?_, ?_⟩ <;> dsimp only [Function.comp_apply]
    · rw [state]
      rfl
    · rw [answer]

theorem cancel_queue (id : JobId) (s : Software) :
    (s.cancel id).state.queue = s.queue.eraseIdx (s.queue.findIdx (·.job.id = id)) := by
  rw [cancel, Queue.remove_eq]
  cases hq : s.queue[s.queue.findIdx (·.job.id = id)]? with
  | none =>
    rw [List.getElem?_eq_none_iff] at hq
    exact (List.eraseIdx_of_length_le hq).symm
  | some q => rfl

end Software

/-- A job that was handed in for the worker, at which instant, and after which delay it may
start. -/
structure Submission where
  job : Job
  instant : Nat
  delay : Nat

namespace Submission

/-- The first instant at which the job may start. -/
def due (s : Submission) : Nat := s.instant + s.delay

def queued (s : Submission) : Queued :=
  ⟨s.job, if s.delay = 0 then none else some (s.instant + s.delay)⟩

theorem isReady_queued (s : Submission) {now : Nat} (h : s.instant ≤ now) :
    s.queued.isReady now = true ↔ s.due ≤ now := by
  unfold queued Queued.isReady due
  by_cases hd : s.delay = 0
  · simpa [hd] using h
  · simp [hd]

end Submission

/-- The number of a job that the worker started, the instant, and the job as it came back. -/
structure Start where
  number : Nat
  instant : Nat
  job : Job

/-- An engine at some instant, and all jobs that were ever submitted to it, numbered in that order.
Beside them stand the numbers of those in the queue, and the starts. -/
structure Rota where
  engine : Software
  now : Nat := 0
  submitted : List Submission := []
  waiting : List Nat := []
  started : List Start := []

namespace Rota

/-- One operation on the engine, or the passing of time. An engine at its end takes no more jobs
into its queue; those that are there go with the worker, and come back without being started. -/
inductive Next (r : Rota) : Rota → Prop
  | changed {step : Step Software Unit} (h : Software.Change r.engine step) :
      Next r
        { r with
          engine := step.state
          waiting := r.waiting.take step.state.queue.length }
  | opened (key : AuthKey) : Next r { r with engine := (r.engine.createSession key).state }
  | acquired : Next r { r with engine := r.engine.acquire.state }
  | released (job : Job) : Next r { r with engine := r.engine.release job }
  | passed (instant : Nat) : Next r { r with now := max r.now instant }
  | submitted (job : Job) (delay : Nat) :
      Next r
        { r with
          engine := (r.engine.submit job delay r.now).state
          submitted := r.submitted ++ [⟨job, r.now, delay⟩]
          waiting := if r.engine.isShutDown then r.waiting
            else r.waiting ++ [r.submitted.length] }
  | cancelled (id : JobId) :
      Next r
        { r with
          engine := (r.engine.cancel id).state
          waiting := r.waiting.eraseIdx (r.engine.queue.findIdx (·.job.id = id)) }
  | started {step : Step Software Job} (hr : r.engine.isShutDown = false)
      (h : r.engine.handBack r.now = some step) :
      Next r
        { r with
          engine := step.state
          waiting := r.waiting.eraseIdx (r.engine.queue.findIdx (·.isReady r.now))
          started := r.started ++
            (r.waiting[r.engine.queue.findIdx (·.isReady r.now)]?.map
              (⟨·, r.now, step.answer⟩)).toList }
  | drained {step : Step Software Job} (hr : r.engine.isShutDown = true)
      (h : r.engine.handBack r.now = some step) :
      Next r { r with engine := step.state }

/-- Any number of operations, by anybody, in any order. -/
abbrev Run : Rota → Rota → Prop := Relation.ReflTransGen Next

/-- The job of a number may start at an instant. -/
def Due (r : Rota) (n instant : Nat) : Prop := ∃ s, r.submitted[n]? = some s ∧ s.due ≤ instant

/-- A job was started when it might, and came back with nothing changed but output and outcome. -/
def Began (r : Rota) (p : Start) : Prop :=
  ∃ s, r.submitted[p.number]? = some s ∧ s.due ≤ p.instant ∧
    p.job = { s.job with output := p.job.output, outcome := p.job.outcome }

/-- The queue has the waiting jobs in the order of their submission. A job that was started was due
by then, and of the jobs that were due at its start none that was submitted before it was left. -/
structure Orderly (r : Rota) : Prop where
  queue : ∀ k : Nat, r.engine.queue[k]? =
    r.waiting[k]?.bind fun n => r.submitted[n]?.map Submission.queued
  known : ∀ n ∈ r.waiting, n < r.submitted.length
  past : ∀ s ∈ r.submitted, s.instant ≤ r.now
  increasing : r.waiting.Pairwise (· < ·)
  begun : ∀ p ∈ r.started, r.Began p
  ahead : ∀ p ∈ r.started, ∀ n ∈ r.waiting, p.number < n ∨ ¬ r.Due n p.instant
  turns : r.started.Pairwise fun p q => p.number < q.number ∨ ¬ r.Due q.number p.instant

variable {r r' : Rota}

theorem Began.known {p : Start} (h : r.Began p) : p.number < r.submitted.length := by
  obtain ⟨s, hs, -⟩ := h
  exact (List.getElem?_eq_some_iff.mp hs).1

/-- Later submissions do not change what an earlier one asked for. -/
theorem due_append {later : List Submission} {n : Nat} (h : n < r.submitted.length)
    (hr : r'.submitted = r.submitted ++ later) (instant : Nat) :
    r'.Due n instant ↔ r.Due n instant := by
  unfold Due
  rw [hr, List.getElem?_append_left h]

theorem Began.append {later : List Submission} {p : Start} (h : r.Began p)
    (hr : r'.submitted = r.submitted ++ later) : r'.Began p := by
  unfold Began
  rw [hr, List.getElem?_append_left h.known]
  exact h

namespace Orderly

theorem fresh {s : Software} (h : s.queue = []) (now : Nat) : Orderly { engine := s, now } := by
  refine ⟨fun k => ?_, ?_, ?_, .nil, ?_, ?_, .nil⟩
  · simp [h]
  all_goals simp

/-- Neither the passing of time nor what leaves the queue alone changes the order. -/
theorem congr (h : Orderly r) {s : Software} (hq : s.queue = r.engine.queue) {now : Nat}
    (hn : r.now ≤ now) : Orderly { r with engine := s, now } where
  queue k := by
    dsimp only
    rw [hq]
    exact h.queue k
  known := h.known
  past s hs := Nat.le_trans (h.past s hs) hn
  increasing := h.increasing
  begun := h.begun
  ahead := h.ahead
  turns := h.turns

/-- The waiting job at some place of the queue, and when it may start. -/
theorem waiting_of_queued (h : Orderly r) {k : Nat} {q : Queued}
    (hq : r.engine.queue[k]? = some q) :
    ∃ n s, r.waiting[k]? = some n ∧ r.submitted[n]? = some s ∧ q = s.queued ∧
      s.instant ≤ r.now := by
  rw [h.queue k, Option.bind_eq_some_iff] at hq
  obtain ⟨n, hn, hq⟩ := hq
  obtain ⟨s, hs, rfl⟩ := Option.map_eq_some_iff.mp hq
  exact ⟨n, s, hn, hs, rfl, h.past s (List.mem_of_getElem? hs)⟩

/-- What is at a place of the queue that is not ready, is not due. -/
theorem not_due (h : Orderly r) {k n : Nat} (hn : r.waiting[k]? = some n)
    (hd : ∀ q, r.engine.queue[k]? = some q → q.isReady r.now = false) : ¬ r.Due n r.now := by
  rintro ⟨s, hs, due⟩
  have past := h.past s (List.mem_of_getElem? hs)
  have deferred := hd s.queued (by rw [h.queue k, hn, Option.bind_some, hs, Option.map_some])
  rw [(s.isReady_queued past).mpr due] at deferred
  cases deferred

/-- A job may leave the queue from any place. -/
theorem erase (h : Orderly r) {s : Software} {k : Nat} (hq : s.queue = r.engine.queue.eraseIdx k) :
    Orderly { r with engine := s, waiting := r.waiting.eraseIdx k } where
  queue j := by
    dsimp only
    rw [hq, List.getElem?_eraseIdx, List.getElem?_eraseIdx]
    split_ifs
    · exact h.queue j
    · exact h.queue (j + 1)
  known n hn := h.known n ((List.eraseIdx_sublist _ _).subset hn)
  past := h.past
  increasing := h.increasing.sublist (List.eraseIdx_sublist _ _)
  begun := h.begun
  ahead p hp n hn := h.ahead p hp n ((List.eraseIdx_sublist _ _).subset hn)
  turns := h.turns

/-- Each waiting job has its place in the queue. -/
theorem length (h : Orderly r) : r.engine.queue.length = r.waiting.length := by
  apply Nat.le_antisymm
  · rw [← List.getElem?_eq_none_iff, h.queue, List.getElem?_eq_none (Nat.le_refl _)]
    rfl
  · apply Nat.le_of_not_lt
    intro place
    have missing := h.queue r.engine.queue.length
    have known := h.known _ (List.getElem_mem place)
    rw [List.getElem?_eq_none (Nat.le_refl _), List.getElem?_eq_getElem place, Option.bind_some,
      List.getElem?_eq_getElem known] at missing
    cases missing

theorem queue_concat (h : Orderly r) (s : Submission) (k : Nat) :
    (r.engine.queue ++ [s.queued])[k]? =
      (r.waiting ++ [r.submitted.length])[k]?.bind fun n =>
        (r.submitted ++ [s])[n]?.map Submission.queued := by
  rw [List.getElem?_append, List.getElem?_append, h.length]
  split_ifs with hk
  · rw [h.queue k, List.getElem?_eq_getElem hk, Option.bind_some, Option.bind_some,
      List.getElem?_append_left (h.known _ (List.getElem_mem hk))]
  · cases k - r.waiting.length with
    | zero => simp
    | succ j => simp

/-- With the worker all that were waiting go. -/
theorem change (h : Orderly r) {step : Step Software Unit}
    (hchange : Software.Change r.engine step) :
    Orderly
      { r with engine := step.state, waiting := r.waiting.take step.state.queue.length } := by
  obtain same | ⟨-, none⟩ := hchange.queue
  · rw [same, h.length, List.take_length]
    exact h.congr same (Nat.le_refl _)
  · rw [none, List.length_nil, List.take_zero]
    exact ⟨fun k => by simp [none], nofun, h.past, .nil, h.begun, fun _ _ => nofun, h.turns⟩

/-- One more job was submitted, whether or not it waits. -/
theorem refuse (h : Orderly r) {s : Software} (hq : s.queue = r.engine.queue) (job : Job)
    (delay : Nat) :
    Orderly { r with engine := s, submitted := r.submitted ++ [⟨job, r.now, delay⟩] } := by
  have same {n : Nat} (hn : n < r.submitted.length) (instant : Nat) :
      Due { r with submitted := r.submitted ++ [⟨job, r.now, delay⟩] } n instant ↔
        r.Due n instant := due_append hn rfl instant
  refine ⟨fun k => ?_, fun n hn => ?_, fun s hs => ?_, h.increasing, fun p hp => ?_,
    fun p hp n hn => ?_, ?_⟩
  · dsimp only
    rw [hq, h.queue k]
    cases hn : r.waiting[k]? with
    | none => rfl
    | some n =>
      rw [Option.bind_some, Option.bind_some,
        List.getElem?_append_left (h.known n (List.mem_of_getElem? hn))]
  · rw [List.length_append]
    exact Nat.lt_add_right _ (h.known n hn)
  · rcases List.mem_append.mp hs with hs | hs
    · exact h.past s hs
    · obtain rfl := List.mem_singleton.mp hs
      exact Nat.le_refl r.now
  · exact (h.begun p hp).append rfl
  · exact (h.ahead p hp n hn).imp_right (mt (same (h.known n hn) p.instant).mp)
  · apply h.turns.imp_of_mem
    intro p q hp hq turn
    exact turn.imp_right (mt (same (h.begun q hq).known p.instant).mp)

/-- A job that is submitted comes behind all that are waiting. -/
theorem submit (h : Orderly r) (running : r.engine.isShutDown = false) (job : Job) (delay : Nat) :
    Orderly
      { r with
        engine := (r.engine.submit job delay r.now).state
        submitted := r.submitted ++ [⟨job, r.now, delay⟩]
        waiting := r.waiting ++ [r.submitted.length] } := by
  have queue : (r.engine.submit job delay r.now).state.queue =
      r.engine.queue ++ [Submission.queued ⟨job, r.now, delay⟩] := by
    rw [Software.submit_of_running running]
    rfl
  have same {n : Nat} (hn : n < r.submitted.length) (instant : Nat) :
      Due { r with submitted := r.submitted ++ [⟨job, r.now, delay⟩] } n instant ↔
        r.Due n instant := due_append hn rfl instant
  refine ⟨fun k => ?_, fun n hn => ?_, fun s hs => ?_, ?_, fun p hp => ?_, fun p hp n hn => ?_, ?_⟩
  · dsimp only
    rw [queue]
    exact h.queue_concat ⟨job, r.now, delay⟩ k
  · rw [List.length_append, List.length_singleton]
    rcases List.mem_append.mp hn with hn | hn
    · exact Nat.lt_succ_of_lt (h.known n hn)
    · rw [List.mem_singleton.mp hn]
      exact Nat.lt_succ_self _
  · rcases List.mem_append.mp hs with hs | hs
    · exact h.past s hs
    · obtain rfl := List.mem_singleton.mp hs
      exact Nat.le_refl r.now
  · apply List.pairwise_append.mpr
    refine ⟨h.increasing, List.pairwise_singleton _ _, fun m hm n hn => ?_⟩
    rw [List.mem_singleton.mp hn]
    exact h.known m hm
  · exact (h.begun p hp).append rfl
  · rcases List.mem_append.mp hn with hn | hn
    · exact (h.ahead p hp n hn).imp_right (mt (same (h.known n hn) p.instant).mp)
    · rw [List.mem_singleton.mp hn]
      exact .inl (h.begun p hp).known
  · apply h.turns.imp_of_mem
    intro p q hp hq turn
    exact turn.imp_right (mt (same (h.begun q hq).known p.instant).mp)

/-- The worker starts the oldest job that is due: what is before it in the queue is not, and what is
behind was submitted later. -/
theorem start (h : Orderly r) {step : Step Software Job} (hr : r.engine.isShutDown = false)
    (hstep : r.engine.handBack r.now = some step) :
    Orderly
      { r with
        engine := step.state
        waiting := r.waiting.eraseIdx (r.engine.queue.findIdx (·.isReady r.now))
        started := r.started ++
          (r.waiting[r.engine.queue.findIdx (·.isReady r.now)]?.map
            (⟨·, r.now, step.answer⟩)).toList } := by
  obtain ⟨q, hq, queue, answer⟩ := Software.handBack_queue hr hstep
  obtain ⟨n, s, hn, hs, rfl, past⟩ := h.waiting_of_queued hq
  generalize hi : r.engine.queue.findIdx (·.isReady r.now) = i at hq queue hn ⊢
  have erased := h.erase queue
  have ready : s.queued.isReady r.now = true := by
    subst hi
    obtain ⟨hlt, hget⟩ := List.getElem?_eq_some_iff.mp hq
    rw [← hget]
    exact List.findIdx_getElem
  have began : r.Began ⟨n, r.now, step.answer⟩ :=
    ⟨s, hs, (s.isReady_queued past).mp ready, answer⟩
  have rest : ∀ m ∈ r.waiting.eraseIdx i, n < m ∨ ¬ r.Due m r.now := by
    intro m hm
    obtain ⟨j, hj, hget⟩ := List.mem_eraseIdx_iff_getElem?.mp hm
    obtain ⟨hiw, rfl⟩ := List.getElem?_eq_some_iff.mp hn
    obtain ⟨hjw, rfl⟩ := List.getElem?_eq_some_iff.mp hget
    rcases Nat.lt_or_gt_of_ne hj with before | behind
    · refine .inr (h.not_due hget fun x hx => ?_)
      subst hi
      obtain ⟨hlt, rfl⟩ := List.getElem?_eq_some_iff.mp hx
      exact List.not_of_lt_findIdx before
    · exact .inl (List.pairwise_iff_getElem.mp h.increasing i j hiw hjw behind)
  rw [hn, Option.map_some, Option.toList_some]
  refine ⟨erased.queue, erased.known, erased.past, erased.increasing, fun p hp => ?_,
    fun p hp m hm => ?_, ?_⟩
  · rcases List.mem_append.mp hp with hp | hp
    · exact h.begun p hp
    · rw [List.mem_singleton.mp hp]
      exact began
  · rcases List.mem_append.mp hp with hp | hp
    · exact erased.ahead p hp m hm
    · rw [List.mem_singleton.mp hp]
      exact rest m hm
  · apply List.pairwise_append.mpr
    refine ⟨h.turns, List.pairwise_singleton _ _, fun p hp x hx => ?_⟩
    rw [List.mem_singleton.mp hx]
    exact h.ahead p hp n (List.mem_of_getElem? hn)

theorem next (h : Orderly r) (n : Next r r') : Orderly r' := by
  cases n with
  | changed change => exact h.change change
  | opened key => exact h.congr (r.engine.createSession_frame key).1 (Nat.le_refl _)
  | acquired => exact h.congr r.engine.acquire_queue (Nat.le_refl _)
  | released job => exact h.congr (s := r.engine.release job) rfl (Nat.le_refl _)
  | passed instant => exact h.congr (s := r.engine) rfl (Nat.le_max_left _ _)
  | submitted job delay =>
    cases running : r.engine.isShutDown with
    | false => exact h.submit running job delay
    | true =>
      refine h.refuse ?_ job delay
      rw [Software.submit_of_shutDown running]
      rfl
  | cancelled id => exact h.erase (r.engine.cancel_queue id)
  | started hr hstep => exact h.start hr hstep
  | @drained step hr hstep =>
    rw [Software.handBack_of_shutDown hr] at hstep
    obtain ⟨job, -, rfl⟩ := Option.map_eq_some_iff.mp hstep
    refine h.congr ?_ (Nat.le_refl _)
    rfl

theorem run (h : Orderly r) (run : Run r r') : Orderly r' := by
  induction run with
  | refl => exact h
  | tail _ n ih => exact ih.next n

end Orderly

/-- The oldest job that is ready is taken, whatever stands before it; if there is none, the queue
has a deadline ahead at which there will be one. So a worker that is neither paused nor at its end
never sleeps without a limit while a job is queued; and whatever is done to an engine, no job starts
before its instant or while an older one is due. -/
theorem deferred_jobs_take_their_turn {capacity : Capacity} {r : Rota}
    (run : Run { engine := (Software.start capacity).state } r) :
    (∀ (queue : List Queued) (now : Nat),
      ((∃ q ∈ queue, q.isReady now = true) →
        ∃ before q after, queue = before ++ q :: after ∧ q.isReady now = true ∧
          (∀ x ∈ before, x.isReady now = false) ∧
          Queue.popReady now queue = some (q.job, before ++ after)) ∧
      ((∀ q ∈ queue, q.isReady now = false) →
        Queue.popReady now queue = none ∧
        (queue ≠ [] → ∃ d, Queue.nextDeadline queue = some d ∧ now < d ∧
          (∃ q ∈ queue, q.notBefore = some d) ∧
          (∀ q ∈ queue, ∀ instant, q.notBefore = some instant → d ≤ instant) ∧
          (Queue.popReady d queue).isSome))) ∧
    (∀ (s : Software) (now : Nat), s.isShutDown = false → s.paused = false → s.queue ≠ [] →
      (s.handBack now).isSome ∨
        s.handBack now = none ∧ ∃ d, s.wake = some d ∧ now < d ∧ (s.handBack d).isSome) ∧
    Orderly r := by
  refine ⟨fun queue now => ⟨Queue.popReady_of_ready, fun deferred => ?_⟩,
    fun s now running going waiting => Software.handBack_or_wake running going waiting now,
    (Orderly.fresh rfl 0).run run⟩
  refine ⟨Queue.popReady_of_deferred deferred, fun hne => ?_⟩
  obtain ⟨d, deadline, ahead, ready⟩ := Queue.nextDeadline_of_deferred deferred hne
  obtain ⟨mem, least⟩ := Queue.nextDeadline_eq_some.mp deadline
  obtain ⟨before, q, after, -, -, -, taken⟩ := Queue.popReady_of_ready ready
  exact ⟨d, deadline, ahead, mem, least, by rw [taken]; rfl⟩

/-- A job that may not start before the instant 5, and one behind it that may: the second starts at
once, then the worker sleeps until 5 and starts the first. -/
theorem ready_job_overtakes_deferred_one :
    ∃ r r' : Rota, Run { engine := (Software.start {}).state } r ∧ Run r r' ∧
      r.engine.queue.length = 1 ∧ r.engine.handBack r.now = none ∧ r.engine.wake = some 5 ∧
      (r.engine.handBack 5).isSome ∧
      r'.started.map (fun p => (p.number, p.instant)) = [(1, 0), (0, 5)] ∧ ¬ r'.Due 0 0 := by
  let fresh : Rota := { engine := (Software.start {}).state }
  let step (r : Rota) : Step Software Job :=
    (r.engine.handBack r.now).getD ⟨.fresh ⟨0⟩, r.engine, []⟩
  let deferred : Rota :=
    { fresh with
      engine := (fresh.engine.submit (.fresh ⟨1⟩) 5 0).state
      submitted := [⟨.fresh ⟨1⟩, 0, 5⟩]
      waiting := [0] }
  let both : Rota :=
    { deferred with
      engine := (deferred.engine.submit (.fresh ⟨2⟩) 0 0).state
      submitted := [⟨.fresh ⟨1⟩, 0, 5⟩, ⟨.fresh ⟨2⟩, 0, 0⟩]
      waiting := [0, 1] }
  let r : Rota :=
    { both with
      engine := (step both).state
      waiting := [0]
      started := [⟨1, 0, (step both).answer⟩] }
  let later : Rota := { r with now := 5 }
  let r' : Rota :=
    { later with
      engine := (step later).state
      waiting := []
      started := [⟨1, 0, (step both).answer⟩, ⟨0, 5, (step later).answer⟩] }
  have first : Next fresh deferred := .submitted (.fresh ⟨1⟩) 5
  have second : Next deferred both := .submitted (.fresh ⟨2⟩) 0
  have third : Next both r := @Next.started both (step both) rfl rfl
  have passed : Next r later := .passed 5
  have fourth : Next later r' := @Next.started later (step later) rfl rfl
  have run : Run fresh r := ((Relation.ReflTransGen.single first).tail second).tail third
  have rest : Run r r' := (Relation.ReflTransGen.single passed).tail fourth
  obtain ⟨-, worker, -⟩ := deferred_jobs_take_their_turn run
  obtain ⟨-, -, orderly⟩ := deferred_jobs_take_their_turn (run.trans rest)
  have none : r.engine.handBack 0 = none := rfl
  refine ⟨r, r', run, rest, rfl, none, ?_⟩
  rcases worker r.engine 0 rfl rfl nofun with taken | ⟨-, d, deadline, -, ready⟩
  · rw [none] at taken
    cases taken
  · obtain rfl : 5 = d := Option.some.inj deadline
    have turns := orderly.turns
    simp only [r', List.pairwise_cons] at turns
    exact ⟨deadline, ready, rfl, (turns.1 _ (List.mem_singleton.mpr rfl)).resolve_left (by decide)⟩

end Rota
end PacketAuth
