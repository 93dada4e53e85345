import PacketAuth.Proofs.Record
import PacketAuth.Proofs.Verdict

/-! The jobs of one call. Under an engine that answers each submission once, a docket of them is in
one of three states, and all that the engine and the call do leads from one of these to another. -/
namespace PacketAuth

/-- So many busy answers are within the policy. -/
def RetryPolicy.Tolerates (p : RetryPolicy) (n : Nat) : Prop := ∀ m, p.maxRetries = some m → n ≤ m

theorem RetryPolicy.allows_iff (p : RetryPolicy) (n : Nat) :
    p.allows n = true ↔ p.Tolerates (n + 1) := by
  unfold allows Tolerates
  cases p.maxRetries with
  | none => simp
  | some m =>
    simp only [decide_eq_true_eq, Option.some.injEq, forall_eq']
    exact Nat.lt_iff_add_one_le

/-- A policy that tolerates no more busy answers than there were has that many for its bound. -/
theorem RetryPolicy.maxRetries_of_exhausted {p : RetryPolicy} {n : Nat} (ht : p.Tolerates n)
    (hn : ¬ p.Tolerates (n + 1)) : p.maxRetries = some n := by
  cases hm : p.maxRetries with
  | none =>
    refine absurd (fun m hsome => ?_) hn
    rw [hm] at hsome
    cases hsome
  | some m =>
    have enough := ht m hm
    have bound : ¬ n + 1 ≤ m := by
      intro more
      refine hn fun m' hm' => ?_
      obtain rfl : m = m' := Option.some.inj (hm.symm.trans hm')
      exact more
    congr 1
    omega

/-- The jobs that were submitted for a call, all but the last of them answered by busy ones. -/
structure Call.Retried (c : Call) (submitted busy : List Job) : Prop where
  answered : ∀ j ∈ busy, j.outcome = .busy
  length : submitted.length = busy.length + 1
  retries : submitted.getLast?.map Job.retries = some (min busy.length Job.maxRetryCount)
  tolerated : c.retry.Tolerates busy.length
  installed : (submitted.head?.bind Job.descriptor).map Descriptor.inject = some 0

/-- The number of busy answers before any other. -/
def Job.leadingBusy (answers : List Job) : Nat :=
  (answers.takeWhile (·.outcome = .busy)).length

/-- How the answers to a call decide it: the first that is not busy does, if the policy tolerates
those before it; a call that was answered busy too often fails in the engine. Each tolerated answer
is followed by one more submission, and the job is released once, with the reply. -/
structure Call.DecidedBy (c : Call) (answers submitted released : List Job) : Prop where
  waiting : c.retry.Tolerates (Job.leadingBusy answers) →
    answers[Job.leadingBusy answers]? = none → c.reply = none
  decided : c.retry.Tolerates (Job.leadingBusy answers) →
    ∀ j, answers[Job.leadingBusy answers]? = some j → ∃ reply, c.reply = some reply ∧ c.Told j reply
  exhausted : ∀ m, c.retry.maxRetries = some m → m < Job.leadingBusy answers →
    ∃ f, c.reply = some (.failed c.request f) ∧ f.kind = .engineFailed Code.again
  tolerated : c.retry.Tolerates (Job.leadingBusy answers) →
    submitted.length = Job.leadingBusy answers + 1
  bounded : ∀ m, c.retry.maxRetries = some m →
    submitted.length = min (Job.leadingBusy answers) m + 1
  released : released.length = if c.reply.isSome then 1 else 0
  installed : (submitted.head?.bind Job.descriptor).map Descriptor.inject = some 0

/-- The job that ends a wait after so many busy answers, and the job that the caller gets. -/
inductive Call.Concludes (c : Call) (n : Nat) (j : Job) : Job → Prop
  | decided (h : j.outcome ≠ .busy) : Concludes c n j j
  | exhausted (h : j.outcome = .busy) (hm : c.retry.maxRetries = some n) :
      Concludes c n j (j.complete (.failed Code.again))

/-- The jobs of one call: those that the engine got to work on, those that it gave back with an
outcome, those that it got for good, and those that are still to be passed on. -/
structure Docket where
  submitted : List Job := []
  completed : List Job := []
  released : List Job := []
  inHand : List Job := []

/-- Enters what happened to a job. -/
def Docket.note (d : Docket) (j : Job) : Deed.Kind → Docket
  | .submitted => { d with submitted := d.submitted ++ [j] }
  | .completed => { d with completed := d.completed ++ [j] }
  | .released => { d with released := d.released ++ [j] }
  | .withdrawn => d

/-- The states of a docket. It is empty before the call. While the call waits, the engine or the
hand has its job; then the job that concluded the wait was released, and nothing is left. -/
inductive Docket.Tended (d : Docket) : Option Call → Prop
  | unborn (h : d = {}) : Tended d none
  | waiting {c : Call} {busy : List Job} (h : c.Retried d.submitted busy)
      (hd : d.completed = busy ++ d.inHand) (hr : d.released = []) (hl : d.inHand.length ≤ 1)
      (hh : ∀ j ∈ d.inHand, j.retries = min busy.length Job.maxRetryCount)
      (hp : c.slot = .pending) (hn : c.reply = none) : Tended d (some c)
  | ended {c : Call} {busy : List Job} {j k : Job} (h : c.Retried d.submitted busy)
      (hd : d.completed = busy ++ [j]) (hr : d.released = [k]) (hl : d.inHand = [])
      (hc : c.Concludes busy.length j k) (hp : c.slot = .taken)
      (hn : c.reply = some (c.ending k).reply) : Tended d (some c)

/-- A call that waits, whose job came back and is to be passed on. -/
structure Docket.Returned (d : Docket) (c : Call) (busy : List Job) (j : Job) : Prop where
  retried : c.Retried d.submitted busy
  completed : d.completed = busy ++ [j]
  released : d.released = []
  retries : j.retries = min busy.length Job.maxRetryCount
  slot : c.slot = .pending
  reply : c.reply = none

theorem Call.Retried.again {c : Call} {submitted busy : List Job} (h : c.Retried submitted busy)
    (hm : ∀ m, c.retry.maxRetries = some m → m ≤ Job.maxRetryCount) {j : Job}
    (hj : j.retries = min busy.length Job.maxRetryCount) (hb : j.outcome = .busy)
    (ha : c.retry.allows j.retries = true) : c.Retried (submitted ++ [j.rearm]) (busy ++ [j]) where
  answered k hk := by
    rcases List.mem_append.mp hk with hk | hk
    · exact h.answered k hk
    · rw [List.mem_singleton.mp hk]
      exact hb
  length := by
    rw [List.length_append, List.length_append, h.length]
    rfl
  retries := by
    simp only [List.getLast?_append, List.getLast?_singleton, Option.some_or, Option.map_some,
      Job.rearm, hj, List.length_append, List.length_singleton, Option.some_inj]
    omega
  tolerated m hsome := by
    -- the counter stops at its bound, and no bound of a policy lies above
    have more := (c.retry.allows_iff _).mp ha m hsome
    have bound := hm m hsome
    rw [hj] at more
    rw [List.length_append, List.length_singleton]
    omega
  installed := by
    have some := h.installed
    cases hs : submitted with
    | nil => simp [hs] at some
    | cons first rest => simpa [hs] using some

theorem Call.Retried.congr {c c' : Call} {submitted busy : List Job} (h : c.Retried submitted busy)
    (hc : c'.retry = c.retry) : c'.Retried submitted busy :=
  ⟨h.answered, h.length, h.retries, hc ▸ h.tolerated, h.installed⟩

theorem Call.concludes_of_settle {c : Call} {submitted busy : List Job}
    (h : c.Retried submitted busy) (hp : c.slot = .pending) {j k : Job} {exhausted : Bool}
    (hj : j.retries = min busy.length Job.maxRetryCount)
    (hs : c.react j = .settle k exhausted) : c.Concludes busy.length j k := by
  rcases settle_of_pending hp hs with ⟨hb, rfl⟩ | ⟨hb, rfl⟩
  · exact .decided hb
  · have refused : ¬ c.retry.allows j.retries = true := by
      simp [(settle_of_busy hp hb hs).1]
    refine .exhausted hb (RetryPolicy.maxRetries_of_exhausted h.tolerated fun more => refused ?_)
    refine (c.retry.allows_iff _).mpr fun m hm => ?_
    rw [hj]
    exact Nat.le_trans (Nat.succ_le_succ (Nat.min_le_left _ _)) (more m hm)

namespace Docket.Tended
variable {d : Docket} {call : Option Call} {c : Call} {before after : List Job} {j k : Job}

theorem admitted (hp : c.slot = .pending) (hn : c.reply = none) (hj : j.retries = 0)
    (hi : j.descriptor.map Descriptor.inject = some 0) : Tended { submitted := [j] } (some c) := by
  have retried : c.Retried [j] [] := by
    refine ⟨?_, rfl, ?_, fun m _ => Nat.zero_le m, ?_⟩
    · simp
    · simp [hj]
    · simpa using hi
  exact .waiting retried rfl rfl (Nat.zero_le 1) (by simp) hp hn

/-- The engine gives back a job that it had not given back yet. -/
theorem completed (h : d.Tended call) (hl : d.completed.length < d.submitted.length)
    (hj : d.submitted.getLast?.map Job.retries = some j.retries) :
    Tended { d with completed := d.completed ++ [j], inHand := d.inHand ++ [j] } call := by
  cases h with
  | unborn h =>
    subst h
    exact absurd hl (Nat.lt_irrefl 0)
  | waiting h hd hr _ _ hp hn =>
    have none : d.inHand = [] := by
      rw [hd, h.length, List.length_append] at hl
      exact List.eq_nil_of_length_eq_zero (by omega)
    refine .waiting h ?_ hr ?_ ?_ hp hn
    · dsimp only
      rw [hd, none, List.append_nil, List.nil_append]
    · dsimp only
      rw [none]
      exact Nat.le_refl 1
    · dsimp only
      intro i hi
      rw [none, List.nil_append, List.mem_singleton] at hi
      rw [h.retries, ← hi] at hj
      exact (Option.some.inj hj).symm
  | ended h hd =>
    rw [hd, h.length, List.length_append] at hl
    exact absurd hl (Nat.lt_irrefl _)

/-- A job that is to be passed on is the only one, and awaited. -/
theorem returned (h : d.Tended call) (hj : d.inHand = before ++ j :: after) :
    ∃ c busy, call = some c ∧ d.Returned c busy j ∧ before ++ after = [] := by
  cases h with
  | unborn h =>
    subst h
    simp at hj
  | @waiting c busy h hd hr hl hh hp hn =>
    rw [hj, List.length_append, List.length_cons] at hl
    obtain rfl : before = [] := List.eq_nil_of_length_eq_zero (by omega)
    obtain rfl : after = [] := List.eq_nil_of_length_eq_zero (by simpa using hl)
    rw [hj] at hd hh
    exact ⟨c, busy, rfl, ⟨h, hd, hr, hh j (by simp), hp, hn⟩, rfl⟩
  | ended _ _ _ hl =>
    rw [hl] at hj
    simp at hj

theorem resubmitted {busy : List Job} (h : d.Returned c busy j)
    (hm : ∀ m, c.retry.maxRetries = some m → m ≤ Job.maxRetryCount) (hb : j.outcome = .busy)
    (ha : c.retry.allows j.retries = true) :
    Tended { d with submitted := d.submitted ++ [j.rearm], inHand := [] } (some c) := by
  refine .waiting (h.retried.again hm h.retries hb ha) ?_ h.released (Nat.zero_le 1) ?_ h.slot
    h.reply
  · exact h.completed.trans (List.append_nil _).symm
  · simp

theorem finished {busy : List Job} (h : d.Returned c busy j) {exhausted : Bool}
    (hs : c.react j = .settle k exhausted) :
    Tended { d with released := d.released ++ [k], inHand := [] }
      (some { c with slot := .taken, reply := some (c.ending k).reply }) := by
  refine .ended (h.retried.congr rfl) h.completed ?_ rfl ?_ rfl rfl
  · dsimp only
    rw [h.released, List.nil_append]
  · cases Call.concludes_of_settle h.retried h.slot h.retries hs with
    | decided hb => exact .decided hb
    | exhausted hb hm => exact .exhausted hb hm

end Docket.Tended

namespace Job

theorem leadingBusy_append {busy : List Job} (h : ∀ j ∈ busy, j.outcome = .busy)
    (rest : List Job) : leadingBusy (busy ++ rest) = busy.length + leadingBusy rest := by
  rw [leadingBusy, List.takeWhile_append_of_pos fun j hj => decide_eq_true (h j hj),
    List.length_append, leadingBusy]

end Job

theorem Call.ending_exhausted (c : Call) (j : Job) :
    ∃ f, (c.ending (j.complete (.failed Code.again))).reply = .failed c.request f ∧
      f.kind = .engineFailed Code.again := by
  have undone : (j.complete (.failed Code.again)).outcome ≠ .done := by simp
  exact ⟨_, (c.ending_of_error (Job.verdict_of_not_done undone)).1, rfl⟩

/-- A docket in order tells how its call was decided. -/
theorem Docket.Tended.decidedBy {d : Docket} {c : Call} (h : d.Tended (some c)) :
    ∃ answers, d.completed = answers ++ d.inHand ∧ c.DecidedBy answers d.submitted d.released := by
  cases h with
  | @waiting c busy h hd hr hl hh hp hn =>
    have hk : Job.leadingBusy busy = busy.length := by
      simpa [Job.leadingBusy] using Job.leadingBusy_append h.answered []
    refine ⟨busy, hd, fun _ _ => hn, fun _ j hj => ?_, fun m hm hlt => ?_, fun _ => ?_,
      fun m hm => ?_, ?_, h.installed⟩
    · rw [hk, List.getElem?_eq_none (Nat.le_refl _)] at hj
      cases hj
    · rw [hk] at hlt
      exact absurd (h.tolerated m hm) (Nat.not_le.mpr hlt)
    · rw [hk, h.length]
    · rw [hk, h.length, Nat.min_eq_left (h.tolerated m hm)]
    · rw [hr, hn]
      rfl
  | @ended c busy j k h hd hr hl hc hp hn =>
    refine ⟨busy ++ [j], by rw [hl, List.append_nil, hd], ?_⟩
    have one : d.released.length = if c.reply.isSome then 1 else 0 := by
      rw [hr, hn]
      rfl
    have hk := Job.leadingBusy_append h.answered [j]
    cases hc with
    | decided hb =>
      have last : Job.leadingBusy [j] = 0 := by simp [Job.leadingBusy, hb]
      rw [last, Nat.add_zero] at hk
      have next : (busy ++ [j])[busy.length]? = some j := List.getElem?_concat_length
      refine ⟨fun _ hnone => ?_, fun _ i hi => ?_, fun m hm hlt => ?_, fun _ => ?_, fun m hm => ?_,
        one, h.installed⟩
      · rw [hk, next] at hnone
        cases hnone
      · rw [hk, next] at hi
        obtain rfl : j = i := Option.some.inj hi
        exact ⟨_, hn, c.told_ending hb⟩
      · rw [hk] at hlt
        exact absurd (h.tolerated m hm) (Nat.not_le.mpr hlt)
      · rw [hk, h.length]
      · rw [hk, h.length, Nat.min_eq_left (h.tolerated m hm)]
    | exhausted hb hm =>
      have last : Job.leadingBusy [j] = 1 := by simp [Job.leadingBusy, hb]
      rw [last] at hk
      have beyond : ¬ c.retry.Tolerates (Job.leadingBusy (busy ++ [j])) := by
        intro tolerated
        have := tolerated busy.length hm
        rw [hk] at this
        exact Nat.not_succ_le_self _ this
      refine ⟨fun tolerated => absurd tolerated beyond, fun tolerated => absurd tolerated beyond,
        fun m _ _ => ?_, fun tolerated => absurd tolerated beyond, fun m hm' => ?_, one,
        h.installed⟩
      · obtain ⟨f, hf, hkind⟩ := c.ending_exhausted j
        exact ⟨f, by rw [hn, hf], hkind⟩
      · obtain rfl : busy.length = m := by simpa [hm] using hm'
        rw [hk, h.length, Nat.min_eq_right (Nat.le_succ _)]

end PacketAuth
