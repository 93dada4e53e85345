import PacketAuth.Proofs.Balance
import PacketAuth.Proofs.Delivery
import PacketAuth.Proofs.Operation
import PacketAuth.Proofs.Persistence

/-! The queue runs empty. A job that comes back busy goes to the end of the queue that the worker is
emptying, so neither the queue nor the retries measure its progress; the jobs in the queue and the
busy faults still pending do so together. -/
namespace PacketAuth

/-- How many jobs the worker has processed. -/
def Accounting.processed (a : Accounting) : Nat := a.completions + a.busyOutcomes + a.failures

theorem Accounting.processed_record (a : Accounting) (outcome : Outcome) :
    (a.record (Software.entryOf outcome)).processed = a.processed + 1 := by
  cases outcome <;> simp only [processed, record, Software.entryOf] <;> omega

/-- A worker at work that takes a job counts it, and uses up a busy fault if there is one. -/
theorem Software.handBack_at_work {s : Software} (hr : s.isShutDown = false) (hp : s.paused = false)
    {now : Nat} {step : Step Software Job} (h : s.handBack now = some step) :
    (∃ before q after, s.queue = before ++ q :: after ∧ step.state.queue = before ++ after) ∧
      step.state.isShutDown = false ∧ step.state.paused = false ∧
      step.state.accounting.processed = s.accounting.processed + 1 ∧
      (step.answer.outcome = .busy → step.state.faults.busy + 1 = s.faults.busy) ∧
      step.state.faults.busy ≤ s.faults.busy := by
  rw [handBack_of_running hr hp] at h
  obtain ⟨⟨job, rest⟩, hpop, rfl⟩ := Option.map_eq_some_iff.mp h
  obtain ⟨before, q, after, hqueue, rfl, rfl, -⟩ := Queue.popReady_eq_some hpop
  rcases Nat.eq_zero_or_pos s.faults.busy with hb | hb
  · obtain ⟨notBusy, none⟩ := work_of_not_busy q.job (s := { s with queue := before ++ after }) hb
    obtain ⟨output, outcome, -, -, faults, hstate⟩ :=
      work_spec q.job { s with queue := before ++ after }
    refine ⟨⟨before, q, after, hqueue, ?_⟩, ?_, ?_, ?_, fun busy => absurd busy notBusy,
      none ▸ Nat.zero_le _⟩
    · rw [hstate]
      rfl
    · rw [hstate]
      exact hr
    · rw [hstate]
      exact hp
    · rw [hstate]
      exact s.accounting.processed_record outcome
  · rw [work_of_busy q.job (s := { s with queue := before ++ after }) hb]
    exact ⟨⟨before, q, after, hqueue, rfl⟩, hr, hp, s.accounting.processed_record .busy,
      fun _ => Nat.sub_add_cancel hb, Nat.sub_le _ _⟩

namespace World
variable {w w' : World Software}

/-- Where a job in the queue comes from: it was there before, it was submitted for a new call, to
start at once, or it is tried again after the pause of its call. -/
inductive Queueing (w w' : World Software) (q : Queued) : Prop
  | kept (h : q ∈ w.host.engine.queue)
  | admitted {s : Service} {r : Request} {regions : Regions} {session : SessionHandle} {job : Job}
      (ha : w.host.engine.acquire.answer = some job)
      (hq : q = ⟨r.fill s regions session w.host.calls.length job, none⟩)
  | again {ticket : Nat} {c : Call} {job : Job} (hmem : job ∈ w.hand)
      (hj : job.recipient = some (.call ticket)) (hc : w.host.calls[ticket]? = some c)
      (hr : c.retry.allows job.retries = true) (hq : q.job = job.rearm)
      (hz : c.retry.backoff = 0 → q.notBefore = none)

theorem Effect.queueing (e : Effect Software.rules w w') {q : Queued}
    (hq : q ∈ w'.host.engine.queue) : Queueing w w' q := by
  cases e with
  | aside | installed | misconfigured | dropped | rejected | collected => exact .kept hq
  | changed _ hchange => exact .kept (hchange.queue_subset hq)
  | opened | notOpened => exact .kept ((Software.createSession_frame _ w.host.engine).1 ▸ hq)
  | starved => exact .kept (Software.acquire_queue w.host.engine ▸ hq)
  | admitted _ hs hl hr ho ha hsubmit =>
    subst hsubmit
    rcases List.mem_append.mp (Software.queue_of_submit hq) with hq | hq
    · exact .kept (Software.acquire_queue w.host.engine ▸ hq)
    · exact .admitted ha (List.mem_singleton.mp hq)
  | taken _ hstep =>
    obtain ⟨before, job, after, output, outcome, -, -, -, queue, returning, faults, hstate, -,
      kept⟩ := Software.handBack_spec hstep
    rw [hstate] at hq
    exact .kept (kept.subset hq)
  | passed host before after s =>
    cases s with
    | strayed | finished | stranded => exact .kept hq
    | resubmitted hj hc hb ha hr hsubmit =>
      subst hsubmit
      rcases List.mem_append.mp (Software.queue_of_submit hq) with hq | hq
      · exact .kept hq
      · rw [List.mem_singleton.mp hq]
        exact .again (List.mem_append_right before List.mem_cons_self) hj hc hr rfl
          fun hz => if_pos hz
    | refused =>
      dsimp only at hq
      split at hq <;> exact .kept hq
  | left => exact .kept (Software.withdraw_queue _ _ hq)

/-- No call defers its job but one whose policy has a pause. -/
def Punctual (w : World Software) : Prop :=
  ∀ q ∈ w.host.engine.queue, ∀ ticket c, q.job.recipient = some (.call ticket) →
    w.host.calls[ticket]? = some c → c.retry.backoff = 0 → q.notBefore = none

theorem Punctual.effect (h : Punctual w) (custody : Custody w) (e : Effect Software.rules w w') :
    Punctual w' := by
  intro q hq ticket c' hr hc' hz
  cases e.queueing hq with
  | kept old =>
    obtain ⟨t, d, hd, -, -, ht⟩ := custody.call_of_queued (List.mem_map_of_mem old)
    obtain rfl : t = ticket := by simpa [hr] using ht.symm
    obtain ⟨c, hc, persists⟩ := e.call_before (List.getElem?_eq_some_iff.mp hd).1 hc'
    exact h q old t c hr hc (persists.retry ▸ hz)
  | admitted ha hq => rw [hq]
  | @again t c job hmem hj hc allowed hq defers =>
    obtain rfl : t = ticket := by
      rw [hq, Job.rearm, hj] at hr
      simpa using hr
    exact defers ((e.persists.of_ticket hc hc').retry ▸ hz)

end World

namespace Host
variable {h : Host Software}

/-- A worker at work, with nothing in the queue that has to wait. -/
structure Flowing (h : Host Software) : Prop where
  custody : World.Custody ⟨h, []⟩
  engaged : World.Engaged ⟨h, []⟩
  running : h.engine.isShutDown = false
  awake : h.engine.paused = false
  ready : ∀ q ∈ h.engine.queue, q.notBefore = none
  prompt : ∀ c ∈ h.calls, c.isWaiting = true → c.retry.backoff = 0

/-- The worker has processed one more job: it came back busy and was used as an excuse for a fault,
or it ended its call. -/
inductive Processed (h h' : Host Software) : Prop
  | again (queue : h'.engine.queue.length = h.engine.queue.length)
      (busy : h'.engine.faults.busy + 1 = h.engine.faults.busy)
      (retries : Service.total h'.services .busyRetries =
        Service.total h.services .busyRetries + 1)
      (calls : h'.calls = h.calls)
  | ended {ticket : Nat} {c : Call} {reply : Reply}
      (queue : h'.engine.queue.length + 1 = h.engine.queue.length)
      (busy : h'.engine.faults.busy ≤ h.engine.faults.busy)
      (retries : Service.total h'.services .busyRetries = Service.total h.services .busyRetries)
      (call : h.calls[ticket]? = some c)
      (calls : h'.calls = h.calls.set ticket { c with slot := .taken, reply := some reply })

theorem Flowing.handOver (a : h.Flowing) {step : Step Software Job}
    (hs : h.engine.handBack h.now = some step) :
    (h.handOver Software.engine step).Flowing ∧
      (h.handOver Software.engine step).engine.accounting.processed =
        h.engine.accounting.processed + 1 ∧
      h.Processed (h.handOver Software.engine step) := by
  have run : World.Run Software.rules ⟨h, []⟩ ⟨h.handOver Software.engine step, []⟩ :=
    World.run_handOver hs []
  have custody := a.custody.run run
  have engaged := a.engaged.effects (World.Run.effects run)
  obtain ⟨ticket, c, hc, hw, hj, handed⟩ := a.custody.handOver a.running hs
  obtain ⟨⟨before, q, after, hqueue, rest⟩, running, awake, processed, busy, fewer⟩ :=
    Software.handBack_at_work a.running a.awake hs
  obtain ⟨s, hservice, -⟩ := a.engaged ticket c hc
  have there : c.request.service < h.services.length := (List.getElem?_eq_some_iff.mp hservice).1
  have ready : ∀ x ∈ step.state.queue, x.notBefore = none := fun x hx =>
    a.ready x (hqueue ▸ mem_of_removed (rest ▸ hx))
  have shorter : step.state.queue.length + 1 = h.engine.queue.length := by
    rw [hqueue, rest, List.length_append, List.length_append, List.length_cons]
    rfl
  generalize h.handOver Software.engine step = h' at *
  cases handed with
  | resubmitted hb allowed log =>
    have zero := a.prompt c (List.mem_of_getElem? hc) hw
    have submitted := Software.submit_of_running running step.answer.rearm c.retry.backoff h.now
    refine ⟨⟨custody, engaged, (Software.submit_isShutDown _ _ _ _).trans running,
      (Software.submit_paused _ _ _ _).trans awake, fun x hx => ?_, a.prompt⟩, ?_,
      .again ?_ ?_ ?_ rfl⟩
    · rcases List.mem_append.mp (Software.queue_of_submit hx) with hx | hx
      · exact ready x hx
      · rw [List.mem_singleton.mp hx]
        exact if_pos zero
    · exact (congrArg (·.state.accounting.processed) submitted).trans processed
    · refine (congrArg (·.state.queue.length) submitted).trans ?_
      rw [List.length_append, List.length_singleton]
      exact shorter
    · exact (congrArg (·.state.faults.busy + 1) submitted).trans (busy hb)
    · exact (Service.total_count there _ _).trans (by rw [if_pos rfl])
  | @concluded job exhausted settled log =>
    refine ⟨⟨custody, engaged, running, awake, ready, fun d hd waits => ?_⟩, processed,
      .ended shorter fewer ?_ hc rfl⟩
    · rcases List.mem_or_eq_of_mem_set hd with hd | rfl
      · exact a.prompt d hd waits
      · cases waits
    · exact Service.total_modify_of_same _ _ (c.credit_retries job)

/-- The worker empties the queue in `n` steps, and each call that waits has its reply from one of
them on. -/
structure Drains (h : Host Software) (n : Nat) : Prop where
  goes : ∀ k < n, ((h.deliverNext Software.engine k).engine.handBack
    (h.deliverNext Software.engine k).now).isSome = true
  flowing : (h.deliverNext Software.engine n).Flowing
  queue : (h.deliverNext Software.engine n).engine.queue = []
  processed : (h.deliverNext Software.engine n).engine.accounting.processed =
    h.engine.accounting.processed + n
  retries : n + Service.total h.services .busyRetries =
    h.engine.queue.length +
      Service.total (h.deliverNext Software.engine n).services .busyRetries
  answers : ∀ (ticket : Nat) (c : Call), h.calls[ticket]? = some c → c.isWaiting = true →
    ∃ k < n, ∃ reply, ∀ j, (h.deliverNext Software.engine j).reply? ticket =
      if j ≤ k then none else some reply

theorem reply?_deliverNext {ticket : Nat} {reply : Reply} (hr : h.reply? ticket = some reply)
    (n : Nat) : (h.deliverNext Software.engine n).reply? ticket = some reply :=
  World.Run.reply? (World.run_deliverNext (R := Software.rules) n h []) hr

theorem Drains.answers_succ {h₁ : Host Software} {n ticket : Nat} {c : Call} (d : h₁.Drains n)
    (next : ∀ j, h.deliverNext Software.engine (j + 1) = h₁.deliverNext Software.engine j)
    (hw : h.reply? ticket = none) (hc : h₁.calls[ticket]? = some c)
    (waits : c.isWaiting = true) :
    ∃ k < n + 1, ∃ reply, ∀ j, (h.deliverNext Software.engine j).reply? ticket =
      if j ≤ k then none else some reply := by
  obtain ⟨k, hk, reply, answers⟩ := d.answers ticket c hc waits
  refine ⟨k + 1, Nat.succ_lt_succ hk, reply, fun j => ?_⟩
  cases j with
  | zero => rw [if_pos (Nat.zero_le _), ← hw, deliverNext]
  | succ j =>
    rw [next, answers]
    exact if_congr Nat.succ_le_succ_iff.symm rfl rfl

/-- The first job decides about one call at most; the others have their replies later. -/
theorem Drains.cons {step : Step Software Job} {n : Nat}
    (hs : h.engine.handBack h.now = some step)
    (processed : (h.handOver Software.engine step).engine.accounting.processed =
      h.engine.accounting.processed + 1)
    (p : h.Processed (h.handOver Software.engine step))
    (d : (h.handOver Software.engine step).Drains n) : h.Drains (n + 1) := by
  have next : ∀ j, h.deliverNext Software.engine (j + 1) =
      (h.handOver Software.engine step).deliverNext Software.engine j := deliverNext_succ hs
  generalize h.handOver Software.engine step = h₁ at *
  refine ⟨fun k hk => ?_, ?_, ?_, ?_, ?_, fun ticket c hc hw => ?_⟩
  · cases k with
    | zero =>
      rw [deliverNext, hs]
      rfl
    | succ k =>
      rw [next]
      exact d.goes k (Nat.lt_of_succ_lt_succ hk)
  · rw [next]
    exact d.flowing
  · rw [next]
    exact d.queue
  · rw [next, d.processed, processed]
    omega
  · have rest := d.retries
    rw [next]
    cases p with
    | again queue _ retries => omega
    | ended queue _ retries => omega
  · have waits := reply?_of_waiting hc hw
    cases p with
    | again _ _ _ calls => exact d.answers_succ next waits (calls ▸ hc) hw
    | @ended t e reply _ _ _ he calls =>
      by_cases own : t = ticket
      · subst own
        have replied : h₁.reply? t = some reply := by
          rw [reply?, calls, List.getElem?_set_self (List.getElem?_eq_some_iff.mp he).1]
          rfl
        refine ⟨0, Nat.succ_pos n, reply, fun j => ?_⟩
        cases j with
        | zero => rw [if_pos (Nat.le_refl 0), ← waits, deliverNext]
        | succ j => rw [next, reply?_deliverNext replied, if_neg (Nat.not_succ_le_zero j)]
      · refine d.answers_succ next waits ?_ hw
        rw [calls, List.getElem?_set_ne own, hc]

/-- A running engine has passed on jobs that it had in hand, with so many busy ones among them. -/
structure PassedOn (h : Host Software) (busy : Nat) (h' : Host Software) : Prop where
  running : h'.engine.isShutDown = false
  awake : h'.engine.paused = h.engine.paused
  faults : h'.engine.faults = h.engine.faults
  processed : h'.engine.accounting.processed = h.engine.accounting.processed
  queue : h'.engine.queue.length ≤ h.engine.queue.length + busy
  retries : h'.engine.queue.length + Service.total h.services .busyRetries =
    h.engine.queue.length + Service.total h'.services .busyRetries

theorem PassedOn.trans {h' h'' : Host Software} {busy busy' : Nat} (a : h.PassedOn busy h')
    (b : h'.PassedOn busy' h'') : h.PassedOn (busy + busy') h'' where
  running := b.running
  awake := b.awake.trans a.awake
  faults := b.faults.trans a.faults
  processed := b.processed.trans a.processed
  queue := by
    have first := a.queue
    have second := b.queue
    omega
  retries := by
    have first := a.retries
    have second := b.retries
    omega

end Host

namespace World

section Resumed
variable {capacity : Capacity} {w : World Software}

end Resumed

end World
end PacketAuth
