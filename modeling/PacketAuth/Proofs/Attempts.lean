import PacketAuth.Proofs.Delivery
import PacketAuth.Proofs.CallJobs

/-! A call that is alone with the worker. Its job is tried again after each busy answer, at once or
after a pause, until an answer ends the call; nothing but the number of attempts is left of them. -/
namespace PacketAuth

namespace Job

/-- A job after so many further attempts. -/
def retried (n : Nat) (j : Job) : Job :=
  { j with retries := min (j.retries + n) maxRetryCount }

theorem retried_zero {j : Job} (h : j.retries ≤ maxRetryCount) : j.retried 0 = j := by
  rw [retried, Nat.add_zero, Nat.min_eq_left h]

theorem rearm_retried {j : Job} (hp : j.outcome = .pending) (n : Nat) :
    ((j.retried n).complete .busy).rearm = j.retried (n + 1) := by
  have counted : min (min (j.retries + n) maxRetryCount + 1) maxRetryCount =
      min (j.retries + (n + 1)) maxRetryCount := by omega
  simp only [retried, rearm, complete, counted, ← hp]

end Job

/-- The counters of an engine after so many busy answers, each followed by one more submission. -/
def Accounting.retried (n : Nat) (a : Accounting) : Accounting :=
  { a with busyOutcomes := a.busyOutcomes + n, dispatches := a.dispatches + n }

/-- A service that saw so many retries. -/
def Service.retried (n : Nat) (s : Service) : Service :=
  { s with stats := { s.stats with busyRetries := s.stats.busyRetries + n } }

namespace Software

/-- An engine that has spent so many busy faults on a job that was tried again, with a queue as it
may be by then. -/
def retried (n : Nat) (queue : List Queued) (s : Software) : Software :=
  { s with
    queue
    faults := { s.faults with busy := s.faults.busy - n }
    accounting := s.accounting.retried n }

/-- The worker takes a job that was tried so many times before. -/
def attempt (j : Job) (n : Nat) (s : Software) : Step Software Job :=
  work (j.retried n) (s.retried n [])

variable {s : Software} {j : Job} {n : Nat}

/-- The worker takes the only job in the queue if it may start. -/
theorem handBack_retried (running : s.isShutDown = false) (awake : s.paused = false)
    (notBefore : Option Nat) (now : Nat) :
    (s.retried n [⟨j.retried n, notBefore⟩]).handBack now =
      if notBefore.all (· ≤ now) then some (s.attempt j n) else none := by
  rw [handBack_of_running (s := s.retried n [⟨j.retried n, notBefore⟩]) running awake]
  by_cases ready : notBefore.all (· ≤ now) = true
  · rw [if_pos ready]
    simp only [retried, Queue.popReady, Queued.isReady, ready, if_true]
    rfl
  · rw [if_neg ready]
    simp only [retried, Queue.popReady, Queued.isReady, ready]
    rfl

/-- An attempt leaves nothing in the queue. -/
theorem attempt_frame (j : Job) (n : Nat) (s : Software) :
    (s.attempt j n).state.queue = [] ∧ (s.attempt j n).state.isShutDown = s.isShutDown ∧
      (s.attempt j n).state.paused = s.paused ∧ (s.attempt j n).state.pool = s.pool := by
  obtain ⟨output, outcome, -, -, faults, hstate⟩ := work_spec (j.retried n) (s.retried n [])
  rw [attempt, hstate]
  exact ⟨rfl, rfl, rfl, rfl⟩

/-- An attempt that comes before the end of the busy faults uses one up. -/
theorem attempt_of_faults (j : Job) (hn : n < s.faults.busy) :
    s.attempt j n =
      ⟨(j.retried n).complete .busy,
        { s.retried (n + 1) [] with accounting := (s.accounting.retried n).record .jobBusy },
        [.jobProcessed j.id .busy]⟩ :=
  work_of_busy (j.retried n) (s := s.retried n []) (Nat.sub_pos_of_lt hn)

/-- A busy answer costs a fault, and submitting the job anew leads to the next attempt. -/
theorem attempt_busy (running : s.isShutDown = false) (hp : j.outcome = .pending)
    (hb : (s.attempt j n).answer.outcome = .busy) :
    n < s.faults.busy ∧ (s.attempt j n).answer = (j.retried n).complete .busy ∧
      ∀ delay now, ∃ notBefore,
        ((s.attempt j n).state.submit (s.attempt j n).answer.rearm delay now).state =
          s.retried (n + 1) [⟨j.retried (n + 1), notBefore⟩] := by
  have more : n < s.faults.busy := by
    refine Nat.lt_of_not_le fun none => ?_
    exact (work_of_not_busy (j.retried n) (s := s.retried n []) (Nat.sub_eq_zero_of_le none)).1 hb
  rw [attempt_of_faults j more, Job.rearm_retried hp]
  refine ⟨more, rfl, fun delay now => ⟨if delay = 0 then none else some (now + delay), ?_⟩⟩
  exact congrArg Step.state (submit_of_running (s := { s.retried (n + 1) [] with
    accounting := (s.accounting.retried n).record .jobBusy }) running (j.retried (n + 1)) delay now)

end Software

namespace Host

/-- One call waits on a running engine, patiently, with its job the only one in the queue and not
tried yet. -/
structure Alone (h : Host Software) (ticket : Nat) (c : Call) (j : Job) : Prop where
  held : h.isHeld = true
  running : h.engine.isShutDown = false
  awake : h.engine.paused = false
  queue : h.engine.queue = [⟨j, none⟩]
  call : h.calls[ticket]? = some c
  pending : c.slot = .pending
  waiting : c.isWaiting = true
  unlimited : c.deadline = none
  calm : (c.request.interrupt.bind fun i => (h.interrupts i).reason) = none
  others : ∀ t d, h.calls[t]? = some d → t ≠ ticket → d.isWaiting = false
  recipient : j.recipient = some (.call ticket)
  untried : j.retries = 0
  unanswered : j.outcome = .pending
  counted : ∀ m, c.retry.maxRetries = some m → m ≤ Job.maxRetryCount

/-- The call still waits after so many busy answers. -/
inductive Trying (h : Host Software) (c : Call) (j : Job) (n : Nat) : Host Software → Prop
  | mk (tolerated : c.retry.Tolerates n) (within : n ≤ h.engine.faults.busy)
      (notBefore : Option Nat) (log : List Event) (now : Nat) :
      Trying h c j n
        { h with
          engine := h.engine.retried n [⟨j.retried n, notBefore⟩]
          services := h.services.modify c.request.service (·.retried n)
          log, now }

/-- A host after a call that was tried again so often has got its job. -/
def ended (ticket : Nat) (c : Call) (n : Nat) (job : Job) (engine : Software) (log : List Event)
    (now : Nat) (h : Host Software) : Host Software :=
  { h with
    engine := engine.release job
    services := (h.services.modify c.request.service (·.retried n)).modify c.request.service
      (c.credit job)
    calls := h.calls.set ticket { c with slot := .taken, reply := some (c.ending job).reply }
    log, now }

/-- The call has ended: with the first answer behind all faults, if the policy tolerates them, or
with the busy answer after those that it tolerates. -/
inductive Tried (h : Host Software) (ticket : Nat) (c : Call) (j : Job) : Host Software → Prop
  | answered (tolerated : c.retry.Tolerates h.engine.faults.busy)
      (decided : (h.engine.attempt j h.engine.faults.busy).answer.outcome ≠ .busy)
      (log : List Event) (now : Nat) :
      Tried h ticket c j
        (h.ended ticket c h.engine.faults.busy
          (h.engine.attempt j h.engine.faults.busy).answer
          (h.engine.attempt j h.engine.faults.busy).state log now)
  | exhausted {n : Nat} (bound : c.retry.maxRetries = some n) (more : n < h.engine.faults.busy)
      (log : List Event) (now : Nat) :
      Tried h ticket c j
        (h.ended ticket c n ((j.retried n).complete (.failed Code.again))
          (h.engine.attempt j n).state log now)

variable {h h' : Host Software} {ticket n : Nat} {c : Call} {j : Job}

theorem Alone.trying (a : h.Alone ticket c j) : h.Trying c j 0 h := by
  have untried : j.retried 0 = j := Job.retried_zero (by rw [a.untried]; exact Nat.zero_le _)
  have engine : h.engine.retried 0 [⟨j.retried 0, none⟩] = h.engine := by
    rw [untried, ← a.queue]
    rfl
  have services : h.services.modify c.request.service (·.retried 0) = h.services :=
    List.modify_id _ _
  have first : h.Trying c j 0 _ :=
    .mk (fun m _ => Nat.zero_le m) (Nat.zero_le _) none h.log h.now
  rwa [engine, services] at first

theorem Alone.allows_iff (a : h.Alone ticket c j) (ht : c.retry.Tolerates n) :
    c.retry.allows (j.retried n).retries = true ↔ c.retry.Tolerates (n + 1) := by
  rw [RetryPolicy.allows_iff]
  refine forall_congr' fun m => imp_congr_right fun hm => ?_
  have enough := ht m hm
  have bound := a.counted m hm
  simp only [Job.retried, a.untried]
  omega

theorem Alone.concluded (a : h.Alone ticket c j) (tolerated : c.retry.Tolerates n)
    (within : n ≤ h.engine.faults.busy) {job : Job} {exhausted : Bool}
    (settled : c.react (h.engine.attempt j n).answer = .settle job exhausted) (log : List Event)
    (now : Nat) :
    h.Tried ticket c j (h.ended ticket c n job (h.engine.attempt j n).state log now) := by
  rcases Call.settle_of_pending a.pending settled with ⟨decided, rfl⟩ | ⟨busy, rfl⟩
  · obtain rfl : h.engine.faults.busy = n := by
      refine Nat.le_antisymm (Nat.not_lt.mp fun more => decided ?_) within
      rw [Software.attempt_of_faults j more]
      rfl
    exact .answered tolerated decided log now
  · obtain ⟨more, answer, -⟩ := Software.attempt_busy a.running a.unanswered busy
    have refused : ¬ c.retry.Tolerates (n + 1) := by
      intro again
      have allowed := (a.allows_iff tolerated).mpr again
      simp [Call.react, answer, a.pending, Slot.isAbandoned, Job.complete, allowed] at settled
    rw [answer]
    exact .exhausted (RetryPolicy.maxRetries_of_exhausted tolerated refused) more log now

/-- One more attempt: the job is tried again, or the call ends. -/
theorem Trying.handOver (a : h.Alone ticket c j) (t : h.Trying c j n h') {step : Step Software Job}
    (hs : h'.engine.handBack h'.now = some step) :
    n < h.engine.faults.busy ∧ h.Trying c j (n + 1) (h'.handOver Software.engine step) ∨
      h.Tried ticket c j (h'.handOver Software.engine step) := by
  cases t with
  | mk tolerated within notBefore log now =>
    obtain rfl : h.engine.attempt j n = step := by
      rw [Software.handBack_retried a.running a.awake] at hs
      split at hs
      · exact Option.some.inj hs
      · cases hs
    have own : (h.engine.attempt j n).answer.recipient = some (.call ticket) := by
      obtain ⟨output, outcome, hanswer, -⟩ :=
        Software.work_spec (j.retried n) (h.engine.retried n [])
      rw [Software.attempt, hanswer]
      exact a.recipient
    have handed := handOver_spec (E := Software.engine) (h := { h with
      engine := h.engine.retried n [⟨j.retried n, notBefore⟩]
      services := h.services.modify c.request.service (·.retried n)
      log, now }) own a.call a.waiting a.pending
    generalize Host.handOver Software.engine _ _ = h'' at handed
    cases handed with
    | resubmitted busy allowed log =>
      obtain ⟨more, answer, again⟩ := Software.attempt_busy a.running a.unanswered busy
      obtain ⟨notBefore, submitted⟩ := again c.retry.backoff now
      have engine : (Software.engine.submit (h.engine.attempt j n).answer.rearm c.retry.backoff now
          (h.engine.attempt j n).state).state =
          h.engine.retried (n + 1) [⟨j.retried (n + 1), notBefore⟩] := submitted
      have services : (h.services.modify c.request.service (·.retried n)).modify c.request.service
          (·.count .busyRetries) = h.services.modify c.request.service (·.retried (n + 1)) :=
        List.modify_modify_eq _ _ _ _
      refine .inl ⟨more, ?_⟩
      dsimp only
      rw [engine, services]
      rw [answer] at allowed
      exact .mk ((a.allows_iff tolerated).mp allowed) more notBefore log now
    | concluded settled log => exact .inr (a.concluded tolerated within settled log now)

theorem Trying.held (a : h.Alone ticket c j) (t : h.Trying c j n h') : h'.isHeld = true := by
  cases t with
  | mk => exact a.held

/-- Nobody finds a reason to end a wait. -/
theorem Trying.still (a : h.Alone ticket c j) (t : h.Trying c j n h') (other : Nat) :
    h'.look Software.engine other = h' := by
  cases t with
  | mk tolerated within notBefore log now =>
    by_cases own : other = ticket
    · subst own
      refine look_of_arrival_none a.call ?_
      rw [arrival, a.pending, a.unlimited]
      exact congrArg (fun reason => (Slot.pending.look reason false).1) a.calm
    · exact look_of_ended fun d hd => a.others other d hd own

theorem Trying.reply (a : h.Alone ticket c j) (t : h.Trying c j n h') :
    h'.reply? ticket = none := by
  cases t with
  | mk => exact reply?_of_waiting a.call a.waiting

/-- A call has its reply, no other waits, and the engine has nothing left. -/
structure Finished (h' : Host Software) (ticket : Nat) : Prop where
  held : h'.isHeld = true
  still : ∀ other, h'.look Software.engine other = h'
  rest : ∀ now, h'.engine.handBack now = none
  reply : (h'.reply? ticket).isSome = true

theorem Alone.finished (a : h.Alone ticket c j) (n : Nat) (job : Job) (log : List Event)
    (now : Nat) :
    (h.ended ticket c n job (h.engine.attempt j n).state log now).Finished ticket where
  held := a.held
  still other := by
    refine look_of_ended fun d hd => ?_
    by_cases own : ticket = other
    · subst own
      rw [ended, List.getElem?_set_self (List.getElem?_eq_some_iff.mp a.call).1] at hd
      cases hd
      rfl
    · rw [ended, List.getElem?_set_ne own] at hd
      exact a.others other d hd (Ne.symm own)
  rest now := by
    obtain ⟨hqueue, hrunning, hawake, -⟩ := Software.attempt_frame j n h.engine
    rw [ended, Software.handBack_of_running (s := (h.engine.attempt j n).state.release job)
      (hrunning.trans a.running) (hawake.trans a.awake), Software.release, Software.takeBack, Software.record]
    dsimp only
    rw [hqueue]
    rfl
  reply := by
    rw [reply?, ended, List.getElem?_set_self (List.getElem?_eq_some_iff.mp a.call).1]
    rfl

theorem Tried.finished (a : h.Alone ticket c j) (t : h.Tried ticket c j h') :
    h'.Finished ticket := by
  cases t with
  | answered => exact a.finished _ _ _ _
  | exhausted => exact a.finished _ _ _ _

/-- With patience for all faults left, the worker goes on until the call has ended or the job is
put off; a job that may start is not put off without an attempt. -/
theorem Trying.deliverNext (a : h.Alone ticket c j) (m : Nat) (t : h.Trying c j n h')
    (hm : h.engine.faults.busy < n + m) :
    h.Tried ticket c j (h'.deliverNext Software.engine m) ∨
      ∃ k, h.Trying c j k (h'.deliverNext Software.engine m) ∧
        (h'.deliverNext Software.engine m).engine.handBack
          (h'.deliverNext Software.engine m).now = none ∧
        n ≤ k ∧ ((h'.engine.handBack h'.now).isSome = true → n < k) := by
  induction m generalizing n h' with
  | zero =>
    cases t with
    | mk tolerated within => omega
  | succ m ih =>
    cases hs : h'.engine.handBack h'.now with
    | none =>
      rw [deliverNext_of_none hs]
      exact .inr ⟨n, t, hs, Nat.le_refl n, nofun⟩
    | some step =>
      rw [deliverNext_succ (E := Software.engine) hs]
      rcases t.handOver a hs with ⟨-, next⟩ | tried
      · rcases ih next (by omega) with tried | ⟨k, trying, rest, more, -⟩
        · exact .inl tried
        · exact .inr ⟨k, trying, rest, Nat.le_of_succ_le more, fun _ => more⟩
      · rw [deliverNext_of_none (E := Software.engine) ((tried.finished a).rest _)]
        exact .inl tried

theorem Trying.backlog (t : h.Trying c j n h') :
    h.engine.faults.busy < n + Software.engine.backlog h'.engine := by
  cases t with
  | mk tolerated within =>
    simp only [Software.engine, Software.retried, List.length_singleton]
    omega

/-- A job that was put off is what is waited for. -/
theorem Trying.nextInstant (a : h.Alone ticket c j) (t : h.Trying c j n h')
    (rest : h'.engine.handBack h'.now = none) :
    ∃ instant, h'.nextInstant Software.engine = some instant ∧
      (h'.engine.handBack (max h'.now instant)).isSome = true := by
  cases t with
  | mk tolerated within notBefore log now =>
    rw [Software.handBack_retried a.running a.awake] at rest
    cases notBefore with
    | none => simp at rest
    | some instant =>
      have silent : h.calls.filterMap Call.expiry = [] := by
        refine List.filterMap_eq_nil_iff.mpr fun d hd => ?_
        obtain ⟨t, ht⟩ := List.getElem?_of_mem hd
        by_cases own : t = ticket
        · subst own
          obtain rfl : c = d := Option.some.inj (a.call.symm.trans ht)
          rw [Call.expiry, a.unlimited, ite_self]
        · rw [Call.expiry, a.others t d ht own, if_neg Bool.false_ne_true]
      refine ⟨instant, ?_, ?_⟩
      · simp [Host.nextInstant, silent, Software.engine, Software.wake, Software.retried, a.running,
          a.awake, Queue.nextDeadline]
      · rw [Software.handBack_retried a.running a.awake, if_pos]
        · rfl
        · exact decide_eq_true (Nat.le_max_right now instant)

theorem Trying.advance (a : h.Alone ticket c j) (t : h.Trying c j n h') {instant : Nat}
    (ready : (h'.engine.handBack (max h'.now instant)).isSome = true) :
    h.Tried ticket c j (h'.advance Software.engine instant) ∨
      ∃ k, h.Trying c j k (h'.advance Software.engine instant) ∧
        (h'.advance Software.engine instant).engine.handBack
          (h'.advance Software.engine instant).now = none ∧ n < k := by
  have later : h.Trying c j n { h' with now := max h'.now instant } := by
    cases t with
    | mk tolerated within notBefore log now => exact .mk tolerated within notBefore log _
  rcases later.deliverNext a _ later.backlog with tried | ⟨k, trying, rest, -, more⟩
  · rw [advance_of_still (tried.finished a).still (tried.finished a).held]
    exact .inl tried
  · rw [advance_of_still (trying.still a) (trying.held a)]
    exact .inr ⟨k, trying, rest, more ready⟩

/-- Waiting for the reply gets it. -/
theorem Trying.passUntil (a : h.Alone ticket c j) (m : Nat) (t : h.Trying c j n h')
    (rest : h'.engine.handBack h'.now = none) (hm : h.engine.faults.busy < n + m) :
    h.Tried ticket c j (h'.passUntil Software.engine
      (fun h => (h.reply? ticket).isSome) none m) := by
  induction m generalizing n h' with
  | zero =>
    cases t with
    | mk tolerated within => omega
  | succ m ih =>
    obtain ⟨instant, next, ready⟩ := t.nextInstant a rest
    rw [Host.passUntil, t.reply a, next]
    simp only [Option.isSome_none, Bool.false_eq_true, if_false, Option.any_none]
    rcases t.advance a ready with tried | ⟨k, trying, rest, more⟩
    · rwa [passUntil_of_done (tried.finished a).reply]
    · exact ih trying rest (by omega)

/-- A request that is alone with the worker is performed by a number of attempts. -/
theorem Alone.perform (a : h.Alone ticket c j) {h₀ : Host Software} {s : Service} {r : Request}
    (he : h₀.enter Software.engine s r = (.ok ticket, h)) :
    ∃ h', h₀.perform Software.engine s r = (h'.reply? ticket, h') ∧ h.Tried ticket c j h' := by
  rw [Host.perform, start, he]
  dsimp only [drain]
  rcases a.trying.deliverNext a _ a.trying.backlog with tried | ⟨k, trying, rest, -⟩
  · rw [(tried.finished a).still, await, passUntil_of_done (tried.finished a).reply]
    exact ⟨_, rfl, tried⟩
  · rw [trying.still a, await]
    refine ⟨_, rfl, trying.passUntil a _ rest ?_⟩
    have enough := trying.backlog
    rw [instants]
    omega

end Host
end PacketAuth
