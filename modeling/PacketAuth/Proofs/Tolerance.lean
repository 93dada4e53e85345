import PacketAuth.Proofs.Attempts
import PacketAuth.Proofs.Waking

/-! Busy answers within the policy leave no trace but in the counters, those beyond it fail the
call, and the pause between two attempts makes no difference. -/
namespace PacketAuth

theorem Job.process_retried (sessions : Sessions) (j : Job) (n : Nat) :
    (j.retried n).process sessions =
      ((j.process sessions).1.retried n, (j.process sessions).2) := by
  obtain ⟨id, descriptor, input, output, outcome, retries, recipient⟩ := j
  cases descriptor with
  | none => rfl
  | some d =>
    by_cases short : input.length < d.skip + d.length
    · simp only [process, if_pos short]
      exact if_pos short
    · cases hk : sessions.key? d.session with
      | none => simp only [process, retried, hk, ite_self]
      | some key =>
        simp only [process, if_neg short, hk]
        refine (if_neg short).trans ?_
        simp only [retried, hk]

theorem Accounting.record_retried (a : Accounting) (e : Entry) (n : Nat) :
    (a.retried n).record e = (a.record e).retried n := by
  cases e <;> simp [retried, record, Nat.add_right_comm]

namespace Software

/-- The worker does not care how often a job was tried. -/
theorem work_retried (j : Job) (s : Software) (n : Nat) :
    work (j.retried n) { s with accounting := s.accounting.retried n } =
      ⟨(work j s).answer.retried n,
        { (work j s).state with accounting := (work j s).state.accounting.retried n },
        (work j s).events⟩ := by
  unfold work Faults.next
  rw [Job.process_retried]
  split_ifs <;> simp only [record, Accounting.record_retried] <;> rfl

/-- The attempt behind all faults is the one on an engine without any. -/
theorem attempt_tolerated {j : Job} (hj : j.retries = 0) (s : Software) :
    s.attempt j s.faults.busy =
      ⟨((s.injectBusy 0).attempt j 0).answer.retried s.faults.busy,
        { ((s.injectBusy 0).attempt j 0).state with
          accounting :=
            ((s.injectBusy 0).attempt j 0).state.accounting.retried s.faults.busy },
        ((s.injectBusy 0).attempt j 0).events⟩ := by
  have untried : j.retried 0 = j := Job.retried_zero (by rw [hj]; exact Nat.zero_le _)
  have spent : s.retried s.faults.busy [] =
      { (s.injectBusy 0).retried 0 [] with
        accounting := ((s.injectBusy 0).retried 0 []).accounting.retried s.faults.busy } := by
    simp only [retried, injectBusy, Nat.sub_self]
    rfl
  rw [attempt, spent, work_retried, attempt, untried]

theorem createSession_faults {key : AuthKey} {s : Software} {handle : SessionHandle}
    (h : (s.createSession key).answer = .ok handle) :
    (s.createSession key).state.faults = s.faults := by
  unfold createSession at h ⊢
  split_ifs at h ⊢
  rfl

theorem release_free {s : Software} (room : 0 < s.capacity.jobs) (j : Job) :
    (s.release j).pool.free ≠ [] := by
  simp only [release, takeBack, record]
  split_ifs with fits
  · exact List.cons_ne_nil _ _
  · intro none
    rw [none] at fits
    exact fits room

end Software

namespace Service

/-- The service with another pause between two attempts. -/
def paced (backoff : Nat) (s : Service) : Service :=
  { s with config := { s.config with retry := { s.config.retry with backoff } } }

theorem count_retried (s : Service) (d : Stats.Counter) (n : Nat) :
    (s.retried n).count d = (s.count d).retried n := by
  cases d <;> simp [retried, count, Stats.count, Nat.add_right_comm]

end Service

theorem Call.credit_retried (c : Call) (job : Job) (n : Nat) (s : Service) :
    c.credit (job.retried n) (s.retried n) = (c.credit job s).retried n := by
  have same : c.ending (job.retried n) = c.ending job := rfl
  simp only [credit, same]
  cases (c.ending job).cached with
  | none => exact s.count_retried _ n
  | some tag =>
    exact (s.updateLane c.request.lane fun l => { l with cachedTag := tag }).count_retried _ n

theorem Call.credit_paced (c : Call) (job : Job) (d : Nat) (s : Service) :
    ({ c with retry := { c.retry with backoff := d } } : Call).credit job (s.paced d) =
      (c.credit job s).paced d := by
  have same : ({ c with retry := { c.retry with backoff := d } } : Call).ending job =
      c.ending job := rfl
  simp only [credit, same]
  cases (c.ending job).cached <;> rfl

/-- A change of an engine that letting a request in takes no notice of. -/
structure Engine.Overlooks {σ : Type} (E : Engine σ) (f : σ → σ) : Prop where
  createSession : ∀ key s, E.createSession key (f s) =
    ⟨(E.createSession key s).answer, f (E.createSession key s).state,
      (E.createSession key s).events⟩
  acquire : ∀ s, E.acquire (f s) =
    ⟨(E.acquire s).answer, f (E.acquire s).state, (E.acquire s).events⟩
  submit : ∀ job delay now s, E.submit job delay now (f s) =
    ⟨(E.submit job delay now s).answer, f (E.submit job delay now s).state,
      (E.submit job delay now s).events⟩

theorem Software.overlooks_busy (n : Nat) : engine.Overlooks (·.injectBusy n) where
  createSession key s := by
    simp only [engine, createSession, injectBusy]
    split_ifs <;> rfl
  acquire s := by
    simp only [engine, acquire_def, injectBusy]
    split_ifs
    · rfl
    · dsimp only [record]
      cases s.pool.free <;> rfl
  submit job delay now s := by
    simp only [engine, submit, injectBusy]
    split_ifs <;> rfl

namespace Host

section Overlooked
variable {σ : Type} {E : Engine σ} {f : σ → σ} (o : E.Overlooks f)
include o

theorem openSession_mapEngine (i : Nat) (key : AuthKey) (lane : Lane) (h : Host σ) :
    (h.mapEngine f).openSession E i key lane =
      ((h.openSession E i key lane).1, (h.openSession E i key lane).2.mapEngine f) := by
  rw [openSession, openSession]
  cases lane.session with
  | some handle => rfl
  | none =>
    simp only [onEngine, mapEngine, o.createSession]
    cases (E.createSession key h.engine).answer <;> rfl

theorem submitJob_mapEngine (s : Service) (r : Request) (regions : Regions)
    (session : SessionHandle) (job : Job) (h : Host σ) :
    (h.mapEngine f).submitJob E s r regions session job =
      ((h.submitJob E s r regions session job).1,
        (h.submitJob E s r regions session job).2.mapEngine f) := by
  simp only [submitJob_eq, mapEngine, o.submit]

theorem enter_mapEngine (s : Service) (r : Request) (h : Host σ) :
    (h.mapEngine f).enter E s r = ((h.enter E s r).1, (h.enter E s r).2.mapEngine f) := by
  rw [enter, enter]
  cases s.prepare r with
  | error e => rfl
  | ok found =>
    dsimp only
    rw [openSession_mapEngine o]
    rcases h.openSession E r.service s.key found.1 with ⟨session, opened⟩
    cases session with
    | error e => rfl
    | ok session =>
      have ha : (opened.mapEngine f).onEngine E.acquire =
          ((opened.onEngine E.acquire).1, (opened.onEngine E.acquire).2.mapEngine f) := by
        simp only [onEngine, mapEngine, o.acquire]
      dsimp only
      rw [ha]
      rcases opened.onEngine E.acquire with ⟨job, acquired⟩
      cases job with
      | none => rfl
      | some job =>
        dsimp only
        rw [submitJob_mapEngine o]

end Overlooked

variable {h h' : Host Software} {ticket : Nat} {c : Call} {j : Job}

/-- As a host, but for so many more busy answers and retries in the counters, and the log and the
time that come with them. -/
def retried (n i : Nat) (log : List Event) (now : Nat) (h : Host Software) : Host Software :=
  { h with
    engine := { h.engine with accounting := h.engine.accounting.retried n }
    services := h.services.modify i (·.retried n)
    log, now }

/-- How often the jobs of a service were tried again. -/
def retries {σ : Type} (i : Nat) (h : Host σ) : Option Nat := h.services[i]?.map (·.stats.busyRetries)

/-- What letting a request in does to the jobs and the counters. -/
structure Entered (h h' : Host Software) : Prop where
  faults : h'.engine.faults = h.engine.faults
  room : 0 < h'.engine.capacity.jobs
  outstanding : h'.engine.pool.outstanding = h.engine.pool.outstanding + 1
  gauge : h'.engine.accounting.jobsOutstanding = h.engine.accounting.jobsOutstanding + 1
  dispatches : h'.engine.accounting.dispatches = h.engine.accounting.dispatches + 1
  busyOutcomes : h'.engine.accounting.busyOutcomes = h.engine.accounting.busyOutcomes
  retries : ∀ i, h'.retries i = h.retries i

theorem openSession_counts {h opened : Host Software} {i : Nat} {key : AuthKey} {lane : Lane}
    {session : SessionHandle}
    (ho : h.openSession Software.engine i key lane = (.ok session, opened)) :
    opened.engine.faults = h.engine.faults ∧ opened.engine.pool = h.engine.pool ∧
      opened.engine.accounting.jobsOutstanding = h.engine.accounting.jobsOutstanding ∧
      opened.engine.accounting.dispatches = h.engine.accounting.dispatches ∧
      opened.engine.accounting.busyOutcomes = h.engine.accounting.busyOutcomes ∧
      ∀ i, opened.retries i = h.retries i := by
  rw [openSession] at ho
  split at ho
  · obtain ⟨-, rfl⟩ := Prod.mk.inj ho
    exact ⟨rfl, rfl, rfl, rfl, rfl, fun _ => rfl⟩
  · dsimp only [onEngine] at ho
    split at ho
    · rename_i handle created heq
      obtain ⟨ha, rfl⟩ := Prod.mk.inj heq
      obtain ⟨-, rfl⟩ := Prod.mk.inj ho
      obtain ⟨-, hpool, -, haccounting⟩ := Software.createSession_frame key h.engine
      have answer : (h.engine.createSession key).answer = .ok handle := ha
      rw [answer] at haccounting
      refine ⟨?_, hpool, ?_, ?_, ?_, fun k => ?_⟩
      · exact Software.createSession_faults answer
      · exact (congrArg Accounting.jobsOutstanding haccounting).trans rfl
      · exact (congrArg Accounting.dispatches haccounting).trans rfl
      · exact (congrArg Accounting.busyOutcomes haccounting).trans rfl
      · simp only [retries, emit, count, updateService, List.modify_modify_eq, List.getElem?_modify]
        cases h.services[k]? with
        | none => rfl
        | some s =>
          simp only [Option.map_eq_map, Option.map_some]
          split <;> rfl
    · cases (Prod.mk.inj ho).1

theorem Entered.of_enter {h h' : Host Software} {s : Service} {r : Request} {ticket : Nat}
    (he : h.enter Software.engine s r = (.ok ticket, h')) : h.Entered h' := by
  obtain ⟨lane, regions, session, opened, job, hp, ho, ha, -⟩ := enter_ok he
  obtain ⟨log, entered⟩ := enter_of_job hp ho ha
  obtain ⟨-, rfl⟩ := Prod.mk.inj (he.symm.trans entered)
  obtain ⟨faults, pool, gauge, dispatches, busyOutcomes, retries⟩ := openSession_counts ho
  obtain ⟨free, nextJob, hstate, -⟩ := Software.acquire_eq_some ha
  have room : opened.engine.pool.outstanding < opened.engine.capacity.jobs := by
    refine Nat.lt_of_not_le fun full => ?_
    cases ((Software.acquire_eq_none_iff _).mpr full).symm.trans ha
  obtain ⟨queue, returning, submitted, -⟩ := opened.engine.acquire.state.submit_frame
    (r.fill s regions session opened.calls.length job) 0 opened.now
  dsimp only [Software.engine]
  rw [submitted, hstate]
  refine ⟨faults, Nat.zero_lt_of_lt room, ?_, ?_, ?_, busyOutcomes, retries⟩
  · exact congrArg (·.outstanding + 1) pool
  · exact congrArg (· + 1) gauge
  · exact congrArg (· + 1) dispatches

theorem Alone.faultless (a : h.Alone ticket c j) :
    (h.mapEngine (·.injectBusy 0)).Alone ticket c j :=
  ⟨a.held, a.running, a.awake, a.queue, a.call, a.pending, a.waiting, a.unlimited, a.calm, a.others,
    a.recipient, a.untried, a.unanswered, a.counted⟩

/-- A policy that tolerates all busy faults hides them. -/
theorem Tried.tolerated (a : h.Alone ticket c j) (ht : c.retry.Tolerates h.engine.faults.busy)
    (t : h.Tried ticket c j h') {h₀ : Host Software}
    (t₀ : (h.mapEngine (·.injectBusy 0)).Tried ticket c j h₀) :
    h' = h₀.retried h.engine.faults.busy c.request.service h'.log h'.now := by
  cases t with
  | exhausted bound more => exact absurd (ht _ bound) (Nat.not_le.mpr more)
  | answered tolerated decided log now =>
    cases t₀ with
    | exhausted bound more => exact absurd more (Nat.not_lt_zero _)
    | answered tolerated decided log₀ now₀ =>
      have credited : ∀ job : Job,
          ((h.services.modify c.request.service (·.retried h.engine.faults.busy)).modify
            c.request.service (c.credit (job.retried h.engine.faults.busy))) =
          ((h.services.modify c.request.service (·.retried 0)).modify c.request.service
            (c.credit job)).modify c.request.service (·.retried h.engine.faults.busy) := by
        intro job
        simp only [List.modify_modify_eq]
        refine congrArg (h.services.modify c.request.service) (funext fun s => ?_)
        exact c.credit_retried job h.engine.faults.busy s
      rw [ended, Software.attempt_tolerated a.untried, credited]
      rfl

/-- What a call leaves behind that fails after `m` retries on a service, besides its reply. -/
structure GaveUp (h : Host Software) (i m : Nat) (h' : Host Software) : Prop where
  faults : h'.engine.faults = { h.engine.faults with busy := h.engine.faults.busy - m - 1 }
  queue : h'.engine.queue = []
  free : h'.engine.pool.free ≠ []
  outstanding : h'.engine.pool.outstanding = h.engine.pool.outstanding
  gauge : h'.engine.accounting.jobsOutstanding = h.engine.accounting.jobsOutstanding
  dispatches : h'.engine.accounting.dispatches = h.engine.accounting.dispatches + m + 1
  busyOutcomes : h'.engine.accounting.busyOutcomes = h.engine.accounting.busyOutcomes + m + 1
  retries : h'.retries i = (h.retries i).map (· + m)

theorem Tried.gaveUp (a : h.Alone ticket c j) {m : Nat} (bound : c.retry.maxRetries = some m)
    (more : m < h.engine.faults.busy) {h₀ : Host Software} (e : h₀.Entered h)
    (t : h.Tried ticket c j h') :
    h'.reply? ticket = some (.failed c.request ⟨.engineFailed Code.again, none⟩) ∧
      h₀.GaveUp c.request.service m h' := by
  cases t with
  | answered tolerated decided log now => exact absurd (tolerated _ bound) (Nat.not_le.mpr more)
  | @exhausted n bound' _ log now =>
    obtain rfl : m = n := Option.some.inj (bound.symm.trans bound')
    have reply : (c.ending ((j.retried m).complete (.failed Code.again))).reply =
        .failed c.request ⟨.engineFailed Code.again, none⟩ := c.ending_of_not_done nofun
    have out := e.outstanding
    have gauge := e.gauge
    have dispatches := e.dispatches
    have busyOutcomes := e.busyOutcomes
    rw [ended, Software.attempt_of_faults j more]
    refine ⟨?_, ?_, rfl, Software.release_free e.room j, ?_, ?_, ?_, ?_, ?_⟩
    · rw [reply?, List.getElem?_set_self (List.getElem?_eq_some_iff.mp a.call).1, ← reply]
      rfl
    · rw [← e.faults]
      rfl
    · exact Nat.sub_eq_of_eq_add out
    · simp only [Software.release, Software.takeBack, Software.record, Accounting.record]
      exact gauge ▸ Int.add_sub_cancel _ 1
    · simp only [Software.release, Software.takeBack, Software.record, Accounting.record,
        Accounting.retried]
      omega
    · simp only [Software.release, Software.takeBack, Software.record, Accounting.record,
        Accounting.retried]
      omega
    · rw [← e.retries, retries, retries, List.modify_modify_eq, List.getElem?_modify_eq,
        Option.map_eq_map, Option.map_map, Option.map_map]
      refine congrArg (Option.map · _) (funext fun s => ?_)
      exact c.credit_retries _ _

/-- The host on which a call is under way, had its service another pause between two attempts. -/
def paced (ticket : Nat) (c : Call) (backoff : Nat) (log : List Event) (h : Host Software) :
    Host Software :=
  { h with
    services := h.services.modify c.request.service (·.paced backoff)
    calls := h.calls.set ticket { c with retry := { c.retry with backoff } }
    log }

theorem Alone.paced (a : h.Alone ticket c j) (backoff : Nat) (log : List Event) :
    (h.paced ticket c backoff log).Alone ticket { c with retry := { c.retry with backoff } } j where
  held := a.held
  running := a.running
  awake := a.awake
  queue := a.queue
  call := List.getElem?_set_self (List.getElem?_eq_some_iff.mp a.call).1
  pending := a.pending
  waiting := a.waiting
  unlimited := a.unlimited
  calm := a.calm
  others t d hd other := a.others t d ((List.getElem?_set_ne (Ne.symm other)).symm.trans hd) other
  recipient := a.recipient
  untried := a.untried
  unanswered := a.unanswered
  counted := a.counted

theorem openSession_paced {σ : Type} {E : Engine σ} (i : Nat) (key : AuthKey) (lane : Lane)
    (backoff : Nat) (h : Host σ) :
    (h.updateService i (·.paced backoff)).openSession E i key lane =
      ((h.openSession E i key lane).1,
        (h.openSession E i key lane).2.updateService i (·.paced backoff)) := by
  rw [openSession, openSession]
  cases lane.session with
  | some handle => rfl
  | none =>
    simp only [onEngine, updateService]
    cases (E.createSession key h.engine).answer with
    | ok handle => simp only [emit, count, updateService, List.modify_modify_eq]; rfl
    | error e => simp only [emit, count, updateService, List.modify_modify_eq]; rfl

theorem enter_paced {s : Service} {r : Request} (he : h.enter Software.engine s r = (.ok ticket, h'))
    (backoff : Nat) :
    ∃ c log, h'.calls[ticket]? = some c ∧ c.request = r ∧
      (h.updateService r.service (·.paced backoff)).enter Software.engine (s.paced backoff) r =
        (.ok ticket, h'.paced ticket c backoff log) := by
  obtain ⟨lane, regions, session, opened, job, hp, ho, ha, -⟩ := enter_ok he
  obtain ⟨log, entered⟩ := enter_of_job hp ho ha
  obtain ⟨hticket, rfl⟩ := Prod.mk.inj (he.symm.trans entered)
  obtain rfl := Except.ok.inj hticket
  have hp' : (s.paced backoff).prepare r = .ok (lane, regions) := hp
  have ho' := openSession_paced (E := Software.engine) r.service s.key lane backoff h
  rw [ho] at ho'
  obtain ⟨log, entered'⟩ := enter_of_job (s := s.paced backoff) hp' ho' ha
  refine ⟨r.call s regions job opened.now, log, List.getElem?_concat_length, rfl, ?_⟩
  have last : ∀ c d : Call, (opened.calls ++ [c]).set opened.calls.length d = opened.calls ++ [d] :=
    fun c d => by simp
  rw [entered', Host.paced, last]
  rfl

theorem Alone.ended_paced (a : h.Alone ticket c j) (n : Nat) (job : Job) (s : Software)
    (backoff : Nat) (log log₁ log' : List Event) (now now' : Nat) :
    let h' := h.ended ticket c n job s log' now'
    let h₁ := (h.paced ticket c backoff log).ended ticket
      { c with retry := { c.retry with backoff } } n job s log₁ now
    h₁.reply? ticket = h'.reply? ticket ∧ h₁.engine = h'.engine ∧
      h₁.services = h'.services.modify c.request.service (·.paced backoff) := by
  have there := (List.getElem?_eq_some_iff.mp a.call).1
  refine ⟨?_, rfl, ?_⟩
  · rw [reply?, reply?, ended, ended, Host.paced, List.set_set, List.getElem?_set_self there,
      List.getElem?_set_self there]
    rfl
  · simp only [ended, Host.paced, List.modify_modify_eq]
    refine congrArg (h.services.modify c.request.service) (funext fun s => ?_)
    exact c.credit_paced job backoff (s.retried n)

/-- The pause between two attempts decides nothing. -/
theorem Tried.paced (a : h.Alone ticket c j) (t : h.Tried ticket c j h') {backoff : Nat}
    {log : List Event} {h₁ : Host Software}
    (t₁ : (h.paced ticket c backoff log).Tried ticket
      { c with retry := { c.retry with backoff } } j h₁) :
    h₁.reply? ticket = h'.reply? ticket ∧ h₁.engine = h'.engine ∧
      h₁.services = h'.services.modify c.request.service (·.paced backoff) := by
  cases t with
  | answered tolerated decided log now =>
    cases t₁ with
    | answered tolerated₁ decided₁ log₁ now₁ => exact a.ended_paced _ _ _ _ _ _ _ _ _
    | exhausted bound more => exact absurd (tolerated _ bound) (Nat.not_le.mpr more)
  | exhausted bound more log now =>
    cases t₁ with
    | answered tolerated₁ decided₁ log₁ now₁ => exact absurd (tolerated₁ _ bound) (Nat.not_le.mpr more)
    | exhausted bound₁ more₁ log₁ now₁ =>
      obtain rfl := Option.some.inj (bound.symm.trans bound₁)
      exact a.ended_paced _ _ _ _ _ _ _ _ _

end Host

/-- The free jobs are as good as new. -/
theorem Software.keeps_fresh :
    rules.Keeps fun s => ∀ j ∈ s.pool.free, ∃ id, j = .fresh id where
  change hchange h := by
    rw [hchange.frame.2.1]
    exact h
  createSession key s h := by
    rw [show (rules.engine.createSession key s).state.pool = s.pool from
      (createSession_frame key s).2.1]
    exact h
  acquire {s} h := by
    simp only [rules, engine, acquire_def]
    split
    · exact h
    · dsimp only [record]
      split
      · rename_i hfree
        rw [hfree] at h
        exact (List.forall_mem_cons.mp h).2
      · exact List.forall_mem_nil _
  submit job delay now {s} h := by
    obtain ⟨queue, returning, hstate, -⟩ := s.submit_frame job delay now
    rw [show (rules.engine.submit job delay now s).state = _ from hstate]
    exact h
  handBack hstep h := by
    obtain ⟨before, job, after, output, outcome, -, -, -, queue, returning, faults, hstate, -⟩ :=
      handBack_spec hstep
    rw [hstate]
    exact h
  release _ s h := by
    simp only [rules, engine, release, takeBack, record]
    split
    · exact List.forall_mem_cons.mpr ⟨⟨_, rfl⟩, h⟩
    · exact h
  cancel id s h := by
    simp only [rules, engine, cancel]
    split <;> exact h

namespace World
variable {h h' : Host Software} {s : Service} {r : Request} {ticket : Nat}

/-- A request that is let in on an idle engine is alone with the worker. -/
theorem alone_of_entered (custody : Custody ⟨h, []⟩)
    (unused : ∀ j ∈ h.engine.pool.free, ∃ id, j = .fresh id) (idle : h.engine.queue = [])
    (running : h.engine.isShutDown = false) (awake : h.engine.paused = false)
    (hs : h.services[r.service]? = some s) (unlimited : s.config.waitTimeout = none)
    (calm : ∀ i, r.interrupt = some i → (h.interrupts i).reason = none)
    (counted : ∀ m, s.config.retry.maxRetries = some m → m ≤ Job.maxRetryCount)
    (he : h.enter Software.engine s r = (.ok ticket, h')) :
    ∃ c j, h'.Alone ticket c j ∧ c.request = r ∧ c.retry = s.config.retry := by
  have entered : Custody ⟨h', []⟩ :=
    custody.run (entered_run (R := Software.rules) (w := ⟨h, []⟩) .refl hs he)
  have reasons (i : Nat) : (h'.interrupts i).reason = (h.interrupts i).reason := by
    have kept := Host.enter_reason (E := Software.engine) s r h i
    rwa [he] at kept
  obtain ⟨lane, regions, session, opened, job, hp, ho, ha, rfl, hcalls, -, hengine⟩ :=
    Host.enter_ok he
  obtain ⟨hqueue, hpool, hpaused, hshut⟩ := Host.openSession_software ho
  obtain ⟨free, nextJob, hstate, hjob⟩ := Software.acquire_eq_some ha
  obtain ⟨id, rfl⟩ : ∃ id, job = .fresh id := by
    rcases hjob with ⟨hfree, -⟩ | ⟨-, -, rfl, -⟩
    · exact unused job (hpool ▸ hfree ▸ List.mem_cons_self)
    · exact ⟨_, rfl⟩
  have acquired : opened.engine.acquire.state.isShutDown = false :=
    (Software.acquire_isShutDown _).trans (hshut.trans running)
  refine ⟨r.call s regions (.fresh id) h.now, r.fill s regions session h.calls.length (.fresh id),
    ⟨entered.held, ?_, ?_, ?_, ?_, rfl, rfl, ?_, ?_, fun t d hd other => ?_, rfl, rfl, rfl, counted⟩,
    rfl, rfl⟩
  · rw [hengine]
    exact (Software.submit_isShutDown _ _ _ _).trans acquired
  · rw [hengine]
    exact (Software.submit_paused _ _ _ _).trans
      ((Software.acquire_paused _).trans (hpaused.trans awake))
  · rw [hengine]
    refine (congrArg (·.state.queue) (Software.submit_of_running acquired _ 0 h.now)).trans ?_
    rw [Software.acquire_queue, hqueue, idle]
    rfl
  · rw [hcalls, List.getElem?_concat_length]
  · rw [Request.call, unlimited]
    rfl
  · cases hi : r.interrupt with
    | none => simp [Request.call, hi]
    | some i => simp [Request.call, hi, reasons, calm i hi]
  · rw [hcalls, getElem?_concat_of_ne other] at hd
    exact custody.ended_of_idle (custody.failing running) idle d (List.mem_of_getElem? hd)

/-- Busy answers do not show within the bound of the policy. A request that is let in on an idle
engine, and has nothing that would end its wait early, gets the reply and leaves the host that it
would without busy faults, but for their number in three counters; beyond the bound it fails, and
its job is back in the pool. How long it pauses between two attempts changes nothing of it. -/
theorem busy_answers_do_not_show {capacity : Capacity} {w : World Software}
    (reach : Run Software.rules (fresh capacity) w) (rests : w.hand = [])
    (idle : w.host.engine.queue = []) (running : w.host.engine.isShutDown = false)
    (awake : w.host.engine.paused = false) {s : Service} {r : Request}
    (hs : w.host.services[r.service]? = some s) (unlimited : s.config.waitTimeout = none)
    (calm : ∀ i, r.interrupt = some i → (w.host.interrupts i).reason = none)
    (counted : ∀ m, s.config.retry.maxRetries = some m → m ≤ Job.maxRetryCount)
    {ticket : Nat} {h' : Host Software}
    (he : w.host.enter Software.engine s r = (.ok ticket, h')) :
    let busy := w.host.engine.faults.busy
    ∃ reply final, w.host.perform Software.engine s r = (some reply, final) ∧
      (s.config.retry.Tolerates busy → ∃ spared,
        (w.host.mapEngine (·.injectBusy 0)).perform Software.engine s r = (some reply, spared) ∧
          final = spared.retried busy r.service final.log final.now) ∧
      (∀ m, s.config.retry.maxRetries = some m → m < busy →
        reply = .failed r ⟨.engineFailed Code.again, none⟩ ∧
          w.host.GaveUp r.service m final) ∧
      ∀ backoff, ∃ paced,
        (w.host.updateService r.service (·.paced backoff)).perform Software.engine
          (s.paced backoff) r = (some reply, paced) ∧
        paced.engine = final.engine ∧
        paced.services = final.services.modify r.service (·.paced backoff) := by
  obtain ⟨h, hand⟩ := w
  obtain rfl : hand = [] := rests
  have custody : Custody ⟨h, []⟩ := (Custody.fresh capacity).run reach
  have unused := Software.keeps_fresh.run reach (by simp [fresh, Software.start])
  obtain ⟨c, j, alone, rfl, retry⟩ :=
    alone_of_entered custody unused idle running awake hs unlimited calm counted he
  obtain ⟨final, performed, tried⟩ := alone.perform he
  obtain ⟨reply, replied⟩ := Option.isSome_iff_exists.mp (tried.finished alone).reply
  have entered := Host.Entered.of_enter he
  have faults : h'.engine.faults.busy = h.engine.faults.busy := congrArg Faults.busy entered.faults
  refine ⟨reply, final, replied ▸ performed, fun tolerates => ?_, fun m bound more => ?_,
    fun backoff => ?_⟩
  · have entered₀ := Host.enter_mapEngine (Software.overlooks_busy 0) s c.request h
    rw [he] at entered₀
    obtain ⟨spared, performed₀, tried₀⟩ := alone.faultless.perform entered₀
    have same := tried.tolerated alone (retry ▸ faults ▸ tolerates) tried₀
    rw [faults] at same
    refine ⟨spared, ?_, same⟩
    rw [performed₀, ← replied, same]
    rfl
  · obtain ⟨failed, gaveUp⟩ := tried.gaveUp alone (retry ▸ bound) (faults ▸ more) entered
    exact ⟨Option.some.inj (replied.symm.trans failed), gaveUp⟩
  · obtain ⟨d, log, hd, hr, entered₁⟩ := Host.enter_paced he backoff
    obtain rfl : c = d := Option.some.inj (alone.call.symm.trans hd)
    obtain ⟨paced, performed₁, tried₁⟩ := (alone.paced backoff log).perform entered₁
    obtain ⟨same, engine, services⟩ := tried.paced alone tried₁
    refine ⟨paced, ?_, engine, services⟩
    rw [performed₁, same, replied]

/-- Two busy answers do not show under a policy of two retries, and are too many for one. -/
theorem two_busy_answers_against_two_policies :
    (∃ (w : World Software) (s : Service) (r : Request) (reply : Reply)
      (final spared : Host Software),
      Run Software.rules (fresh {}) w ∧ w.host.engine.faults.busy = 2 ∧
        s.config.retry = .bounded 2 ∧
        w.host.perform Software.engine s r = (some reply, final) ∧
        (w.host.mapEngine (·.injectBusy 0)).perform Software.engine s r = (some reply, spared) ∧
        final = spared.retried 2 r.service final.log final.now) ∧
      ∃ (w : World Software) (s : Service) (r : Request) (final : Host Software),
        Run Software.rules (fresh {}) w ∧ w.host.engine.faults.busy = 2 ∧
          s.config.retry = .bounded 1 ∧
          w.host.perform Software.engine s r =
            (some (.failed r ⟨.engineFailed Code.again, none⟩), final) ∧
          w.host.GaveUp r.service 1 final := by
  have scene (p : RetryPolicy) (counted : ∀ m, p.maxRetries = some m → m ≤ Job.maxRetryCount) :
      ∃ (w : World Software) (s : Service) (r : Request) (reply : Reply) (final : Host Software),
        Run Software.rules (fresh {}) w ∧ w.host.engine.faults.busy = 2 ∧ s.config.retry = p ∧
          w.host.perform Software.engine s r = (some reply, final) ∧
          (p.Tolerates 2 → ∃ spared,
            (w.host.mapEngine (·.injectBusy 0)).perform Software.engine s r =
              (some reply, spared) ∧
            final = spared.retried 2 r.service final.log final.now) ∧
          ∀ m, p.maxRetries = some m → m < 2 →
            reply = .failed r ⟨.engineFailed Code.again, none⟩ ∧
              w.host.GaveUp r.service m final := by
    let b : Builder := { key := some (.ofSeed 1), config := { retry := p } }
    let s : Service := .create { retry := p } (.ofSeed 1)
    let r : Request := ⟨0, ⟨0⟩, .write, List.replicate 20 0, 20, none⟩
    let installed : World Software := ⟨((fresh {}).host.install b).2, []⟩
    let w : World Software :=
      ⟨{ installed.host with engine := installed.host.engine.injectBusy 2 }, []⟩
    have installing : Run Software.rules (fresh {}) installed := .single (.install _ b)
    have reach : Run Software.rules (fresh {}) w :=
      installing.tail (Next.change (R := Software.rules) installed (.injectBusy _ 2))
    have hs : w.host.services[r.service]? = some s := rfl
    obtain ⟨ticket, h', he⟩ : ∃ ticket h', w.host.enter Software.engine s r = (.ok ticket, h') :=
      ⟨_, _, rfl⟩
    have busy : w.host.engine.faults.busy = 2 := rfl
    obtain ⟨reply, final, performed, tolerated, exhausted, -⟩ :=
      busy_answers_do_not_show reach rfl rfl rfl rfl hs rfl nofun counted he
    exact ⟨w, s, r, reply, final, reach, busy, rfl, performed, tolerated, exhausted⟩
  obtain ⟨w, s, r, reply, final, reach, busy, retry, performed, tolerated, -⟩ :=
    scene (.bounded 2) (by decide)
  obtain ⟨w₁, s₁, r₁, reply₁, final₁, reach₁, busy₁, retry₁, performed₁, -, exhausted⟩ :=
    scene (.bounded 1) (by decide)
  obtain ⟨spared, performed₀, same⟩ := tolerated fun m hm => Nat.le_of_eq (Option.some.inj hm)
  obtain ⟨rfl, gaveUp⟩ := exhausted 1 rfl (by decide)
  exact ⟨⟨w, s, r, reply, final, spared, reach, busy, retry, performed, performed₀, same⟩,
    w₁, s₁, r₁, final₁, reach₁, busy₁, retry₁, performed₁, gaveUp⟩

/-- A busy job that the worker has in hand may use up a fault in between: then a call gets past two
busy faults with one retry, and meets the fault behind them. -/
theorem busy_job_in_hand_uses_up_a_fault :
    ∃ (w : World Software) (s : Service) (r : Request) (ticket : Nat) (h' : Host Software),
      Run Software.rules (fresh {}) w ∧ w.host.engine.queue = [] ∧
        w.host.engine.isShutDown = false ∧ w.host.engine.paused = false ∧
        w.host.engine.faults.busy = 2 ∧ w.host.services[r.service]? = some s ∧
        s.config.waitTimeout = none ∧ r.interrupt = none ∧ s.config.retry = .bounded 1 ∧
        w.host.enter Software.engine s r = (.ok ticket, h') ∧
        ((drained Software.engine ⟨h', w.hand⟩).reply? ticket).map Reply.result =
          some (.error ⟨.engineFailed 5, none⟩) ∧ (5 : Int32) ≠ Code.again := by
  let config : Config := { retry := .bounded 1 }
  let s : Service := .create config (.ofSeed 1)
  let s' : Service :=
    (s.updateLane ⟨0⟩ fun l => { l with session := some ⟨1⟩ }).count .sessionsCreated
  let r : Request := ⟨0, ⟨0⟩, .write, List.replicate 20 0, 20, none⟩
  let installed : World Software :=
    ⟨((fresh {}).host.install { key := some (.ofSeed 1), config }).2, []⟩
  let busy : World Software :=
    ⟨{ installed.host with engine := installed.host.engine.injectBusy 3 }, []⟩
  let faulty : World Software :=
    ⟨{ busy.host with engine := busy.host.engine.injectJobFailures 1 5 }, []⟩
  let entered : World Software := ⟨(faulty.host.enter Software.engine s r).2, []⟩
  let step := (entered.host.engine.handBack entered.host.now).get rfl
  let w : World Software :=
    ⟨{ entered.host with
        engine := step.state, log := step.events.reverse ++ entered.host.log }, [step.answer]⟩
  have entering : Run Software.rules (fresh {}) entered :=
    (((Relation.ReflTransGen.single (.install (fresh {}) _)).tail
      (Next.change (R := Software.rules) installed (.injectBusy _ 3))).tail
      (Next.change (R := Software.rules) busy (.injectJobFailures _ 1 5))).tail
      (.enter (R := Software.rules) faulty (s := s) (r := r) rfl)
  have taking : Next Software.rules entered w := .take entered (Option.some_get _).symm
  have second : (w.host.enter Software.engine s' r).1.toOption = some 1 := by decide +kernel
  obtain ⟨h', he⟩ := enter_of_toOption second
  have failed : ((drained Software.engine
      ⟨(w.host.enter Software.engine s' r).2, w.hand⟩).reply? 1).map Reply.result =
        some (.error ⟨.engineFailed 5, none⟩) := by decide +kernel
  rw [he] at failed
  exact ⟨w, s', r, 1, h', entering.tail taking, by decide +kernel, by decide +kernel,
    by decide +kernel, by decide +kernel, rfl, rfl, rfl, rfl, he, failed, by decide⟩

end World
end PacketAuth
