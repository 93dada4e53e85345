import PacketAuth.Engine.Software
import PacketAuth.Proofs.Effect
import Mathlib.Tactic.SplitIfs

/-! What each operation of the engine in software does to its queue, its pool and its counters,
and the worlds that can be reached from a new one. -/
namespace PacketAuth

theorem mem_of_removed {α : Type} {x y : α} {before after : List α} (h : x ∈ before ++ after) :
    x ∈ before ++ y :: after :=
  ((List.sublist_cons_self y after).append_left before).subset h

namespace Queue

theorem popReady_eq_some {now : Nat} {queue rest : List Queued} {job : Job}
    (h : popReady now queue = some (job, rest)) :
    ∃ before q after, queue = before ++ q :: after ∧ rest = before ++ after ∧ job = q.job ∧
      q.isReady now = true ∧ ∀ x ∈ before, x.isReady now = false := by
  induction queue generalizing rest with
  | nil => simp [popReady] at h
  | cons q queue ih =>
    rw [popReady] at h
    split at h
    · rename_i hready
      cases h
      exact ⟨[], q, _, rfl, rfl, rfl, hready, fun _ hx => by cases hx⟩
    · rename_i hready
      obtain ⟨⟨job', rest'⟩, hr, heq⟩ := Option.map_eq_some_iff.mp h
      obtain ⟨rfl, rfl⟩ := Prod.mk.inj heq
      obtain ⟨before, x, after, rfl, rfl, rfl, hx, deferred⟩ := ih hr
      exact ⟨q :: before, x, after, rfl, rfl, rfl, hx,
        List.forall_mem_cons.mpr ⟨eq_false_of_ne_true hready, deferred⟩⟩

theorem popReady_eq_none {now : Nat} {queue : List Queued} (h : popReady now queue = none) :
    ∀ q ∈ queue, q.isReady now = false := by
  induction queue with
  | nil => simp
  | cons q queue ih =>
    rw [popReady] at h
    split at h
    · cases h
    · rename_i hready
      intro x hx
      rcases List.mem_cons.mp hx with rfl | hx
      · exact eq_false_of_ne_true hready
      · exact ih (Option.map_eq_none_iff.mp h) x hx

theorem remove_eq_some {id : JobId} {queue rest : List Queued} {job : Job}
    (h : remove id queue = some (job, rest)) :
    ∃ before q after, queue = before ++ q :: after ∧ rest = before ++ after ∧ job = q.job ∧
      q.job.id = id := by
  induction queue generalizing rest with
  | nil => simp [remove] at h
  | cons q queue ih =>
    rw [remove] at h
    split at h
    · rename_i hid
      cases h
      exact ⟨[], q, _, rfl, rfl, rfl, hid⟩
    · obtain ⟨⟨job', rest'⟩, hr, heq⟩ := Option.map_eq_some_iff.mp h
      obtain ⟨rfl, rfl⟩ := Prod.mk.inj heq
      obtain ⟨before, x, after, rfl, rfl, rfl, hid⟩ := ih hr
      exact ⟨q :: before, x, after, rfl, rfl, rfl, hid⟩

/-- A job behind all others is removed from the end. -/
theorem remove_append {id : JobId} {queue : List Queued} {q : Queued}
    (hn : ∀ x ∈ queue, x.job.id ≠ id) (hq : q.job.id = id) :
    remove id (queue ++ [q]) = some (q.job, queue) := by
  induction queue with
  | nil => simp [remove, hq]
  | cons x queue ih =>
    obtain ⟨hx, hrest⟩ := List.forall_mem_cons.mp hn
    rw [List.cons_append, remove, if_neg hx, ih hrest]
    rfl

theorem remove_eq_none {id : JobId} {queue : List Queued} (h : remove id queue = none) :
    ∀ q ∈ queue, q.job.id ≠ id := by
  induction queue with
  | nil => simp
  | cons q queue ih =>
    rw [remove] at h
    split at h
    · cases h
    · rename_i hid
      intro x hx
      rcases List.mem_cons.mp hx with rfl | hx
      · exact hid
      · exact ih (Option.map_eq_none_iff.mp h) x hx

end Queue

namespace Software

/-- What a host may do to the engine beside its calls, and what its worker does at its end. -/
inductive Change : Software → Step Software Unit → Prop
  | pause (s : Software) : Change s ⟨(), s.pause, []⟩
  | resume (s : Software) : Change s ⟨(), s.resume, []⟩
  | shutDown (s : Software) : Change s ⟨(), s.shutDown, []⟩
  | stop (s : Software) : Change s s.stop
  | clearFaults (s : Software) : Change s ⟨(), s.clearFaults, []⟩
  | injectSessionFailures (s : Software) (n : Nat) : Change s ⟨(), s.injectSessionFailures n, []⟩
  | injectBusy (s : Software) (n : Nat) : Change s ⟨(), s.injectBusy n, []⟩
  | injectJobFailures (s : Software) (n : Nat) (code : Int32) :
      Change s ⟨(), s.injectJobFailures n code, []⟩

def rules : Rules Software := { engine, change := Change }

/-- As `rules`, but no wait looks, and so none ends, while its job is coming back. -/
def promptRules : Rules Software :=
  { engine, change := Change
    mayLook := fun w ticket =>
      ∀ job ∈ w.host.engine.returning ++ w.hand, job.recipient ≠ some (.call ticket) }

/-- The jobs in the queue, in its order. -/
def queued (s : Software) : List Job := s.queue.map Queued.job

/-- The jobs that the engine has: those it fails, and those in the queue. -/
def inside (s : Software) : List Job := s.returning ++ s.queued

/-- One engine has the pool of another, and counts the same jobs as taken from it. -/
structure SamePool (s s' : Software) : Prop where
  pool : s'.pool = s.pool
  nextJob : s'.nextJob = s.nextJob
  acquired : s'.accounting.jobsAcquired = s.accounting.jobsAcquired
  released : s'.accounting.jobsReleased = s.accounting.jobsReleased
  outstanding : s'.accounting.jobsOutstanding = s.accounting.jobsOutstanding

/-- Nothing is pending that forces an outcome on the next job. -/
structure Untroubled (s : Software) : Prop where
  running : s.isShutDown = false
  busy : s.faults.busy = 0
  jobs : s.faults.jobs = 0

/-- One engine has the sessions of another. -/
structure SameSessions (s s' : Software) : Prop where
  sessions : s'.sessions = s.sessions
  nextSession : s'.nextSession = s.nextSession

end Software

namespace World

/-- A new engine, and nothing set up on it. -/
def fresh (capacity : Capacity) : World Software :=
  ⟨{ engine := (Software.start capacity).state
     log := (Software.start capacity).events.reverse }, []⟩

/-- The jobs that were submitted and have not come back. -/
def afloat (w : World Software) : List Job := w.host.engine.inside ++ w.hand

/-- The worker is not in the middle of a job, and no job fails just now. -/
def IsAtRest (w : World Software) : Prop := w.hand = [] ∧ w.host.engine.returning = []

end World

theorem World.IsAtRest.afloat {w : World Software} (h : w.IsAtRest) :
    w.afloat = w.host.engine.queued := by
  rw [World.afloat, Software.inside, h.1, h.2, List.append_nil, List.nil_append]

namespace Software

/-- The worker goes with all that is queued, or there is nothing that it has to do. -/
theorem stop_cases (s : Software) :
    s.isShutDown = true ∧ s.isStopped = false ∧
        s.stop = ⟨(), { s with queue := [], returning := s.returning ++ s.queued, isStopped := true },
          [.engineStopping s.queue.length]⟩ ∨
      s.stop = ⟨(), s, []⟩ := by
  unfold stop
  split
  · rename_i h
    simp only [Bool.and_eq_true, Bool.not_eq_true'] at h
    exact .inl ⟨h.1, h.2, rfl⟩
  · exact .inr rfl

/-- A change keeps the jobs, the sessions and the counters. -/
theorem Change.frame {s : Software} {step : Step Software Unit} (h : Change s step) :
    step.state.inside = s.inside ∧ step.state.pool = s.pool ∧ step.state.nextJob = s.nextJob ∧
      step.state.accounting = s.accounting ∧ SameSessions s step.state := by
  cases h with
  | stop =>
    obtain ⟨-, -, h⟩ | h := s.stop_cases <;> rw [h]
    · exact ⟨by simp [inside, queued], rfl, rfl, rfl, rfl, rfl⟩
    · exact ⟨rfl, rfl, rfl, rfl, rfl, rfl⟩
  | _ => exact ⟨rfl, rfl, rfl, rfl, rfl, rfl⟩

/-- What a change leaves as it was. -/
theorem Change.state_eq {s : Software} {step : Step Software Unit} (h : Change s step) :
    ∃ queue returning paused isShutDown isStopped faults, step.state =
      { s with queue, returning, paused, isShutDown, isStopped, faults } := by
  cases h with
  | stop =>
    obtain ⟨-, -, h⟩ | h := s.stop_cases <;> rw [h] <;> exact ⟨_, _, _, _, _, _, rfl⟩
  | _ => exact ⟨_, _, _, _, _, _, rfl⟩

/-- The queue stays as it is, unless the worker goes with it. -/
theorem Change.queue {s : Software} {step : Step Software Unit} (h : Change s step) :
    step.state.queue = s.queue ∨ s.isShutDown = true ∧ step.state.queue = [] := by
  cases h with
  | stop =>
    obtain ⟨shut, -, h⟩ | h := s.stop_cases <;> rw [h]
    · exact .inr ⟨shut, rfl⟩
    · exact .inl rfl
  | _ => exact .inl rfl

theorem Change.queue_subset {s : Software} {step : Step Software Unit} (h : Change s step) :
    step.state.queue ⊆ s.queue := by
  obtain h | ⟨-, h⟩ := h.queue <;> rw [h]
  · exact List.Subset.refl _
  · exact List.nil_subset _

/-- Nothing sets an engine going again that is at its end. -/
theorem Change.isShutDown {s : Software} {step : Step Software Unit} (h : Change s step)
    (hs : s.isShutDown = true) : step.state.isShutDown = true := by
  cases h with
  | shutDown => rfl
  | stop =>
    obtain ⟨-, -, h⟩ | h := s.stop_cases <;> rw [h] <;> exact hs
  | _ => exact hs

theorem SamePool.refl {s : Software} : SamePool s s := ⟨rfl, rfl, rfl, rfl, rfl⟩

theorem Change.samePool {s : Software} {step : Step Software Unit} (h : Change s step) :
    SamePool s step.state := by
  obtain ⟨-, hp, hn, ha, -⟩ := h.frame
  exact ⟨hp, hn, by rw [ha], by rw [ha], by rw [ha]⟩

theorem createSession_frame (key : AuthKey) (s : Software) :
    let s' := (s.createSession key).state
    s'.queue = s.queue ∧ s'.pool = s.pool ∧ s'.nextJob = s.nextJob ∧
      s'.accounting = s.accounting.record
        (match (s.createSession key).answer with
        | .ok _ => .sessionCreated
        | .error _ => .sessionFailed) := by
  unfold createSession
  split_ifs <;> exact ⟨rfl, rfl, rfl, rfl⟩

theorem createSession_returning (key : AuthKey) (s : Software) :
    (s.createSession key).state.returning = s.returning := by
  unfold createSession
  split_ifs <;> rfl

theorem queued_createSession_subset {key : AuthKey} {s : Software} {j : Job}
    (hj : j ∈ (s.createSession key).state.queued) : j ∈ s.queued := by
  rwa [queued, (createSession_frame key s).1] at hj

theorem createSession_inside (key : AuthKey) (s : Software) :
    (s.createSession key).state.inside = s.inside := by
  rw [inside, queued, createSession_returning, (createSession_frame key s).1]
  rfl

/-- A session that is opened enters the table under a handle of its own. -/
theorem createSession_ok {key : AuthKey} {s : Software} {handle : SessionHandle}
    (h : (s.createSession key).answer = .ok handle) :
    handle = ⟨s.nextSession⟩ ∧
      (s.createSession key).state.sessions = s.sessions ++ [(handle, key)] ∧
      (s.createSession key).state.nextSession = s.nextSession + 1 := by
  unfold createSession at h ⊢
  split_ifs at h ⊢
  cases h
  exact ⟨rfl, rfl, rfl⟩

theorem createSession_of_room (key : AuthKey) {s : Software} (hr : s.isShutDown = false)
    (hf : s.faults.sessions = 0) (hc : s.sessions.length < s.capacity.sessions) :
    (s.createSession key).answer = .ok ⟨s.nextSession⟩ ∧
      (s.createSession key).state.pool = s.pool ∧
      (s.createSession key).state.capacity = s.capacity := by
  unfold createSession
  rw [if_neg (by omega), hr, if_neg Bool.false_ne_true, if_neg (by omega)]
  exact ⟨rfl, rfl, rfl⟩

theorem createSession_error {key : AuthKey} {s : Software} {e : EngineError}
    (h : (s.createSession key).answer = .error e) : SameSessions s (s.createSession key).state := by
  unfold createSession at h ⊢
  split_ifs at h ⊢ <;> cases h <;> exact ⟨rfl, rfl⟩

/-- An engine at its end opens no session. -/
theorem createSession_of_shutDown (key : AuthKey) {s : Software} (h : s.isShutDown = true) :
    ∃ e, (s.createSession key).answer = .error e := by
  unfold createSession
  split_ifs <;> exact ⟨_, rfl⟩

theorem createSession_untroubled {s : Software} (h : s.Untroubled) (key : AuthKey) :
    (s.createSession key).state.Untroubled := by
  obtain ⟨hr, hb, hj⟩ := h
  unfold createSession
  split_ifs <;> exact ⟨hr, hb, hj⟩

theorem createSession_paused (key : AuthKey) (s : Software) :
    (s.createSession key).state.paused = s.paused := by
  unfold createSession
  split_ifs <;> rfl

theorem createSession_isShutDown (key : AuthKey) (s : Software) :
    (s.createSession key).state.isShutDown = s.isShutDown := by
  unfold createSession
  split_ifs <;> rfl

theorem createSession_samePool (key : AuthKey) (s : Software) :
    SamePool s (s.createSession key).state := by
  obtain ⟨-, hp, hn, ha⟩ := createSession_frame key s
  refine ⟨hp, hn, ?_, ?_, ?_⟩ <;> rw [ha] <;> split <;> rfl

theorem acquire_of_lend {s s' : Software} {job : Job} (h : s.lend = some (job, s')) :
    s.acquire = ⟨some job, s'.record .jobAcquired, []⟩ := by
  rw [acquire, h]

theorem acquire_of_lend_none {s : Software} (h : s.lend = none) :
    s.acquire = ⟨none, s.record .acquireFailed, []⟩ := by
  rw [acquire, h]

theorem lend_eq_none_iff (s : Software) : s.lend = none ↔ s.capacity.jobs ≤ s.pool.outstanding := by
  rw [lend]
  split
  · simp [*]
  · simp only [*, iff_false]
    split <;> simp

/-- A job that is lent was free, or it is a new one while no job is free. -/
theorem lend_eq_some {s s' : Software} {job : Job} (h : s.lend = some (job, s')) :
    ∃ free nextJob, s' = { s with pool := ⟨free, s.pool.outstanding + 1⟩, nextJob } ∧
      (s.pool.free = job :: free ∧ nextJob = s.nextJob ∨
        s.pool.free = [] ∧ free = [] ∧ job = .fresh ⟨s.nextJob⟩ ∧ nextJob = s.nextJob + 1) := by
  rw [lend] at h
  split at h
  · cases h
  · split at h
    · rename_i first free hfree
      cases h
      exact ⟨free, s.nextJob, rfl, .inl ⟨hfree, rfl⟩⟩
    · rename_i hfree
      cases h
      exact ⟨[], s.nextJob + 1, rfl, .inr ⟨hfree, rfl, rfl, rfl⟩⟩

/-- A job is acquired if it is lent. -/
theorem lend_of_acquire {s : Software} {job : Job} (h : s.acquire.answer = some job) :
    ∃ s', s.lend = some (job, s') ∧ s.acquire.state = s'.record .jobAcquired := by
  cases hl : s.lend with
  | none => simp [acquire_of_lend_none hl] at h
  | some found =>
    obtain ⟨job', s'⟩ := found
    rw [acquire_of_lend hl] at h ⊢
    cases h
    exact ⟨s', rfl, rfl⟩

theorem acquire_def (s : Software) :
    s.acquire =
      if s.capacity.jobs ≤ s.pool.outstanding then ⟨none, s.record .acquireFailed, []⟩
      else
        match s.pool.free with
        | job :: free =>
          ⟨some job, { s.record .jobAcquired with pool := ⟨free, s.pool.outstanding + 1⟩ }, []⟩
        | [] =>
          ⟨some (.fresh ⟨s.nextJob⟩),
            { s.record .jobAcquired with
              pool := ⟨[], s.pool.outstanding + 1⟩, nextJob := s.nextJob + 1 }, []⟩ := by
  rw [acquire, lend]
  split_ifs
  · rfl
  · cases s.pool.free <;> rfl

/-- A job is to be had exactly while fewer than the capacity are out. -/
theorem acquire_eq_none_iff (s : Software) :
    s.acquire.answer = none ↔ s.capacity.jobs ≤ s.pool.outstanding := by
  rw [← lend_eq_none_iff]
  cases hl : s.lend with
  | none => simp [acquire_of_lend_none hl]
  | some found =>
    obtain ⟨job, s'⟩ := found
    simp [acquire_of_lend hl]

theorem acquire_queue (s : Software) : s.acquire.state.queue = s.queue := by
  rw [acquire_def]
  split
  · rfl
  · dsimp only
    split <;> rfl

theorem queued_acquire_subset {s : Software} {j : Job} (hj : j ∈ s.acquire.state.queued) :
    j ∈ s.queued := by
  rwa [queued, acquire_queue] at hj

theorem acquire_inside (s : Software) : s.acquire.state.inside = s.inside := by
  rw [acquire_def]
  split
  · rfl
  · dsimp only
    split <;> rfl

theorem acquire_paused (s : Software) : s.acquire.state.paused = s.paused := by
  rw [acquire_def]
  split
  · rfl
  · dsimp only
    split <;> rfl

theorem acquire_isShutDown (s : Software) : s.acquire.state.isShutDown = s.isShutDown := by
  rw [acquire_def]
  split
  · rfl
  · dsimp only
    split <;> rfl

theorem acquire_none_state {s : Software} (h : s.acquire.answer = none) :
    s.acquire.state = s.record .acquireFailed := by
  rw [acquire_def, if_pos (s.acquire_eq_none_iff.mp h)]

theorem acquire_none_samePool {s : Software} (h : s.acquire.answer = none) :
    SamePool s s.acquire.state := by
  rw [acquire_none_state h]
  exact ⟨rfl, rfl, rfl, rfl, rfl⟩

/-- An acquired job was free, or none was free and it is a new one. -/
theorem acquire_eq_some {s : Software} {job : Job} (h : s.acquire.answer = some job) :
    ∃ free nextJob,
      s.acquire.state =
        { s.record .jobAcquired with pool := ⟨free, s.pool.outstanding + 1⟩, nextJob } ∧
      (s.pool.free = job :: free ∧ nextJob = s.nextJob ∨
        s.pool.free = [] ∧ free = [] ∧ job = .fresh ⟨s.nextJob⟩ ∧ nextJob = s.nextJob + 1) := by
  obtain ⟨s', hl, hstate⟩ := lend_of_acquire h
  obtain ⟨free, nextJob, rfl, taken⟩ := lend_eq_some hl
  exact ⟨free, nextJob, hstate, taken⟩

/-- What the worker made of a job: forced outcomes and refusals leave its output alone. -/
def Worked (sessions : Sessions) (job : Job) (output : List UInt8) (outcome : Outcome) : Prop :=
  outcome ≠ .pending ∧
    (outcome = .done → ∃ d key, job.descriptor = some d ∧ sessions.key? d.session = some key ∧
      d.skip + d.length ≤ job.input.length ∧
      output = List.replicate d.inject 0 ++
        (Hmac.mac key.bytes ((job.input.drop d.skip).take d.length)).take Tag.size)

/-- A job that the worker got done carries a tag: the head of the digest of its window. -/
theorem Worked.verdict {sessions : Sessions} {job : Job} {output : List UInt8}
    (h : Worked sessions job output .done) :
    ∃ tag d key, ({ job with output, outcome := .done } : Job).verdict = .ok tag ∧
      job.descriptor = some d ∧ sessions.key? d.session = some key ∧
      tag.bytes = (Hmac.mac key.bytes ((job.input.drop d.skip).take d.length)).take Tag.size := by
  obtain ⟨d, key, hd, hk, -, rfl⟩ := h.2 rfl
  let tag : Tag :=
    ⟨(Hmac.mac key.bytes ((job.input.drop d.skip).take d.length)).take Tag.size, by simp [Tag.size]⟩
  refine ⟨tag, d, key, ?_, hd, hk, rfl⟩
  have head := Tag.ofHead?_bytes tag
  simp only [Job.verdict, hd, Option.map_some, Option.getD_some]
  rw [List.drop_left' List.length_replicate, head]

theorem process_spec (sessions : Sessions) (job : Job) :
    ∃ output outcome, job.process sessions = ({ job with output }, outcome) ∧
      Worked sessions job output outcome := by
  unfold Job.process
  split
  · exact ⟨job.output, .failed Code.invalid, rfl, by simp, by simp⟩
  · rename_i d hd
    split_ifs with hlen
    · exact ⟨job.output, .failed Code.invalid, rfl, by simp, by simp⟩
    · split
      · exact ⟨job.output, .failed Code.invalid, rfl, by simp, by simp⟩
      · rename_i key hk
        exact ⟨_, .done, rfl, by simp, fun _ => ⟨d, key, hd, hk, by omega, rfl⟩⟩

theorem work_spec (job : Job) (s : Software) :
    ∃ output outcome, (work job s).answer = { job with output, outcome } ∧
      Worked s.sessions job output outcome ∧
      ∃ faults, (work job s).state = { s with faults }.record (entryOf outcome) := by
  unfold work Faults.next
  split_ifs with hbusy hjobs
  · exact ⟨job.output, .busy, rfl, ⟨by simp, by simp⟩, _, rfl⟩
  · exact ⟨job.output, .failed s.faults.code, rfl, ⟨by simp, by simp⟩, _, rfl⟩
  · obtain ⟨output, outcome, hprocess, hworked⟩ := process_spec s.sessions job
    simp only [hprocess]
    exact ⟨output, outcome, rfl, hworked, s.faults, rfl⟩

theorem record_samePool (s : Software) (queue : List Queued) (returning : List Job)
    (faults : Faults) (outcome : Outcome) :
    SamePool s (({ s with queue, returning, faults } : Software).record (entryOf outcome)) := by
  cases outcome <;> exact ⟨rfl, rfl, rfl, rfl, rfl⟩

/-- Before the end of the engine a job is queued, after it the job is about to fail. -/
theorem submit_cases (job : Job) (delay now : Nat) (s : Software) :
    (∃ notBefore, s.isShutDown = false ∧ s.submit job delay now =
        ⟨(), { s.record .jobDispatched with queue := s.queue ++ [⟨job, notBefore⟩] },
          [.jobQueued job.id s.queue.length notBefore.isSome]⟩) ∨
      s.isShutDown = true ∧ s.submit job delay now =
        ⟨(), { s.record .jobDispatched with returning := s.returning ++ [job] }, []⟩ := by
  unfold submit
  split
  · rename_i shut
    exact .inr ⟨shut, rfl⟩
  · rename_i running
    exact .inl ⟨_, eq_false_of_ne_true running, rfl⟩

/-- A submitted job is one more that the engine has. -/
theorem submit_frame (job : Job) (delay now : Nat) (s : Software) :
    ∃ queue returning,
      (s.submit job delay now).state = { s.record .jobDispatched with queue, returning } ∧
      (s.submit job delay now).state.inside.Perm (s.inside ++ [job]) := by
  obtain ⟨notBefore, -, h⟩ | ⟨-, h⟩ := s.submit_cases job delay now <;> rw [h]
  · exact ⟨_, s.returning, rfl, by simp [inside, queued, record]⟩
  · refine ⟨s.queue, _, rfl, ?_⟩
    simp only [inside, queued, record, List.append_assoc]
    exact List.Perm.append_left _ List.perm_append_comm

theorem queued_submit_subset (job : Job) (delay now : Nat) (s : Software) {j : Job}
    (hj : j ∈ (s.submit job delay now).state.queued) : j ∈ s.queued ∨ j = job := by
  obtain ⟨notBefore, -, h⟩ | ⟨-, h⟩ := s.submit_cases job delay now <;> rw [h] at hj
  · simpa [queued, record] using hj
  · exact .inl hj

theorem inside_submit_subset {job : Job} {delay now : Nat} {s : Software} {j : Job}
    (hj : j ∈ (s.submit job delay now).state.inside) : j ∈ s.inside ∨ j = job := by
  obtain ⟨queue, returning, -, hinside⟩ := s.submit_frame job delay now
  simpa using hinside.mem_iff.mp hj

theorem submit_of_running {s : Software} (h : s.isShutDown = false) (job : Job)
    (delay now : Nat) :
    s.submit job delay now =
      ⟨(), { s.record .jobDispatched with
          queue := s.queue ++ [⟨job, if delay = 0 then none else some (now + delay)⟩] },
        [.jobQueued job.id s.queue.length
          (if delay = 0 then none else some (now + delay)).isSome]⟩ := by
  rw [submit, h]
  rfl

theorem submit_of_shutDown {s : Software} (h : s.isShutDown = true) (job : Job)
    (delay now : Nat) :
    s.submit job delay now =
      ⟨(), { s.record .jobDispatched with returning := s.returning ++ [job] }, []⟩ := by
  rw [submit, if_pos h]

theorem submit_untroubled {s : Software} (h : s.Untroubled) (job : Job) (delay now : Nat) :
    (s.submit job delay now).state.Untroubled := by
  rw [submit_of_running h.running]
  exact ⟨h.running, h.busy, h.jobs⟩

theorem queue_of_submit {s : Software} {job : Job} {delay now : Nat} {q : Queued}
    (hq : q ∈ (s.submit job delay now).state.queue) :
    q ∈ s.queue ++ [⟨job, if delay = 0 then none else some (now + delay)⟩] := by
  cases h : s.isShutDown with
  | false => rwa [submit_of_running h] at hq
  | true =>
    rw [submit_of_shutDown h] at hq
    exact List.mem_append_left _ hq

theorem submit_paused (job : Job) (delay now : Nat) (s : Software) :
    (s.submit job delay now).state.paused = s.paused := by
  obtain ⟨queue, returning, h, -⟩ := s.submit_frame job delay now
  rw [h]
  rfl

theorem submit_isShutDown (job : Job) (delay now : Nat) (s : Software) :
    (s.submit job delay now).state.isShutDown = s.isShutDown := by
  obtain ⟨queue, returning, h, -⟩ := s.submit_frame job delay now
  rw [h]
  rfl

theorem submit_sameSessions (job : Job) (delay now : Nat) (s : Software) :
    SameSessions s (s.submit job delay now).state := by
  obtain ⟨queue, returning, h, -⟩ := s.submit_frame job delay now
  rw [h]
  exact ⟨rfl, rfl⟩

/-- An engine at its end fails the first of the jobs that are to fail; before that, the worker
takes one from the queue. -/
theorem handBack_cases {s : Software} {now : Nat} {step : Step Software Job}
    (h : s.handBack now = some step) :
    (∃ job rest, s.isShutDown = true ∧ s.returning = job :: rest ∧
        step = ⟨job.complete (.failed Code.shutDown),
          ({ s with returning := rest } : Software).record .jobFailed, []⟩) ∨
      ∃ before q after, s.isShutDown = false ∧ s.queue = before ++ q :: after ∧
        step = work q.job { s with queue := before ++ after } := by
  unfold handBack at h
  split at h
  · rename_i shut
    split at h
    · cases h
    · rename_i job rest hr
      exact .inl ⟨job, rest, shut, hr, (Option.some.inj h).symm⟩
  · rename_i running
    split at h
    · cases h
    · obtain ⟨⟨job, rest⟩, hpop, rfl⟩ := Option.map_eq_some_iff.mp h
      obtain ⟨before, q, after, hq, rfl, rfl, -⟩ := Queue.popReady_eq_some hpop
      exact .inr ⟨before, q, after, eq_false_of_ne_true running, hq, rfl⟩

/-- A job that comes back was one of those that the engine had, and is so no more. -/
theorem handBack_spec {s : Software} {now : Nat} {step : Step Software Job}
    (h : s.handBack now = some step) :
    ∃ before job after output outcome, s.inside = before ++ job :: after ∧
      step.answer = { job with output, outcome } ∧ Worked s.sessions job output outcome ∧
      ∃ queue returning faults,
        step.state = { s with queue, returning, faults }.record (entryOf outcome) ∧
        step.state.inside = before ++ after ∧ queue.Sublist s.queue := by
  obtain ⟨job, rest, -, hr, rfl⟩ | ⟨before, q, after, -, hq, rfl⟩ := handBack_cases h
  · refine ⟨[], job, rest ++ s.queued, job.output, .failed Code.shutDown, by rw [inside, hr]; rfl,
      rfl, ⟨by simp, by simp⟩, s.queue, rest, s.faults, rfl, rfl, List.Sublist.refl _⟩
  · obtain ⟨output, outcome, hanswer, hworked, faults, hstate⟩ :=
      work_spec q.job { s with queue := before ++ after }
    refine ⟨s.returning ++ before.map Queued.job, q.job, after.map Queued.job, output, outcome,
      by simp [inside, queued, hq], hanswer, hworked, before ++ after, s.returning, faults, hstate,
      by rw [hstate]; simp [inside, queued, record], ?_⟩
    rw [hq]
    exact (List.sublist_cons_self q after).append_left before

/-- An engine at its end fails the first of the jobs that are to fail, and takes none. -/
theorem handBack_of_shutDown {s : Software} (h : s.isShutDown = true) (now : Nat) :
    s.handBack now = s.returning.head?.map fun job =>
      ⟨job.complete (.failed Code.shutDown),
        ({ s with returning := s.returning.tail } : Software).record .jobFailed, []⟩ := by
  rw [handBack, if_pos h]
  cases s.returning <;> rfl

/-- A running engine gives back a job from its queue. -/
theorem handBack_of_queue {s : Software} (hr : s.isShutDown = false) {now : Nat}
    {step : Step Software Job} (h : s.handBack now = some step) :
    ∃ q ∈ s.queue, ∃ output outcome, step.answer = { q.job with output, outcome } := by
  obtain ⟨job, rest, shut, -⟩ | ⟨before, q, after, -, hq, rfl⟩ := handBack_cases h
  · rw [hr] at shut
    cases shut
  · obtain ⟨output, outcome, hanswer, -⟩ := work_spec q.job { s with queue := before ++ after }
    exact ⟨q, by simp [hq], output, outcome, hanswer⟩

theorem handBack_isShutDown {s : Software} {now : Nat} {step : Step Software Job}
    (h : s.handBack now = some step) : step.state.isShutDown = s.isShutDown := by
  obtain ⟨before, job, after, output, outcome, -, -, -, queue, returning, faults, hstate, -⟩ :=
    handBack_spec h
  rw [hstate]
  rfl

theorem acquire_sameSessions (s : Software) : SameSessions s s.acquire.state := by
  rw [acquire_def]
  split
  · exact ⟨rfl, rfl⟩
  · dsimp only
    split <;> exact ⟨rfl, rfl⟩

theorem handBack_sameSessions {s : Software} {now : Nat} {step : Step Software Job}
    (h : s.handBack now = some step) : SameSessions s step.state := by
  obtain ⟨before, job, after, output, outcome, -, -, -, queue, returning, faults, hstate, -⟩ :=
    handBack_spec h
  rw [hstate]
  exact ⟨rfl, rfl⟩

/-- A job is taken out of the queue by its id, or none is there under it. -/
theorem cancel_cases (id : JobId) (s : Software) :
    (∀ q ∈ s.queue, q.job.id ≠ id) ∧ s.cancel id = ⟨none, s, []⟩ ∨
      ∃ before q after, s.queue = before ++ q :: after ∧ q.job.id = id ∧
        s.cancel id =
          ⟨some q.job, ({ s with queue := before ++ after } : Software).record .jobCancelled,
            [.jobCancelled id]⟩ := by
  unfold cancel
  cases hr : Queue.remove id s.queue with
  | none => exact .inl ⟨Queue.remove_eq_none hr, rfl⟩
  | some found =>
    obtain ⟨job, rest⟩ := found
    obtain ⟨before, q, after, hqueue, rfl, rfl, hid⟩ := Queue.remove_eq_some hr
    exact .inr ⟨before, q, after, hqueue, hid, rfl⟩

theorem withdraw_sameSessions (id : JobId) (s : Software) :
    SameSessions s (engine.withdraw id s) := by
  cases h : Queue.remove id s.queue <;>
    simp only [Engine.withdraw, engine, cancel, h] <;> exact ⟨rfl, rfl⟩

theorem withdraw_queue (id : JobId) (s : Software) : (engine.withdraw id s).queue ⊆ s.queue := by
  intro x hx
  cases h : Queue.remove id s.queue with
  | none => simpa [Engine.withdraw, engine, cancel, h] using hx
  | some found =>
    obtain ⟨before, q, after, hqueue, hrest, -, -⟩ := Queue.remove_eq_some h
    simp only [Engine.withdraw, engine, cancel, h, release, takeBack, record, hrest] at hx
    rw [hqueue]
    exact mem_of_removed hx

theorem withdraw_returning (id : JobId) (s : Software) :
    (engine.withdraw id s).returning = s.returning := by
  cases h : Queue.remove id s.queue <;> simp [Engine.withdraw, engine, cancel, h, release, takeBack,
    record]

theorem inside_withdraw_subset {id : JobId} {s : Software} {j : Job}
    (hj : j ∈ (engine.withdraw id s).inside) : j ∈ s.inside := by
  rw [inside, withdraw_returning] at hj
  rcases List.mem_append.mp hj with hj | hj
  · exact List.mem_append_left _ hj
  · exact List.mem_append_right _ (List.map_subset _ (withdraw_queue id s) hj)

/-- A job that was asked back is in the queue no more. -/
theorem withdraw_removes {id : JobId} {s : Software} (distinct : (s.queued.map Job.id).Nodup)
    {j : Job} (hj : j ∈ (engine.withdraw id s).queued) : j.id ≠ id := by
  cases h : Queue.remove id s.queue with
  | none =>
    simp only [Engine.withdraw, engine, cancel, h] at hj
    obtain ⟨q, hq, rfl⟩ := List.mem_map.mp hj
    exact Queue.remove_eq_none h q hq
  | some found =>
    obtain ⟨before, q, after, hqueue, hrest, -, hid⟩ := Queue.remove_eq_some h
    simp only [Engine.withdraw, engine, cancel, h, release, takeBack, record, queued, hrest] at hj
    simp only [queued, hqueue, List.map_append, List.map_cons, hid] at distinct
    have apart := (List.nodup_cons.mp (List.perm_middle.nodup_iff.mp distinct)).1
    rintro rfl
    refine apart ?_
    rw [← List.map_append, ← List.map_append]
    exact List.mem_map_of_mem hj

theorem withdraw_untroubled {s : Software} (h : s.Untroubled) (id : JobId) :
    (engine.withdraw id s).Untroubled := by
  obtain ⟨hr, hb, hj⟩ := h
  cases h : Queue.remove id s.queue <;>
    simp only [Engine.withdraw, engine, cancel, h] <;> exact ⟨hr, hb, hj⟩

theorem acquire_untroubled {s : Software} (h : s.Untroubled) : s.acquire.state.Untroubled := by
  obtain ⟨hr, hb, hj⟩ := h
  rw [acquire_def]
  split
  · exact ⟨hr, hb, hj⟩
  · dsimp only
    split <;> exact ⟨hr, hb, hj⟩

theorem process_not_busy (sessions : Sessions) (job : Job) : (job.process sessions).2 ≠ .busy := by
  unfold Job.process
  split
  · simp
  · split_ifs
    · simp
    · split <;> simp

theorem process_done {sessions : Sessions} {job : Job} {d : Descriptor} {key : AuthKey}
    (hd : job.descriptor = some d) (hk : sessions.key? d.session = some key)
    (hl : d.skip + d.length ≤ job.input.length) : (job.process sessions).2 = .done := by
  unfold Job.process
  rw [hd]
  dsimp only
  rw [if_neg (Nat.not_lt.mpr hl), hk]

/-- An untroubled worker gives the first job that is ready the outcome of processing it. -/
theorem handBack_untroubled {s : Software} (hu : s.Untroubled) {now : Nat}
    {step : Step Software Job} (h : s.handBack now = some step) :
    ∃ before q after, s.queue = before ++ q :: after ∧
      (q.isReady now = true ∧ ∀ x ∈ before, x.isReady now = false) ∧
      step.answer = (q.job.process s.sessions).1.complete (q.job.process s.sessions).2 ∧
      step.state = ({ s with queue := before ++ after } : Software).record
        (entryOf (q.job.process s.sessions).2) := by
  unfold handBack at h
  rw [hu.running, if_neg Bool.false_ne_true] at h
  split at h
  · cases h
  · obtain ⟨⟨job, rest⟩, hpop, rfl⟩ := Option.map_eq_some_iff.mp h
    obtain ⟨before, q, after, hq, rfl, rfl, first⟩ := Queue.popReady_eq_some hpop
    refine ⟨before, q, after, hq, first, ?_, ?_⟩ <;>
      simp [work, Faults.next, hu.running, hu.busy, hu.jobs]

/-- A worker that is neither paused nor at its end takes a job, if one is ready. -/
theorem handBack_eq_none {s : Software} (hr : s.isShutDown = false) (hp : s.paused = false)
    {now : Nat} (h : s.handBack now = none) : ∀ q ∈ s.queue, q.isReady now = false := by
  rw [handBack, hr, hp, if_neg Bool.false_ne_true, if_neg Bool.false_ne_true,
    Option.map_eq_none_iff] at h
  exact Queue.popReady_eq_none h

theorem handBack_of_running {s : Software} (hr : s.isShutDown = false) (hp : s.paused = false)
    (now : Nat) :
    s.handBack now =
      (Queue.popReady now s.queue).map fun r => work r.1 { s with queue := r.2 } := by
  rw [handBack, hr, hp, if_neg Bool.false_ne_true, if_neg Bool.false_ne_true]

/-- While busy faults are pending, the worker answers that it is busy, and uses one up. -/
theorem work_of_busy (job : Job) {s : Software} (h : 0 < s.faults.busy) :
    work job s =
      ⟨job.complete .busy,
        ({ s with faults := { s.faults with busy := s.faults.busy - 1 } } : Software).record
          .jobBusy, [.jobProcessed job.id .busy]⟩ := by
  rw [work, Faults.next, if_pos h]
  rfl

theorem work_of_not_busy (job : Job) {s : Software} (h : s.faults.busy = 0) :
    (work job s).answer.outcome ≠ .busy ∧ (work job s).state.faults.busy = 0 := by
  rw [work, Faults.next, if_neg (by omega)]
  split_ifs
  · exact ⟨nofun, h⟩
  · exact ⟨process_not_busy _ _, h⟩

theorem cancel_returning (id : JobId) (s : Software) :
    (s.cancel id).state.returning = s.returning ∧ (s.cancel id).state.isShutDown = s.isShutDown := by
  obtain ⟨-, h⟩ | ⟨before, q, after, -, -, h⟩ := s.cancel_cases id <;> rw [h] <;> exact ⟨rfl, rfl⟩

theorem acquire_returning (s : Software) : s.acquire.state.returning = s.returning := by
  rw [acquire_def]
  split
  · rfl
  · dsimp only
    split <;> rfl

/-- A running engine fails no jobs. -/
def FailsOnlyAtEnd (s : Software) : Prop := s.isShutDown = false → s.returning = []

theorem keeps_failsOnlyAtEnd : rules.Keeps FailsOnlyAtEnd where
  change {s step} h p := by
    cases h with
    | stop =>
      obtain ⟨shut, -, h⟩ | h := s.stop_cases <;> rw [h]
      · intro running
        rw [show s.isShutDown = false from running] at shut
        cases shut
      · exact p
    | shutDown => exact nofun
    | _ => exact p
  createSession key {s} p running := by
    rw [show (rules.engine.createSession key s).state = (s.createSession key).state from rfl,
      createSession_isShutDown] at running
    exact (createSession_returning key s).trans (p running)
  acquire {s} p running := by
    rw [show (rules.engine.acquire s).state = s.acquire.state from rfl, acquire_isShutDown]
      at running
    exact s.acquire_returning.trans (p running)
  submit job delay now {s} p running := by
    have running : s.isShutDown = false := (s.submit_isShutDown job delay now).symm.trans running
    exact (congrArg (fun step => step.state.returning)
      (submit_of_running running job delay now)).trans (p running)
  handBack {now s step} h p running := by
    have running : s.isShutDown = false := (handBack_isShutDown h).symm.trans running
    obtain ⟨job, rest, shut, -⟩ | ⟨before, q, after, -, -, rfl⟩ := handBack_cases h
    · rw [running] at shut
      cases shut
    · obtain ⟨output, outcome, -, -, faults, hstate⟩ :=
        work_spec q.job { s with queue := before ++ after }
      rw [hstate]
      exact p running
  release job {s} p := p
  cancel id {s} p running := by
    obtain ⟨returning, shut⟩ := s.cancel_returning id
    exact returning.trans (p (shut.symm.trans running))

/-- A paused worker takes no job. -/
theorem handBack_of_paused {s : Software} (hr : s.isShutDown = false)
    (hp : s.paused = true) (now : Nat) : s.handBack now = none := by
  rw [handBack, hr, hp]
  rfl

end Software
end PacketAuth
