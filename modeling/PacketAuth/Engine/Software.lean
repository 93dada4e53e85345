import PacketAuth.Accounting
import PacketAuth.Engine
import PacketAuth.Hash.Hmac
import PacketAuth.Tag

/-! An engine in software: a queue with one worker, a table of sessions, a pool of jobs, and
faults that can be injected. Jobs are served in the order of their submission; a deferred job
waits in the same queue without holding up those behind it. -/
namespace PacketAuth

structure Capacity where
  jobs : Nat := 64
  sessions : Nat := 256
  deriving Repr, DecidableEq

def Capacity.inspect (c : Capacity) : String :=
  Text.record "SoftEngineConfig"
    [("job_capacity", toString c.jobs), ("session_capacity", toString c.sessions)]

/-- A submitted job, and the instant before which it may not start. -/
structure Queued where
  job : Job
  notBefore : Option Nat := none
  deriving DecidableEq

def Queued.isReady (now : Nat) (q : Queued) : Bool := q.notBefore.all (· ≤ now)

namespace Queue

/-- The oldest job that may start, and the others in their order. -/
def popReady (now : Nat) : List Queued → Option (Job × List Queued)
  | [] => none
  | q :: rest =>
    if q.isReady now then some (q.job, rest)
    else (popReady now rest).map fun r => (r.1, q :: r.2)

/-- The earliest instant at which a deferred job may start. -/
def nextDeadline (queue : List Queued) : Option Nat := (queue.filterMap Queued.notBefore).min?

/-- The job with an id, and the others in their order. -/
def remove (id : JobId) : List Queued → Option (Job × List Queued)
  | [] => none
  | q :: rest =>
    if q.job.id = id then some (q.job, rest)
    else (remove id rest).map fun r => (r.1, q :: r.2)

end Queue

/-- How many of the next session openings fail, and how many of the next jobs come back busy and
then with a failure code. -/
structure Faults where
  sessions : Nat := 0
  busy : Nat := 0
  jobs : Nat := 0
  code : Int32 := 0
  deriving Repr, DecidableEq

namespace Faults

/-- The outcome that a pending fault forces on the next job. -/
def next (f : Faults) : Option Outcome × Faults :=
  if 0 < f.busy then (some .busy, { f with busy := f.busy - 1 })
  else if 0 < f.jobs then (some (.failed f.code), { f with jobs := f.jobs - 1 })
  else (none, f)

end Faults

abbrev Sessions := List (SessionHandle × AuthKey)

def Sessions.key? (session : SessionHandle) (sessions : Sessions) : Option AuthKey :=
  (sessions.find? (·.1 = session)).map (·.2)

namespace Job

/-- Computes the tag over the window that the descriptor names, in its session. -/
def process (sessions : Sessions) (j : Job) : Job × Outcome :=
  match j.descriptor with
  | none => (j, .failed Code.invalid)
  | some d =>
    if j.input.length < d.skip + d.length then (j, .failed Code.invalid)
    else
      match sessions.key? d.session with
      | none => (j, .failed Code.invalid)
      | some key =>
        let window := (j.input.drop d.skip).take d.length
        let tag := (Hmac.mac key.bytes window).take Tag.size
        ({ j with output := List.replicate d.inject 0 ++ tag }, .done)

end Job

/-- The free jobs, most recently released first, and the number of jobs that are out. -/
structure Pool where
  free : List Job := []
  outstanding : Nat := 0
  deriving DecidableEq

structure Software where
  capacity : Capacity := {}
  queue : List Queued := []
  /-- The jobs that fail because the engine is at its end, and are about to come back. -/
  returning : List Job := []
  paused : Bool := false
  isShutDown : Bool := false
  /-- The worker has seen the end of the engine, and is gone. -/
  isStopped : Bool := false
  sessions : Sessions := []
  nextSession : Nat := 1
  pool : Pool := {}
  faults : Faults := {}
  accounting : Accounting := {}
  nextJob : Nat := 1

namespace Software

def record (s : Software) (e : Accounting.Entry) : Software :=
  { s with accounting := s.accounting.record e }

/-- A new engine, with the event of its start. -/
def start (capacity : Capacity) : Step Software Unit :=
  ⟨(), { capacity }, [.engineStarted capacity.jobs capacity.sessions]⟩

/-- An injected failure comes first, then the end of the engine, then the capacity. -/
def createSession (key : AuthKey) (s : Software) :
    Step Software (Except EngineError SessionHandle) :=
  let failed (e : EngineError) (s : Software) : Step Software (Except EngineError SessionHandle) :=
    ⟨.error e, s.record .sessionFailed, []⟩
  if 0 < s.faults.sessions then
    failed .injected { s with faults := { s.faults with sessions := s.faults.sessions - 1 } }
  else if s.isShutDown then failed .shutDown s
  else if s.capacity.sessions ≤ s.sessions.length then
    failed (.sessionsExhausted s.sessions.length) s
  else
    let handle : SessionHandle := ⟨s.nextSession⟩
    let s := { s with sessions := s.sessions ++ [(handle, key)], nextSession := s.nextSession + 1 }
    ⟨.ok handle, s.record .sessionCreated, [.sessionCreated handle]⟩

/-- Takes a job out of the pool, or makes one while no job is free, unless as many are out as may
be. -/
def lend (s : Software) : Option (Job × Software) :=
  if s.capacity.jobs ≤ s.pool.outstanding then none
  else
    match s.pool.free with
    | job :: free => some (job, { s with pool := ⟨free, s.pool.outstanding + 1⟩ })
    | [] =>
      some (.fresh ⟨s.nextJob⟩,
        { s with pool := ⟨[], s.pool.outstanding + 1⟩, nextJob := s.nextJob + 1 })

/-- The pool first, and then the counters. -/
def acquire (s : Software) : Step Software (Option Job) :=
  match s.lend with
  | none => ⟨none, s.record .acquireFailed, []⟩
  | some (job, s) => ⟨some job, s.record .jobAcquired, []⟩

/-- Appends a job to the queue. After the end of the engine nothing is queued: the job, although
counted as dispatched, fails on the spot. -/
def submit (job : Job) (delay now : Nat) (s : Software) : Step Software Unit :=
  if s.isShutDown then
    ⟨(), { s.record .jobDispatched with returning := s.returning ++ [job] }, []⟩
  else
    let notBefore := if delay = 0 then none else some (now + delay)
    ⟨(), { s.record .jobDispatched with queue := s.queue ++ [⟨job, notBefore⟩] },
      [.jobQueued job.id s.queue.length notBefore.isSome]⟩

/-- The counter for an outcome. -/
def entryOf : Outcome → Accounting.Entry
  | .done => .jobCompleted
  | .busy => .jobBusy
  | .failed _ => .jobFailed
  | .pending => .jobFailed

/-- The worker processes one job: pending faults decide first, then the job itself. -/
def work (job : Job) (s : Software) : Step Software Job :=
  let (forced, faults) := s.faults.next
  let (job, outcome) := match forced with
    | some outcome => (job, outcome)
    | none => job.process s.sessions
  ⟨job.complete outcome, { s with faults }.record (entryOf outcome),
    [.jobProcessed job.id outcome]⟩

/-- After the end of the engine only jobs that fail come back; a paused worker takes none. -/
def handBack (now : Nat) (s : Software) : Option (Step Software Job) :=
  if s.isShutDown then
    match s.returning with
    | [] => none
    | job :: rest =>
      some
        ⟨job.complete (.failed Code.shutDown), { s with returning := rest }.record .jobFailed, []⟩
  else if s.paused then none
  else (Queue.popReady now s.queue).map fun r => work r.1 { s with queue := r.2 }

/-- A job that goes back into the pool is emptied and gets a new id. -/
def takeBack (job : Job) (s : Software) : Software :=
  let free :=
    if s.pool.free.length < s.capacity.jobs then job.reset ⟨s.nextJob⟩ :: s.pool.free
    else s.pool.free
  { s with pool := ⟨free, s.pool.outstanding - 1⟩, nextJob := s.nextJob + 1 }

/-- The pool first, and then the counters. -/
def release (job : Job) (s : Software) : Software := (s.takeBack job).record .jobReleased

def cancel (id : JobId) (s : Software) : Step Software (Option Job) :=
  match Queue.remove id s.queue with
  | none => ⟨none, s, []⟩
  | some (job, queue) => ⟨some job, { s with queue }.record .jobCancelled, [.jobCancelled id]⟩

def shutDown (s : Software) : Software := { s with isShutDown := true }

/-- The worker finds the engine at its end. It takes all jobs out of the queue, whether they may
start or not, and goes; they fail one after the other. -/
def stop (s : Software) : Step Software Unit :=
  if s.isShutDown && !s.isStopped then
    ⟨(), { s with
        queue := []
        returning := s.returning ++ s.queue.map Queued.job
        isStopped := true },
      [.engineStopping s.queue.length]⟩
  else ⟨(), s, []⟩

def pause (s : Software) : Software := { s with paused := true }
def resume (s : Software) : Software := { s with paused := false }
def clearFaults (s : Software) : Software := { s with faults := {} }

def injectSessionFailures (n : Nat) (s : Software) : Software :=
  { s with faults := { s.faults with sessions := n } }

def injectBusy (n : Nat) (s : Software) : Software :=
  { s with faults := { s.faults with busy := n } }

def injectJobFailures (n : Nat) (code : Int32) (s : Software) : Software :=
  { s with faults := { s.faults with jobs := n, code } }

/-- A worker that may not take jobs does not wait for an instant either. -/
def wake (s : Software) : Option Nat :=
  if s.isShutDown || s.paused then none else Queue.nextDeadline s.queue

def engine : Engine Software where
  createSession := createSession
  acquire := acquire
  submit := submit
  handBack := handBack
  release := release
  cancel := cancel
  wake := wake
  backlog s := s.queue.length + s.returning.length + s.faults.busy
  close s := s.shutDown.stop

def inspect (s : Software) : String :=
  Text.partialRecord "SoftEngine"
    [("config", s.capacity.inspect), ("queued", toString s.queue.length),
     ("sessions", toString s.sessions.length)]

end Software
end PacketAuth
