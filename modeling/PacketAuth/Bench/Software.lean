import PacketAuth.Bench.Operation
import PacketAuth.Engine.Software

/-! The operations of a bench whose engine is the one in software: its faults and its worker, and
jobs driven by hand. -/
namespace PacketAuth.Bench

inductive SoftwareOperation where
  | injectSessionFailures (n : Nat)
  | injectBusy (n : Nat)
  | injectJobFailures (n : Nat) (code : Int32)
  | clearFaults
  | pause
  | resume
  | shutDown
  | dropEngine
  | inspect
  | accounting
  | createSession (key : AuthKey)
  | acquire
  | fill (holder : Nat) (input : List UInt8) (descriptor : Option Descriptor)
  | submit (holder : Nat) (delay : Nat) (comesBack : Bool)
  | cancel (id : JobId)
  | cancelHeld (holder : Nat)
  | release (holder : Nat)
  | inspectJob (holder : Nat)

inductive SoftwareAnswer where
  | done
  | completed (jobs : List (Nat × Job)) (queued : Option Nat)
  | text (text : String)
  | accounting (a : Accounting) (queued sessions : Nat)
  | session (handle : SessionHandle)
  | acquired (job : Option (JobId × Nat))
  | cancelled (b : Bool)

abbrev SoftwareResult := Except BenchError SoftwareAnswer × Bench Software

/-- A bench around a new engine. -/
def ofCapacity (capacity : Capacity) (buffers : List (List UInt8)) : Bench Software :=
  let started := Software.start capacity
  { host := { engine := started.state, log := started.events.reverse }, buffers }

/-- Puts a job into the place that it was last in. -/
def putBack (job : Job) (holders : List Holder) : List Holder :=
  holders.map fun h => if h.id = job.id then { h with job := some job } else h

/-- Puts the jobs that came back into their places, and lists them. -/
def collect (b : Bench Software) : List (Nat × Job) × Bench Software :=
  (b.host.handedBack,
    { b with
      host := { b.host with handedBack := [] }
      holders := b.host.handedBack.foldl (fun hs r => putBack r.2 hs) b.holders })

/-- A second is long enough to tell a deferred job from one that is about to come back. -/
def patience : Nat := 999

/-- Nothing in a host is waited for any more. Every job that was to come back has left the queue,
and every call beside the others has its reply; below a limit, jobs with longer delays and calls
that may stay deferred do not count. -/
def isSettled (limit : Option Nat) (b : Bench Software) (host : Host Software) : Bool :=
  let ended (call : Spawned) : Bool :=
    match call.progress with
    | .ticket n => (host.reply? n).isSome || (limit.isSome && call.mayStayDeferred)
    | _ => true
  let isExpected (h : Holder) : Bool := h.delay.any fun d => limit.all (d ≤ ·)
  let isQueued (h : Holder) : Bool := host.engine.queue.any fun q => q.job.id = h.id
  b.spawned.all ended && b.holders.all fun h => !(isExpected h && isQueued h)

/-- Changes the host, waits until it is settled, and lists the jobs that came back. -/
def settled (limit : Option Nat) (f : Host Software → Host Software) (b : Bench Software) :
    SoftwareResult :=
  let host := (f b.host).drain Software.engine
  let host :=
    host.passUntil Software.engine (b.isSettled limit) none (host.instants Software.engine)
  let (jobs, b) := { b with host }.collect
  (.ok (.completed jobs none), b)

def change (f : Software → Software) (b : Bench Software) : SoftwareResult :=
  (.ok .done, { b with host := b.host.mapEngine f })

/-- Submits the job of a holder. Unless the worker is paused or the delay is long, a job that is to
come back is waited for, and otherwise the queue until it is no longer than before. A job that is
not asked back goes where it went the last time, if anywhere. -/
def submitHeld (holder delay : Nat) (comesBack : Bool) (b : Bench Software) : SoftwareResult :=
  match b.holders[holder]? with
  | some { job := some job, .. } =>
    let recipient := if comesBack then some (.holder holder) else job.recipient
    let before := b.host.engine.queue.length
    let host := (b.host.onEngine
      (Software.engine.submit { job with recipient } delay b.host.now)).2
    let host := host.drain Software.engine
    let isOver (h : Host Software) : Bool :=
      if comesBack then h.handedBack.any (·.1 = holder) else h.engine.queue.length ≤ before
    let host :=
      if host.engine.paused || patience < delay then host
      else host.passUntil Software.engine isOver (some (host.now + delay))
        (host.instants Software.engine)
    let place : Holder :=
      { job := none, id := job.id, delay := if comesBack then some delay else none }
    let b := { b with host, holders := b.holders.set holder place }
    let (jobs, b) := b.collect
    (.ok (.completed jobs (some b.host.engine.queue.length)), b)
  | _ => (.error .noJob, b)

/-- Takes a job out of the queue; one that was submitted by hand goes back to its place. -/
def cancelJob (id : JobId) (b : Bench Software) : SoftwareResult :=
  match b.host.onEngine (Software.engine.cancel id) with
  | (none, host) => (.ok (.cancelled false), { b with host })
  | (some job, host) =>
    (.ok (.cancelled true), { b with host, holders := putBack job b.holders })

def releaseHeld (holder : Nat) (b : Bench Software) : SoftwareResult :=
  match b.holders[holder]? with
  | some { job := some job, id, .. } =>
    (.ok .done,
      { b with
        host := b.host.mapEngine (Software.engine.release job)
        holders := b.holders.set holder { job := none, id } })
  | _ => (.error .noJob, b)

/-- Replaces the input of the job of a holder, and its descriptor if one is given. -/
def fillHeld (holder : Nat) (input : List UInt8) (descriptor : Option Descriptor)
    (b : Bench Software) : SoftwareResult :=
  match b.holders[holder]? with
  | some { job := some job, id, .. } =>
    let job := { job with input, descriptor := descriptor.or job.descriptor }
    (.ok (.text job.inspect), { b with holders := b.holders.set holder { job := some job, id } })
  | _ => (.error .noJob, b)

/-- The operations that need a hold on the engine. -/
def performHeld (b : Bench Software) : SoftwareOperation → SoftwareResult
  | .injectSessionFailures n => b.change (·.injectSessionFailures n)
  | .injectBusy n => b.change (·.injectBusy n)
  | .injectJobFailures n code => b.change (·.injectJobFailures n code)
  | .clearFaults => b.change Software.clearFaults
  | .pause => b.change Software.pause
  | .resume => b.settled (some patience) (·.mapEngine Software.resume)
  | .shutDown => b.settled none fun h => (h.onEngine fun s => s.shutDown.stop).2
  | .dropEngine => b.settled none (·.dropEngine Software.engine)
  | .inspect => (.ok (.text b.host.engine.inspect), b)
  | .accounting =>
    let s := b.host.engine
    (.ok (.accounting s.accounting s.queue.length s.sessions.length), b)
  | .createSession key =>
    match b.host.onEngine (Software.engine.createSession key) with
    | (.error e, host) => (.error (.engine e), { b with host })
    | (.ok handle, host) => (.ok (.session handle), { b with host })
  | .acquire =>
    match b.host.onEngine Software.engine.acquire with
    | (none, host) => (.ok (.acquired none), { b with host })
    | (some job, host) =>
      (.ok (.acquired (some (job.id, b.holders.length))),
        { b with host, holders := b.holders ++ [{ job := some job, id := job.id }] })
  | .submit holder delay comesBack => b.submitHeld holder delay comesBack
  | .cancel id => b.cancelJob id
  | .cancelHeld holder =>
    match b.holders[holder]? with
    | none => (.error .noJob, b)
    | some h => b.cancelJob h.id
  | .release holder => b.releaseHeld holder
  | .fill holder input descriptor => b.fillHeld holder input descriptor
  | .inspectJob holder =>
    match b.holders[holder]? with
    | some { job := some job, .. } => (.ok (.text job.inspect), b)
    | _ => (.error .noJob, b)

/-- Letting go of the engine once more does nothing; all else needs a hold on it. -/
def performSoftware (b : Bench Software) (op : SoftwareOperation) : SoftwareResult :=
  if b.host.isHeld then b.performHeld op
  else match op with
    | .dropEngine => (.ok .done, b)
    | _ => (.error .noEngine, b)

end PacketAuth.Bench
