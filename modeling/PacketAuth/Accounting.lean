import PacketAuth.Text.Record

/-! The counters of an engine: what became of its jobs and sessions, and how many jobs are out. -/
namespace PacketAuth

/-- The outstanding count is a gauge, and the peak its highest value so far. -/
structure Accounting where
  jobsAcquired : Nat := 0
  jobsReleased : Nat := 0
  jobsOutstanding : Int := 0
  jobsPeak : Int := 0
  acquireFailures : Nat := 0
  dispatches : Nat := 0
  busyOutcomes : Nat := 0
  completions : Nat := 0
  failures : Nat := 0
  cancellations : Nat := 0
  sessionsCreated : Nat := 0
  sessionFailures : Nat := 0
  deriving Repr, DecidableEq

namespace Accounting

/-- What an engine records. -/
inductive Entry where
  | jobAcquired
  | jobReleased
  | acquireFailed
  | jobDispatched
  | jobBusy
  | jobCompleted
  | jobFailed
  | jobCancelled
  | sessionCreated
  | sessionFailed
  deriving Repr, DecidableEq

def record (a : Accounting) : Entry → Accounting
  | .jobAcquired =>
    { a with
      jobsAcquired := a.jobsAcquired + 1
      jobsOutstanding := a.jobsOutstanding + 1
      jobsPeak := max a.jobsPeak (a.jobsOutstanding + 1) }
  | .jobReleased =>
    { a with jobsReleased := a.jobsReleased + 1, jobsOutstanding := a.jobsOutstanding - 1 }
  | .acquireFailed => { a with acquireFailures := a.acquireFailures + 1 }
  | .jobDispatched => { a with dispatches := a.dispatches + 1 }
  | .jobBusy => { a with busyOutcomes := a.busyOutcomes + 1 }
  | .jobCompleted => { a with completions := a.completions + 1 }
  | .jobFailed => { a with failures := a.failures + 1 }
  | .jobCancelled => { a with cancellations := a.cancellations + 1 }
  | .sessionCreated => { a with sessionsCreated := a.sessionsCreated + 1 }
  | .sessionFailed => { a with sessionFailures := a.sessionFailures + 1 }

/-- All counters under their names, in the order of a snapshot. -/
def snapshot (a : Accounting) : List (String × Int) :=
  [("jobs_acquired", a.jobsAcquired), ("jobs_released", a.jobsReleased),
   ("jobs_outstanding", a.jobsOutstanding), ("jobs_peak", a.jobsPeak),
   ("acquire_failures", a.acquireFailures), ("dispatches", a.dispatches),
   ("busy_outcomes", a.busyOutcomes), ("completions", a.completions), ("failures", a.failures),
   ("cancellations", a.cancellations), ("sessions_created", a.sessionsCreated),
   ("session_failures", a.sessionFailures)]

def inspect (a : Accounting) : String :=
  Text.record "AccountingSnapshot" (a.snapshot.map fun c => (c.1, toString c.2))

end Accounting
end PacketAuth
