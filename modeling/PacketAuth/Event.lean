import PacketAuth.CancelReason
import PacketAuth.Config.Error
import PacketAuth.Job

/-! What engines and services log: a closed list of events, each with its level and its line. -/
namespace PacketAuth

/-- Why an engine did not open a session. -/
inductive EngineError where
  | keyLength (expected actual : Nat)
  | sessionsExhausted (open_ : Nat)
  | shutDown
  | injected
  deriving Repr, DecidableEq

namespace EngineError

def message : EngineError → String
  | keyLength expected actual =>
    "key length " ++ toString actual ++ " does not match " ++ toString expected ++
      " required by the algorithm"
  | sessionsExhausted n => "session table exhausted (" ++ toString n ++ " sessions)"
  | shutDown => "engine shut down"
  | injected => "injected failure"

def inspect : EngineError → String
  | keyLength expected actual =>
    Text.record "KeyLength" [("expected", toString expected), ("actual", toString actual)]
  | sessionsExhausted n => Text.wrapped "SessionsExhausted" (toString n)
  | shutDown => "ShutDown"
  | injected => "Injected"

end EngineError

inductive Level where
  | trace
  | debug
  | info
  | warn
  deriving Repr, DecidableEq

def Level.text : Level → String
  | trace => "TRACE"
  | debug => "DEBUG"
  | info => "INFO"
  | warn => "WARN"

inductive Event where
  | engineStarted (jobs sessions : Nat)
  | sessionCreated (session : SessionHandle)
  | jobQueued (job : JobId) (depth : Nat) (deferred : Bool)
  | jobProcessed (job : JobId) (outcome : Outcome)
  | jobCancelled (job : JobId)
  | engineStopping (drained : Nat)
  | serviceReady (lanes prefixLength tagOffset : Nat)
  | configRejected (error : ConfigError)
  | requestRejected (lane : LaneId) (length : Nat) (failure : Failure)
  | laneOpened (lane : LaneId) (session : SessionHandle)
  | laneNotOpened (lane : LaneId) (error : EngineError)
  | tagMismatch (lane : LaneId) (length : Nat)
  | waitInterrupted (lane : LaneId) (job : JobId) (reason : CancelReason)
  | jobFailed (lane : LaneId) (job : JobId) (code : Int32)
  | resubmitting (job : JobId) (attempt : Nat)
  | retriesExhausted (job : JobId) (retries : Nat)
  | abandonedReleased (job : JobId)
  deriving Repr, DecidableEq

namespace Event

def level : Event → Level
  | jobQueued .. | jobProcessed .. | resubmitting .. | abandonedReleased .. => .trace
  | engineStarted .. | sessionCreated .. | jobCancelled .. | engineStopping .. | requestRejected ..
  | laneOpened .. | waitInterrupted .. | jobFailed .. => .debug
  | serviceReady .. => .info
  | configRejected .. | laneNotOpened .. | tagMismatch .. | retriesExhausted .. => .warn

def wording : Event → String
  | engineStarted .. => "soft engine started"
  | sessionCreated .. => "session created"
  | jobQueued .. => "job queued"
  | jobProcessed .. => "job processed"
  | jobCancelled .. => "queued job cancelled"
  | engineStopping .. => "soft engine stopping"
  | serviceReady .. => "mac service ready"
  | configRejected .. => "rejected service configuration"
  | requestRejected .. => "request rejected"
  | laneOpened .. => "lane session opened"
  | laneNotOpened .. => "lane session creation failed"
  | tagMismatch .. => "tag mismatch"
  | waitInterrupted .. => "wait interrupted"
  | jobFailed .. => "engine job failed"
  | resubmitting .. => "engine busy, resubmitting"
  | retriesExhausted .. => "busy retries exhausted"
  | abandonedReleased .. => "releasing job abandoned by its caller"

def fields : Event → List (String × String)
  | engineStarted jobs sessions =>
    [("job_capacity", toString jobs), ("session_capacity", toString sessions)]
  | sessionCreated session =>
    [("session", session.text), ("algorithm", toString Algorithm.hmacSha256.id)]
  | jobQueued job depth deferred =>
    [("job", job.text), ("depth", toString depth), ("deferred", Text.boolean deferred)]
  | jobProcessed job outcome => [("job", job.text), ("outcome", outcome.inspect)]
  | jobCancelled job => [("job", job.text)]
  | engineStopping drained => [("drained", toString drained)]
  | serviceReady lanes prefixLength tagOffset =>
    [("lanes", toString lanes), ("prefix", toString prefixLength),
     ("tag_offset", toString tagOffset)]
  | configRejected error => [("error", error.message)]
  | requestRejected lane length failure =>
    [("lane", lane.text), ("length", toString length), ("error", failure.message)]
  | laneOpened lane session => [("lane", lane.text), ("session", session.text)]
  | laneNotOpened lane error => [("lane", lane.text), ("error", error.message)]
  | tagMismatch lane length => [("lane", lane.text), ("length", toString length)]
  | waitInterrupted lane job reason =>
    [("lane", lane.text), ("job", job.text), ("reason", reason.text)]
  | jobFailed lane job code => [("lane", lane.text), ("job", job.text), ("code", toString code)]
  | resubmitting job attempt => [("job", job.text), ("attempt", toString attempt)]
  | retriesExhausted job retries => [("job", job.text), ("retries", toString retries)]
  | abandonedReleased job => [("job", job.text)]

/-- Level, wording, and the fields as `name=value`, between single blanks. -/
def line (e : Event) : String :=
  " ".intercalate (e.level.text :: e.wording :: e.fields.map fun f => f.1 ++ "=" ++ f.2)

end Event
end PacketAuth
