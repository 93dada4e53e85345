import PacketAuth.Text.Record

/-! How often, and after which pause, a job is submitted again when the engine was busy. -/
namespace PacketAuth

/-- Without a bound the job is resubmitted for as long as the engine is busy. The pause is in
milliseconds. -/
structure RetryPolicy where
  maxRetries : Option Nat := some 64
  backoff : Nat := 0
  deriving Repr, DecidableEq

namespace RetryPolicy

def defaultMaxRetries : Nat := 64

def unbounded : RetryPolicy := ⟨none, 0⟩
def bounded (max : Nat) : RetryPolicy := ⟨some max, 0⟩

/-- A job resubmitted `attempts` times already may be resubmitted once more. -/
def allows (p : RetryPolicy) (attempts : Nat) : Bool :=
  match p.maxRetries with
  | none => true
  | some max => attempts < max

def inspect (p : RetryPolicy) : String :=
  Text.record "RetryPolicy"
    [("max_busy_retries", Text.optional (p.maxRetries.map toString)),
     ("busy_backoff_ms", toString p.backoff)]

end RetryPolicy
end PacketAuth
