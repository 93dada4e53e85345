import PacketAuth.Text.Quoted
import PacketAuth.Text.Record

/-! How a request can fail: a closed list of kinds, each with its wording, and an optional
context that names the lane or the request involved. -/
namespace PacketAuth

/-! Numeric error codes, shared by engines and by the status surface. -/
namespace Code

def interrupted : Int32 := 4
def io : Int32 := 5
def invalid : Int32 := 22
def again : Int32 := 35
def noBuffers : Int32 := 55
def shutDown : Int32 := 58
def authentication : Int32 := 80

end Code

inductive FailureKind where
  | sessionCreationFailed
  | engineUnavailable
  | engineFailed (code : Int32)
  | waitInterrupted
  | malformedRequest
  | authenticationMismatch
  | invalidLane
  deriving Repr, DecidableEq

namespace FailureKind

def wording : FailureKind → String
  | sessionCreationFailed => "could not create engine session"
  | engineUnavailable => "no engine job resources available"
  | engineFailed code => "engine operation failed (code " ++ toString code ++ ")"
  | waitInterrupted => "wait for engine completion interrupted"
  | malformedRequest => "malformed request"
  | authenticationMismatch => "authentication tag mismatch"
  | invalidLane => "lane id out of range"

/-- The name of the kind without its code. -/
def name : FailureKind → String
  | sessionCreationFailed => "SessionCreationFailed"
  | engineUnavailable => "EngineUnavailable"
  | engineFailed _ => "EngineFailed"
  | waitInterrupted => "WaitInterrupted"
  | malformedRequest => "MalformedRequest"
  | authenticationMismatch => "AuthenticationMismatch"
  | invalidLane => "InvalidLane"

def inspect : FailureKind → String
  | engineFailed code => Text.wrapped "EngineFailed" (toString code)
  | kind => kind.name

/-- The code the engine failed with, for the kind that carries one. -/
def code? : FailureKind → Option Int32
  | engineFailed code => some code
  | _ => none

end FailureKind

structure Failure where
  kind : FailureKind
  context : Option String := none
  deriving Repr, DecidableEq

namespace Failure

/-- The later context replaces an earlier one. -/
def withContext (f : Failure) (context : String) : Failure := { f with context := some context }

def message (f : Failure) : String :=
  match f.context with
  | none => f.kind.wording
  | some context => f.kind.wording ++ ": " ++ context

def inspect (f : Failure) : String :=
  Text.record "MacError"
    [("kind", f.kind.inspect), ("context", Text.optional (f.context.map Text.quoted))]

end Failure
end PacketAuth
