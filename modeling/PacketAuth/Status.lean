import PacketAuth.Failure

/-! The numeric surface of a request: command codes in, status codes out. -/
namespace PacketAuth

/-- A request writes its tag into the buffer, or reads the one it finds there and checks it. -/
inductive Command where
  | write
  | read
  deriving Repr, DecidableEq

/-- A command code that names neither direction. -/
structure UnknownCommand where
  code : UInt8
  deriving Repr, DecidableEq

namespace UnknownCommand

def message (u : UnknownCommand) : String := "unknown command code " ++ toString u.code.toNat
def inspect (u : UnknownCommand) : String :=
  Text.wrapped "UnknownCommand" (toString u.code.toNat)

end UnknownCommand

namespace Command

def ofCode (code : UInt8) : Except UnknownCommand Command :=
  if code = 0 then .ok write else if code = 1 then .ok read else .error ⟨code⟩

def code : Command → UInt8
  | write => 0
  | read => 1

def text : Command → String
  | write => "write"
  | read => "read"

def inspect : Command → String
  | write => "Write"
  | read => "Read"

end Command

inductive Status where
  | success
  | sessionCreationFailed
  | engineUnavailable
  | engineFailed (code : Int32)
  | waitInterrupted
  | malformedRequest
  | authenticationMismatch
  deriving Repr, DecidableEq

namespace Status

/-- Zero on success; an engine failure keeps its own code. -/
def code : Status → Int32
  | success => 0
  | sessionCreationFailed => Code.io
  | engineUnavailable => Code.noBuffers
  | engineFailed code => code
  | waitInterrupted => Code.interrupted
  | malformedRequest => Code.invalid
  | authenticationMismatch => Code.authentication

def isSuccess : Status → Bool
  | success => true
  | _ => false

/-- An unknown lane reports as a malformed request. -/
def ofFailure (f : Failure) : Status :=
  match f.kind with
  | .sessionCreationFailed => sessionCreationFailed
  | .engineUnavailable => engineUnavailable
  | .engineFailed code => engineFailed code
  | .waitInterrupted => waitInterrupted
  | .malformedRequest => malformedRequest
  | .invalidLane => malformedRequest
  | .authenticationMismatch => authenticationMismatch

def ofResult : Except Failure Unit → Status
  | .ok () => success
  | .error f => ofFailure f

def inspect : Status → String
  | success => "Success"
  | sessionCreationFailed => "SessionCreationFailed"
  | engineUnavailable => "EngineUnavailable"
  | engineFailed code => Text.wrapped "EngineFailed" (toString code)
  | waitInterrupted => "WaitInterrupted"
  | malformedRequest => "MalformedRequest"
  | authenticationMismatch => "AuthenticationMismatch"

def text : Status → String
  | success => "success"
  | engineFailed code => "engine failed (" ++ toString code ++ ")"
  | status => status.inspect ++ " (" ++ toString status.code ++ ")"

end Status
end PacketAuth
