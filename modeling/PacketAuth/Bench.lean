import PacketAuth.Host.Request

/-! A workbench around a host: numbered buffers, services that can be dropped, calls that run
beside the others until they are joined, and jobs filled and submitted by hand. -/
namespace PacketAuth

/-- A call enters by a command code, or as one of the two typed operations. -/
inductive Surface where
  | numeric (code : UInt8)
  | typed (command : Command)
  deriving Repr, DecidableEq

def Surface.command : Surface → Except UnknownCommand Command
  | numeric code => Command.ofCode code
  | typed command => .ok command

/-- A call on a numbered service and a numbered buffer. -/
structure CallSpec where
  service : Nat
  surface : Surface
  lane : LaneId
  length : Nat
  buffer : Nat
  interrupt : Option Nat := none
  deriving Repr, DecidableEq

/-- Why the bench did not do what it was asked. A call is endless if nothing would ever end its
wait. -/
inductive BenchError where
  | noService
  | noEngine
  | noJob
  | nothingHeld
  | joined
  | outOfRange
  | endless
  | unknownCommand (error : UnknownCommand)
  | config (error : ConfigError)
  | engine (error : EngineError)
  | failure (failure : Failure)
  deriving DecidableEq

/-- What a caller sees of a call, by the surface it came through. -/
inductive CallAnswer where
  | numeric (command : Command) (status : Status) (length : Nat) (buffer : List UInt8)
  | typed (command : Command) (result : Except Failure Unit) (buffer : List UInt8)

def CallSpec.answer (spec : CallSpec) (command : Command) (reply : Reply) : CallAnswer :=
  match spec.surface with
  | .numeric _ => .numeric command reply.status (reply.length spec.length) reply.buffer
  | .typed _ => .typed command reply.result reply.buffer

/-- How far a call beside the others got: it never reached a service, it was refused before it had
a job, or it has a ticket. -/
inductive Progress where
  | misdirected (error : BenchError)
  | refused (failure : Failure)
  | ticket (n : Nat)
  deriving DecidableEq

/-- A call beside the others, with its own copy of the buffer. One that may stay deferred is not
waited for when the engine resumes. -/
structure Spawned where
  spec : CallSpec
  command : Command := .write
  buffer : List UInt8
  progress : Progress
  mayStayDeferred : Bool
  isJoined : Bool := false
  deriving DecidableEq

/-- A place for a job filled by hand, the id under which it was last acquired or submitted, and the
delay with which it was submitted, if it was to come back. -/
structure Holder where
  job : Option Job
  id : JobId
  delay : Option Nat := none
  deriving DecidableEq

structure Bench (σ : Type) where
  host : Host σ
  services : List (Option Nat) := []
  buffers : List (List UInt8) := []
  spawned : List Spawned := []
  holders : List Holder := []

namespace Bench
variable {σ : Type}

def buffer (i : Nat) (b : Bench σ) : List UInt8 := b.buffers.getD i []

def setBuffer (i : Nat) (bytes : List UInt8) (b : Bench σ) : Bench σ :=
  { b with buffers := b.buffers.set i bytes }

/-- The service in a numbered place, under the index it has in the host. -/
def service? (i : Nat) (b : Bench σ) : Option (Nat × Service) := do
  let index ← (← b.services[i]?)
  return (index, ← b.host.services[index]?)

/-- The counters of every service still held, place by place. -/
def stats (b : Bench σ) : List (Option Stats) :=
  b.services.map fun place => do
    let index ← place
    return (← b.host.services[index]?).stats

/-- A worker logs its end in its own time; no other event depends on when. -/
def isTimely : Event → Bool
  | .engineStopping .. => false
  | _ => true

/-- The events logged since the last time, which are then forgotten. -/
def takeLog (b : Bench σ) : List Event × Bench σ :=
  (b.host.log.reverse.filter isTimely, { b with host := { b.host with log := [] } })

end Bench
end PacketAuth
