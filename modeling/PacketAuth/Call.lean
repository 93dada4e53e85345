import PacketAuth.Completion
import PacketAuth.Service
import PacketAuth.Status

/-! A request to a service, the call that waits for its job, and the reply it ends with. -/
namespace PacketAuth

structure Request where
  service : Nat
  lane : LaneId
  command : Command
  buffer : List UInt8
  length : Nat
  interrupt : Option Nat := none
  deriving DecidableEq

/-- How a request ended, and the buffer as it left it. -/
structure Reply where
  result : Except Failure Unit
  buffer : List UInt8

namespace Reply

/-- A request that failed leaves the buffer alone. -/
def failed (r : Request) (f : Failure) : Reply := ⟨.error f, r.buffer⟩

def status (r : Reply) : Status := .ofResult r.result

/-- The length a caller of the numeric surface finds afterwards: zero after a mismatch. -/
def length (requested : Nat) (r : Reply) : Nat :=
  match r.result with
  | .error f => if f.kind = .authenticationMismatch then 0 else requested
  | .ok () => requested

end Reply

namespace Service

/-- The lane and the regions of a request; an unknown lane counts before a bad length. -/
def prepare (r : Request) (s : Service) (adding : Addition := .checked) :
    Except Failure (Lane × Regions) := do
  let lane ← s.lane r.lane
  let regions ← s.config.layout.split r.buffer.length r.length adding
  return (lane, regions)

end Service

namespace Outcome

/-- The code reported for a job that brought no tag; it is positive in any case. -/
def failureCode (o : Outcome) : Int32 :=
  match o.errorCode with
  | some code => if 0 < code then code else Code.io
  | none => Code.io

end Outcome

namespace Job

/-- The tag that a returned job carries behind its offset, or the failure it stands for. -/
def verdict (j : Job) : Except Failure Tag :=
  match j.outcome with
  | .done =>
    match Tag.ofHead? (j.output.drop ((j.descriptor.map Descriptor.inject).getD 0)) with
    | some tag => .ok tag
    | none => .error ⟨.engineFailed Code.io, some "engine output shorter than a tag"⟩
  | outcome => .error ⟨.engineFailed outcome.failureCode, none⟩

end Job

/-- A call whose job was submitted. It waits until it has a reply. -/
structure Call where
  request : Request
  regions : Regions
  retry : RetryPolicy
  job : JobId
  deadline : Option Nat := none
  slot : Slot := .pending
  reply : Option Reply := none

/-- What to do with a job that the engine handed back. -/
inductive Reaction where
  | resubmit (job : Job)
  | settle (job : Job) (exhausted : Bool)
  deriving DecidableEq

namespace Call

def isWaiting (c : Call) : Bool := c.reply.isNone

/-- When the wait runs out, for a call that still waits. -/
def expiry (c : Call) : Option Nat := if c.isWaiting then c.deadline else none

/-- A busy job is tried again while its caller waits and the policy allows it; when the policy
does not, it turns into a failed one. -/
def react (c : Call) (job : Job) : Reaction :=
  if job.outcome = .busy ∧ ¬ c.slot.isAbandoned then
    if c.retry.allows job.retries then .resubmit job.rearm
    else .settle (job.complete (.failed Code.again)) true
  else .settle job false

end Call
end PacketAuth
