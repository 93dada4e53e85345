import PacketAuth.Failure
import PacketAuth.Id
import PacketAuth.Key

/-! The unit of work of an engine: input and output bytes, a descriptor of what to compute, an
outcome, and whom to hand the job back to. -/
namespace PacketAuth

/-- What a session computes. -/
inductive Algorithm where
  | hmacSha256
  deriving Repr, DecidableEq

namespace Algorithm

def id : Algorithm → Nat
  | hmacSha256 => 1

def keyLength : Algorithm → Nat
  | hmacSha256 => AuthKey.size

def digestLength : Algorithm → Nat
  | hmacSha256 => 32

def inspect : Algorithm → String
  | hmacSha256 => "HmacSha256"

end Algorithm

/-- A job is pending until the engine hands it back. -/
inductive Outcome where
  | pending
  | done
  | busy
  | failed (code : Int32)
  deriving Repr, DecidableEq

namespace Outcome

/-- A job that was not processed counts as one to try again. -/
def errorCode : Outcome → Option Int32
  | done => none
  | failed code => some code
  | busy => some Code.again
  | pending => some Code.again

def inspect : Outcome → String
  | pending => "Pending"
  | done => "Done"
  | busy => "Busy"
  | failed code => Text.wrapped "Failed" (toString code)

end Outcome

/-- The window `[skip, skip + length)` of the input to authenticate in a session, and how many
zero bytes precede the tag in the output. -/
structure Descriptor where
  session : SessionHandle
  key : AuthKey
  skip : Nat
  length : Nat
  inject : Nat
  deriving DecidableEq

namespace Descriptor

def algorithm (_ : Descriptor) : Algorithm := .hmacSha256

def inspect (d : Descriptor) : String :=
  Text.record "JobDescriptor"
    [("session", d.session.inspect), ("algorithm", d.algorithm.inspect), ("key", d.key.inspect),
     ("skip", toString d.skip), ("length", toString d.length), ("inject", toString d.inject)]

end Descriptor

/-- Who gets a job once the engine is through with it: a waiting call, or a numbered holder. -/
inductive Recipient where
  | call (ticket : Nat)
  | holder (index : Nat)
  deriving Repr, DecidableEq

structure Job where
  id : JobId
  descriptor : Option Descriptor := none
  input : List UInt8 := []
  output : List UInt8 := []
  outcome : Outcome := .pending
  retries : Nat := 0
  recipient : Option Recipient := none
  deriving DecidableEq

namespace Job

/-- The counter of retries stops at its largest 32-bit value. -/
def maxRetryCount : Nat := UInt32.size - 1

/-- An empty job under an id of its own. -/
def fresh (id : JobId) : Job := { id }

/-- Ready for one more attempt after a busy answer. -/
def rearm (j : Job) : Job :=
  { j with retries := min (j.retries + 1) maxRetryCount, outcome := .pending }

def complete (j : Job) (outcome : Outcome) : Job := { j with outcome }

/-- Emptied for its next user, under a new id. -/
def reset (id : JobId) (j : Job) : Job :=
  { j with
    id, descriptor := none, input := [], output := [], outcome := .pending, retries := 0
    recipient := none }

def inspect (j : Job) : String :=
  Text.record "Job"
    [("id", j.id.inspect), ("descriptor", Text.optional (j.descriptor.map Descriptor.inspect)),
     ("input_len", toString j.input.length), ("output_len", toString j.output.length),
     ("outcome", j.outcome.inspect), ("busy_retries", toString j.retries),
     ("has_callback", Text.boolean j.recipient.isSome)]

/-- Nothing of its former use shows in a job that was emptied. -/
@[simp] theorem reset_eq_fresh (id : JobId) (j : Job) : j.reset id = fresh id := rfl

@[simp] theorem fresh_id (id : JobId) : (fresh id).id = id := rfl
@[simp] theorem rearm_id (j : Job) : j.rearm.id = j.id := rfl
@[simp] theorem rearm_outcome (j : Job) : j.rearm.outcome = .pending := rfl
@[simp] theorem complete_id (j : Job) (o : Outcome) : (j.complete o).id = j.id := rfl
@[simp] theorem complete_outcome (j : Job) (o : Outcome) : (j.complete o).outcome = o := rfl

end Job
end PacketAuth
