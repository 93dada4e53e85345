import PacketAuth.CancelReason
import PacketAuth.Job

/-! The place where an engine leaves a finished job and one waiter finds it. Whoever comes second
decides who owns the job: a waiter that left early marks the place, and the engine keeps the job. -/
namespace PacketAuth

inductive Slot where
  | pending
  | completed (job : Job)
  | taken
  | abandoned
  deriving DecidableEq

/-- What becomes of a finished job. -/
inductive Delivery where
  | delivered
  | refused (job : Job)
  deriving DecidableEq

/-- How a wait ends. -/
inductive Arrival where
  | completed (job : Job)
  | interrupted (reason : CancelReason)
  deriving DecidableEq

namespace Slot

/-- Leaves a job in a slot that still waits for one; any other slot refuses it. -/
def complete (job : Job) : Slot → Delivery × Slot
  | pending => (.delivered, completed job)
  | slot => (.refused job, slot)

/-- One look of a waiter: a finished job is taken whatever else happened, then a reason to leave
counts, then the end of the time. Otherwise the waiter goes on waiting. -/
def look (reason : Option CancelReason) (expired : Bool) : Slot → Option Arrival × Slot
  | completed job => (some (.completed job), taken)
  | slot =>
    match reason with
    | some reason => (some (.interrupted reason), abandoned)
    | none => if expired then (some (.interrupted .timeout), abandoned) else (none, slot)

def isAbandoned : Slot → Bool
  | abandoned => true
  | _ => false

def text : Slot → String
  | pending => "pending"
  | completed _ => "completed"
  | taken => "taken"
  | abandoned => "abandoned"

def inspect (s : Slot) : String :=
  Text.record "CompletionSignal" [("state", Text.quoted s.text)]

@[simp] theorem complete_pending (job : Job) : complete job pending = (.delivered, completed job) :=
  rfl

@[simp] theorem look_completed (job : Job) (reason : Option CancelReason) (expired : Bool) :
    look reason expired (completed job) = (some (.completed job), taken) := rfl

end Slot

def Delivery.inspect : Delivery → String
  | delivered => "Delivered"
  | refused job => Text.wrapped "Abandoned" job.inspect

def Arrival.inspect : Arrival → String
  | completed job => Text.wrapped "Completed" job.inspect
  | interrupted reason => Text.wrapped "Interrupted" reason.inspect

end PacketAuth
