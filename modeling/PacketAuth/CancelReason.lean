import PacketAuth.Text.Quoted
import PacketAuth.Text.Record

/-! Why a wait ended early: a kind with a severity, and an optional message. -/
namespace PacketAuth

inductive CancelKind where
  | user
  | timeout
  | shutdown
  deriving Repr, DecidableEq

namespace CancelKind

def severity : CancelKind → Nat
  | user => 0
  | timeout => 1
  | shutdown => 2

def text : CancelKind → String
  | user => "user"
  | timeout => "timeout"
  | shutdown => "shutdown"

def inspect : CancelKind → String
  | user => "User"
  | timeout => "Timeout"
  | shutdown => "Shutdown"

end CancelKind

structure CancelReason where
  kind : CancelKind
  message : Option String := none
  deriving Repr, DecidableEq

namespace CancelReason

/-- The reason of a wait that ran out of time. -/
def timeout : CancelReason := ⟨.timeout, none⟩

/-- Replaces a reason by one that is strictly more severe; says whether it did. -/
def strengthen (current other : CancelReason) : Bool × CancelReason :=
  if current.kind.severity < other.kind.severity then (true, other) else (false, current)

def text (r : CancelReason) : String :=
  match r.message with
  | none => r.kind.text
  | some m => r.kind.text ++ ": " ++ m

def inspect (r : CancelReason) : String :=
  Text.record "CancelReason"
    [("kind", r.kind.inspect), ("message", Text.optional (r.message.map Text.quoted))]

end CancelReason
end PacketAuth
