import PacketAuth.CancelReason

/-! A handle with which a host ends waits early. Once triggered it stays triggered, with the most
severe reason so far, until it is reset. -/
namespace PacketAuth

/-- The waiters are the tickets of the waits to wake at the next trigger. -/
structure Interrupt where
  reason : Option CancelReason := none
  waiters : List Nat := []
  deriving Repr, DecidableEq

namespace Interrupt

def register (ticket : Nat) (i : Interrupt) : Interrupt :=
  { i with waiters := i.waiters ++ [ticket] }

/-- Merges the reason, and gives the waits to wake, each of which is woken once. -/
def trigger (reason : CancelReason) (i : Interrupt) : List Nat × Interrupt :=
  let merged := match i.reason with
    | none => reason
    | some current => (current.strengthen reason).2
  (i.waiters, ⟨some merged, []⟩)

/-- Forgets the reason, not the waiters. -/
def reset (i : Interrupt) : Interrupt := { i with reason := none }

def isTriggered (i : Interrupt) : Bool := i.reason.isSome

def inspect (i : Interrupt) : String :=
  Text.record "Interrupt" [("reason", Text.optional (i.reason.map CancelReason.inspect))]

end Interrupt
end PacketAuth
