import PacketAuth.Call
import PacketAuth.Engine
import PacketAuth.Interrupt

/-! One engine and all that was ever set up on it: services, calls, interrupts, the log, and the
instant reached. -/
namespace PacketAuth

/-- Jobs not submitted by a call go back to numbered holders. The log has its newest event in
front. -/
structure Host (σ : Type) where
  engine : σ
  services : List Service := []
  calls : List Call := []
  interrupts : Nat → Interrupt := fun _ => {}
  handedBack : List (Nat × Job) := []
  log : List Event := []
  now : Nat := 0
  isHeld : Bool := true

namespace Host
variable {σ α : Type}

def emit (e : Event) (h : Host σ) : Host σ := { h with log := e :: h.log }

/-- Lets the engine take a step. -/
def onEngine (f : σ → Step σ α) (h : Host σ) : α × Host σ :=
  let step := f h.engine
  (step.answer, { h with engine := step.state, log := step.events.reverse ++ h.log })

/-- Changes the engine in a way that it does not log. -/
def mapEngine (f : σ → σ) (h : Host σ) : Host σ := { h with engine := f h.engine }

def updateService (i : Nat) (f : Service → Service) (h : Host σ) : Host σ :=
  { h with services := h.services.modify i f }

def count (i : Nat) (c : Stats.Counter) (h : Host σ) : Host σ := h.updateService i (·.count c)

def setCall (ticket : Nat) (c : Call) (h : Host σ) : Host σ :=
  { h with calls := h.calls.set ticket c }

def setInterrupt (i : Nat) (interrupt : Interrupt) (h : Host σ) : Host σ :=
  { h with interrupts := fun j => if j = i then interrupt else h.interrupts j }

/-- Somebody still uses the engine: the host itself, a service, or a call under way. -/
def isEngineInUse (h : Host σ) : Bool :=
  h.isHeld || h.services.any Service.isHeld || h.calls.any Call.isWaiting

/-- The reply of a call, once it has one. -/
def reply? (ticket : Nat) (h : Host σ) : Option Reply := h.calls[ticket]?.bind Call.reply

/-- The next instant at which something happens by itself: a deferred job may start, or a wait
runs out. -/
def nextInstant (E : Engine σ) (h : Host σ) : Option Nat :=
  ((E.wake h.engine).toList ++ h.calls.filterMap Call.expiry).min?

end Host
end PacketAuth
