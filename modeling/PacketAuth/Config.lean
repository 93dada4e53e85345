import PacketAuth.Layout
import PacketAuth.Retry

/-! The settings of a service, and which of them it can honour. -/
namespace PacketAuth

/-- The wait timeout is in milliseconds. -/
structure Config where
  laneCount : Nat := 15
  layout : Layout := {}
  retry : RetryPolicy := {}
  waitTimeout : Option Nat := none
  deriving Repr, DecidableEq

namespace Config

/-- The first rule that the settings break, in the order lanes, timeout, layout. -/
def validate (c : Config) (adding : Addition := .checked) : Except ConfigError Unit :=
  if c.laneCount = 0 then .error .noLanes
  else if maxLaneCount < c.laneCount then .error (.tooManyLanes c.laneCount)
  else if c.waitTimeout = some 0 then .error .zeroTimeout
  else c.layout.validate adding

/-- A configuration is accepted if it breaks none of its rules. -/
theorem validate_eq_ok (c : Config) (adding : Addition := .checked) :
    c.validate adding = .ok () ↔
      1 ≤ c.laneCount ∧ c.laneCount ≤ maxLaneCount ∧ c.waitTimeout ≠ some 0 ∧
        c.layout.validate adding = .ok () := by
  unfold validate
  rw [Nat.one_le_iff_ne_zero, ← Nat.not_lt]
  by_cases none : c.laneCount = 0
  · simp [none]
  · by_cases many : maxLaneCount < c.laneCount
    · simp [none, many]
    · by_cases zero : c.waitTimeout = some 0
      · simp [none, many, zero]
      · simp [none, many, zero]

def inspect (c : Config) : String :=
  Text.record "ServiceConfig"
    [("lane_count", toString c.laneCount), ("layout", c.layout.inspect),
     ("retry", c.retry.inspect),
     ("wait_timeout_ms", Text.optional (c.waitTimeout.map toString))]

end Config

/-- The longest timeout that can be stored, in milliseconds. -/
def maxTimeout : Nat := UInt64.size - 1

/-- A duration of whole seconds and further nanoseconds as the least number of milliseconds that
is not shorter, or the longest one that can be stored. -/
def timeoutOfDuration (seconds nanoseconds : Nat) : Nat :=
  min ((seconds * 1000000000 + nanoseconds + 999999) / 1000000) maxTimeout

end PacketAuth
