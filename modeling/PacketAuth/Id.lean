import PacketAuth.Text.Hex
import PacketAuth.Text.Record

/-! Names of lanes, engine sessions and engine jobs. -/
namespace PacketAuth

/-- A lane is named by one byte. -/
structure LaneId where
  index : UInt8
  deriving Repr, DecidableEq

/-- What an engine hands out for an open session. -/
structure SessionHandle where
  raw : Nat
  deriving Repr, DecidableEq

/-- Job ids are counted from one and never given twice. -/
structure JobId where
  raw : Nat
  deriving Repr, DecidableEq

namespace LaneId

def text (l : LaneId) : String := "lane" ++ toString l.index.toNat
def inspect (l : LaneId) : String := Text.wrapped "LaneId" (toString l.index.toNat)

/-- A lane read from an integer: one byte, nothing outside it. -/
def ofInt? (n : Int) : Option LaneId :=
  if 0 ≤ n ∧ n < 256 then some ⟨n.toNat.toUInt8⟩ else none

end LaneId

namespace SessionHandle

def text (s : SessionHandle) : String := "sid:" ++ Hex.ofNat s.raw
def inspect (s : SessionHandle) : String := Text.wrapped "SessionHandle" (Hex.ofNat s.raw)

/-- A handle read from an integer: 64 bits, nothing outside them. -/
def ofInt? (n : Int) : Option SessionHandle :=
  if 0 ≤ n ∧ n < UInt64.size then some ⟨n.toNat⟩ else none

end SessionHandle

namespace JobId

def text (j : JobId) : String := "job" ++ toString j.raw
def inspect (j : JobId) : String := Text.wrapped "JobId" (toString j.raw)

/-- The first `n` ids. -/
def firstIds (n : Nat) : List JobId := (List.range n).map fun i => ⟨i + 1⟩

end JobId
end PacketAuth
