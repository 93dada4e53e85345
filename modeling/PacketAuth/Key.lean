import PacketAuth.SplitMix
import PacketAuth.Text.Record

/-! The shared authentication key: exactly 32 bytes, none of which any text shows. -/
namespace PacketAuth

/-- A byte string offered as a key had the wrong length. -/
structure KeyLengthError where
  expected : Nat
  actual : Nat
  deriving Repr, DecidableEq

namespace KeyLengthError

def message (e : KeyLengthError) : String :=
  "invalid key length: expected " ++ toString e.expected ++ " bytes, got " ++ toString e.actual

def inspect (e : KeyLengthError) : String :=
  Text.record "KeyLengthError" [("expected", toString e.expected), ("actual", toString e.actual)]

end KeyLengthError

structure AuthKey where
  bytes : List UInt8
  length_eq : bytes.length = 32
  deriving DecidableEq

namespace AuthKey

def size : Nat := 32

def ofBytes (bytes : List UInt8) : Except KeyLengthError AuthKey :=
  if h : bytes.length = 32 then .ok ⟨bytes, h⟩ else .error ⟨size, bytes.length⟩

/-- The next four words of a generator, little-endian. -/
def ofGenerator (g : SplitMix) : AuthKey × SplitMix :=
  let (a, g) := g.next
  let (b, g) := g.next
  let (c, g) := g.next
  let (d, g) := g.next
  (⟨littleEndian a ++ littleEndian b ++ littleEndian c ++ littleEndian d, rfl⟩, g)

def ofSeed (seed : UInt64) : AuthKey := (ofGenerator (.ofSeed seed)).1

/-- The only text of a key, whatever its bytes. -/
def inspect (_ : AuthKey) : String := "AuthKey(..)"

@[simp] theorem length_bytes (k : AuthKey) : k.bytes.length = 32 := k.length_eq

@[simp] theorem ofBytes_bytes (k : AuthKey) : ofBytes k.bytes = .ok k := by
  simp [ofBytes]

end AuthKey
end PacketAuth
