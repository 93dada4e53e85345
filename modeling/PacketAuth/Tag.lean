import PacketAuth.Text.Hex

/-! Authentication tags: the first 16 bytes of a keyed digest. -/
namespace PacketAuth

structure Tag where
  bytes : List UInt8
  length_eq : bytes.length = 16
  deriving DecidableEq

namespace Tag

def size : Nat := 16

def zero : Tag := ⟨List.replicate 16 0, rfl⟩

/-- The tag that a byte string starts with, if it is long enough to hold one. -/
def ofHead? (source : List UInt8) : Option Tag :=
  if h : 16 ≤ source.length then some ⟨source.take 16, by simp [h]⟩ else none

/-- Comparison whose work does not depend on where the bytes differ: all differences are
collected before the verdict. A slice of any other length never matches. -/
def agrees (t : Tag) (wire : List UInt8) : Bool :=
  wire.length == size &&
    (t.bytes.zip wire).foldl (fun diff p => diff ||| (p.1 ^^^ p.2)) 0 == 0

def text (t : Tag) : String := Hex.ofBytes t.bytes

/-- Shows the first two bytes only. -/
def inspect (t : Tag) : String := "Tag(" ++ Hex.ofBytes (t.bytes.take 2) ++ "...)"

@[simp] theorem length_bytes (t : Tag) : t.bytes.length = 16 := t.length_eq

@[simp] theorem ofHead?_bytes (t : Tag) : ofHead? t.bytes = some t := by
  cases t with
  | mk bytes h => simp [ofHead?, h, List.take_of_length_le]

end Tag
end PacketAuth
