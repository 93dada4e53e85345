/-! A seeded stream of 64-bit words: a counter with a fixed odd increment, scrambled on the way
out. Equal seeds give equal streams, so keys drawn from it can be reproduced. -/
namespace PacketAuth

/-- The little-endian bytes of a word. -/
def littleEndian (w : UInt64) : List UInt8 :=
  [w.toUInt8, (w >>> 8).toUInt8, (w >>> 16).toUInt8, (w >>> 24).toUInt8,
   (w >>> 32).toUInt8, (w >>> 40).toUInt8, (w >>> 48).toUInt8, (w >>> 56).toUInt8]

@[simp] theorem littleEndian_length (w : UInt64) : (littleEndian w).length = 8 := rfl

structure SplitMix where
  state : UInt64
  deriving Repr, DecidableEq

namespace SplitMix

/-- The increment of the counter. -/
def gamma : UInt64 := 0x9e3779b97f4a7c15

/-- The scrambler; it is a permutation of the words. -/
def scramble (z : UInt64) : UInt64 :=
  let z := (z ^^^ (z >>> 30)) * 0xbf58476d1ce4e5b9
  let z := (z ^^^ (z >>> 27)) * 0x94d049bb133111eb
  z ^^^ (z >>> 31)

def ofSeed (seed : UInt64) : SplitMix := ⟨seed⟩

/-- The next word and the generator after it. -/
def next (g : SplitMix) : UInt64 × SplitMix :=
  (scramble (g.state + gamma), ⟨g.state + gamma⟩)

/-- The generator after `n` words. -/
def skip : Nat → SplitMix → SplitMix
  | 0, g => g
  | n + 1, g => skip n g.next.2

/-- `n` bytes of the stream: whole words, and of the last one only as many bytes as are left. -/
def fill (n : Nat) (g : SplitMix) : List UInt8 × SplitMix :=
  if n = 0 then ([], g)
  else
    let (w, g) := g.next
    let (rest, g) := fill (n - 8) g
    ((littleEndian w).take n ++ rest, g)
termination_by n

/-- A word reduced below a bound other than zero. -/
def below (bound : UInt64) (g : SplitMix) : UInt64 × SplitMix :=
  let (w, g) := g.next
  (w % bound, g)

def inspect (g : SplitMix) : String := "DetRng \x7b state: " ++ toString g.state.toNat ++ " \x7d"

end SplitMix
end PacketAuth
