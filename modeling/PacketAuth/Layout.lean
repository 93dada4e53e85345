import PacketAuth.Config.Error
import PacketAuth.Failure
import PacketAuth.Tag

/-! Where the tag and the authenticated payload lie inside a request, and the copy of the payload
in which the tag is blanked out, so that a tag never authenticates itself. -/
namespace PacketAuth

/-- The positions from `start` up to, but without, `stop`. -/
structure Region where
  start : Nat
  stop : Nat
  deriving Repr, DecidableEq

namespace Region

def length (r : Region) : Nat := r.stop - r.start

/-- The region lies inside a buffer of `n` bytes. -/
def Fits (r : Region) (n : Nat) : Prop := r.start ≤ r.stop ∧ r.stop ≤ n

instance (r : Region) (n : Nat) : Decidable (r.Fits n) := inferInstanceAs (Decidable (_ ∧ _))

/-- The bytes of the region. -/
def read (r : Region) (buffer : List UInt8) : List UInt8 := (buffer.drop r.start).take r.length

/-- The buffer with the region replaced by bytes that fill it. -/
def write (r : Region) (bytes buffer : List UInt8) : List UInt8 :=
  buffer.take r.start ++ bytes ++ buffer.drop r.stop

/-- The part of a region that lies in another one. -/
def meet (r s : Region) : Region := ⟨max r.start s.start, min r.stop s.stop⟩

/-- The same region seen from a later origin. -/
def since (r : Region) (origin : Nat) : Region := ⟨r.start - origin, r.stop - origin⟩

theorem read_length {r : Region} {buffer : List UInt8} (h : r.Fits buffer.length) :
    (r.read buffer).length = r.length := by
  obtain ⟨h₁, h₂⟩ := h
  simp only [read, length, List.length_take, List.length_drop]
  omega

theorem write_length {r : Region} {bytes buffer : List UInt8} (h : r.Fits buffer.length)
    (hb : bytes.length = r.length) : (r.write bytes buffer).length = buffer.length := by
  obtain ⟨h₁, h₂⟩ := h
  simp only [write, length, List.length_append, List.length_take, List.length_drop] at *
  omega

end Region

/-- The tag and the payload of one request. -/
structure Regions where
  tag : Region
  payload : Region
  deriving Repr, DecidableEq

namespace Regions

/-- The payload with zeros wherever the tag overlaps it. -/
def maskedPayload (r : Regions) (buffer : List UInt8) : List UInt8 :=
  let bytes := r.payload.read buffer
  let overlap := (r.tag.meet r.payload).since r.payload.start
  if overlap.start < overlap.stop then
    overlap.write (List.replicate overlap.length 0) bytes
  else bytes

end Regions

/-- How a build of the program adds two lengths. With overflow checks it adds them as numbers, and
stops where the sum is not a machine word; without them it goes on with what is left of the sum in
a word. -/
inductive Addition where
  | checked
  | wrapping
  deriving Repr, DecidableEq

/-- The sum that the build goes on with. A machine word has 64 bits. -/
def Addition.sum : Addition → Nat → Nat → Nat
  | .checked, m, n => m + n
  | .wrapping, m, n => (m + n) % UInt64.size

/-- How many bytes precede the payload, and where the tag starts. -/
structure Layout where
  prefixLength : Nat := 4
  tagOffset : Nat := 4
  deriving Repr, DecidableEq

namespace Layout

/-- The shortest request: the bytes in front and one tag. -/
def minLength (l : Layout) (adding : Addition := .checked) : Nat :=
  adding.sum l.prefixLength Tag.size

/-- The tag may not start behind the payload, and the shortest request fits a 16-bit length. -/
def validate (l : Layout) (adding : Addition := .checked) : Except ConfigError Unit :=
  if l.prefixLength < l.tagOffset then .error (.tagOutsideFrame l.tagOffset (l.minLength adding))
  else if 65535 < l.minLength adding then .error (.prefixTooLong l.prefixLength)
  else .ok ()

/-- The regions of a request of `total` bytes in a buffer of `available` bytes. -/
def split (l : Layout) (available total : Nat) (adding : Addition := .checked) :
    Except Failure Regions :=
  if total < l.minLength adding then
    .error ⟨.malformedRequest,
      some ("length " ++ toString total ++ " below minimum " ++ toString (l.minLength adding))⟩
  else if available < total then
    .error ⟨.malformedRequest,
      some ("buffer of " ++ toString available ++ " bytes shorter than length " ++ toString total)⟩
  else .ok ⟨⟨l.tagOffset, adding.sum l.tagOffset Tag.size⟩, ⟨l.prefixLength, total⟩⟩

def inspect (l : Layout) : String :=
  Text.record "WireLayout"
    [("reference_prefix_len", toString l.prefixLength), ("tag_offset", toString l.tagOffset)]

end Layout
end PacketAuth
