/-! Lower-case hexadecimal text of bytes and of natural numbers. -/
namespace PacketAuth.Hex

/-- The two digits of a byte, high digit first. -/
def ofByte (b : UInt8) : List Char :=
  [Nat.digitChar (b.toNat / 16), Nat.digitChar (b.toNat % 16)]

def ofBytes (bytes : List UInt8) : String := String.ofList (bytes.flatMap ofByte)

/-- A number with the marker `0x` in front and no leading zero. -/
def ofNat (n : Nat) : String := "0x" ++ String.ofList (Nat.toDigits 16 n)

@[simp] theorem ofByte_length (b : UInt8) : (ofByte b).length = 2 := rfl

example : ofBytes [0x00, 0xa7, 0xff] = "00a7ff" := by decide
example : ofNat 255 = "0xff" := by decide

end PacketAuth.Hex
