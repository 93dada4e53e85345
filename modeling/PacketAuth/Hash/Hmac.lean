import PacketAuth.Hash.Sha256

/-! HMAC-SHA256: the keyed digest whose leading bytes authenticate a request. -/
namespace PacketAuth.Hmac

def blockSize : Nat := 64

/-- The key as one block; a key longer than a block is hashed first. -/
def keyBlock (key : List UInt8) : List UInt8 :=
  let short := if blockSize < key.length then Sha256.digest key else key
  short ++ List.replicate (blockSize - short.length) 0

/-- The keyed digest: an inner digest under one mask of the key, an outer one under another. -/
def mac (key message : List UInt8) : List UInt8 :=
  let block := keyBlock key
  Sha256.digest (block.map (· ^^^ 0x5c) ++ Sha256.digest (block.map (· ^^^ 0x36) ++ message))

@[simp] theorem mac_length (key message : List UInt8) : (mac key message).length = 32 := by
  simp [mac]

end PacketAuth.Hmac
