import FuturesDesk.Digest.Sha256

/-! Keyed hashes over SHA-256, and their text in hex. -/
namespace FuturesDesk.Hmac

/-- The bytes of a block of the hash. -/
def blockSize : Nat := 64

/-- A key of the size of a block; a longer one is hashed first. -/
def blockKey (key : List UInt8) : List UInt8 :=
  let key := if blockSize < key.length then Sha256.hash key else key
  key ++ List.replicate (blockSize - key.length) 0

def sign (key message : List UInt8) : List UInt8 :=
  let key := blockKey key
  let inner := Sha256.hash (key.map (· ^^^ 0x36) ++ message)
  Sha256.hash (key.map (· ^^^ 0x5c) ++ inner)

/-- Two lower-case digits for each byte. -/
def hexText (bytes : List UInt8) : String :=
  String.ofList (bytes.flatMap fun b =>
    [Nat.digitChar (b.toNat / 16), Nat.digitChar (b.toNat % 16)])

/-- The signature of a text by a secret, both in UTF-8. -/
def signText (secret text : String) : String :=
  hexText (sign secret.toUTF8.data.toList text.toUTF8.data.toList)

end FuturesDesk.Hmac
