import Decommission.Digest.Sha256

/-! The keyed digest HMAC of RFC 2104 over SHA-256. -/
namespace Decommission.Hmac

/-- The key in one block of 64 bytes: its digest if it is longer, then zeros. -/
def blockKey (key : List UInt8) : List UInt8 :=
  let short := if 64 < key.length then Sha256.digest key else key
  short ++ List.replicate (64 - short.length) 0

def sha256 (key message : List UInt8) : List UInt8 :=
  let k := blockKey key
  Sha256.digest ((k.map fun b => b ^^^ 0x5c) ++ Sha256.digest ((k.map fun b => b ^^^ 0x36) ++ message))

end Decommission.Hmac
