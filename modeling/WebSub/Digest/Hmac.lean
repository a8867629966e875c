import WebSub.Digest.Sha1
import WebSub.Digest.Sha256

/-!
# Keyed digests

HMAC over a digest with 64-byte blocks.
-/

namespace WebSub.Hmac

/-- The digests that a key can be combined with. -/
inductive Algorithm where
  | sha1
  | sha256
deriving DecidableEq, Repr

def Algorithm.digest : Algorithm → List UInt8 → List UInt8
  | .sha1 => Sha1.digest
  | .sha256 => Sha256.digest

/-- A key longer than a block is digested first; a shorter one is filled up with zeros. -/
def blockKey (a : Algorithm) (key : List UInt8) : List UInt8 :=
  let key := if key.length > 64 then a.digest key else key
  key ++ List.replicate (64 - key.length) 0

def code (a : Algorithm) (key message : List UInt8) : List UInt8 :=
  let key := blockKey a key
  a.digest (key.map (· ^^^ 0x5c) ++ a.digest (key.map (· ^^^ 0x36) ++ message))

end WebSub.Hmac
