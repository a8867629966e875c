import WebSub.Digest.Hmac
import WebSub.Text.Hex
import WebSub.Text.Utf8

/-!
# Signatures of notifications

A hub that was given a secret signs each body: the header is `sha1=` or `sha256=` and the
hexadecimal keyed digest of the raw bytes. An empty secret switches the check off.
-/

namespace WebSub

/-- Why a delivery's signature was refused. -/
inductive SignatureError where
  | missing
  | malformed
  | mismatch
deriving DecidableEq, Repr

def SignatureError.message : SignatureError → String
  | .missing => "signature header missing"
  | .malformed => "signature header malformed"
  | .mismatch => "signature mismatch"

/-- Checks deliveries against a shared secret; without one it accepts everything. -/
structure Verifier where
  secret : Option (List UInt8)
deriving DecidableEq, Repr

namespace Verifier

/-- The empty secret means that no check is wanted. -/
def ofSecret (secret : String) : Verifier :=
  ⟨if secret.toList = [] then none else some (Utf8.encode secret.toList)⟩

def isDisabled (v : Verifier) : Bool := v.secret.isNone

def describe (v : Verifier) : String :=
  "SignatureVerifier \x7b enabled: " ++ (if v.isDisabled then "false" else "true") ++ " \x7d"

def algorithm? (name : List Char) : Option Hmac.Algorithm :=
  if name = "sha1".toList then some .sha1
  else if name = "sha256".toList then some .sha256
  else none

/-- Checks a header given as text: present, split at its first `=`, hexadecimal, of a known
algorithm, and equal in full to the keyed digest. -/
def verify (v : Verifier) (body : List UInt8) (header : Option (List Char)) :
    Except SignatureError Unit :=
  match v.secret with
  | none => .ok ()
  | some secret =>
    match header with
    | none | some [] => .error .missing
    | some text =>
      let (name, rest) := text.span (· != '=')
      match rest with
      | [] => .error .malformed
      | _ :: digits =>
        match Hex.decode? digits, algorithm? name with
        | some expected, some a =>
          if expected = Hmac.code a secret body then .ok () else .error .mismatch
        | _, _ => .error .malformed

/-- Checks a header given as bytes; bytes that are not UTF-8 are a malformed header. -/
def verifyHeader (v : Verifier) (body : List UInt8) (header : Option (List UInt8)) :
    Except SignatureError Unit :=
  if v.isDisabled then .ok ()
  else match header with
    | none => v.verify body none
    | some bytes =>
      match Utf8.decode? bytes with
      | none => .error .malformed
      | some text => v.verify body (some text)

end Verifier

/-- The header that a hub sends for a body: `sha1=` and the keyed digest. -/
def signSha1 (secret body : List UInt8) : String :=
  "sha1=" ++ String.ofList (Hex.encode (Hmac.code .sha1 secret body))

/-- The identity of a body's content: its SHA-256 in hexadecimal. -/
def fingerprint (body : List UInt8) : String :=
  String.ofList (Hex.encode (Sha256.digest body))

end WebSub
