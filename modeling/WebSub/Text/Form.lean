import WebSub.Text.Percent
import WebSub.Text.Utf8

/-!
# Form data

Pairs of names and values as `application/x-www-form-urlencoded` text. Writing escapes every byte
outside a small ASCII set, so a written value holds neither `&` nor `=`.
-/

namespace WebSub.Form

/-! ## Writing -/

/-- The bytes that stand for themselves: ASCII letters, digits and `*-._`. -/
def plain (b : UInt8) : Bool :=
  let c := Char.ofNat b.toNat
  c.isAlphanum || c == '*' || c == '-' || c == '.' || c == '_'

def escapeByte (b : UInt8) : List Char :=
  if plain b then [Char.ofNat b.toNat]
  else if b = 0x20 then ['+']
  else Percent.escape b

def escape (text : List Char) : List Char := (Utf8.encode text).flatMap escapeByte

/-- One pair as `name=value`. -/
def writePair (pair : String × String) : List Char :=
  escape pair.1.toList ++ '=' :: escape pair.2.toList

/-- The pairs in order, joined by `&`. -/
def write (pairs : List (String × String)) : String :=
  String.ofList ((pairs.map writePair).intersperse ['&']).flatten

/-! ## Reading -/

/-- A plus sign is a space and a valid escape its byte; any other percent sign stays. -/
def unescape (bytes : List UInt8) : List UInt8 :=
  Percent.decode (bytes.map fun b => if b = 0x2B then 0x20 else b)

def readText (bytes : List UInt8) : String := String.ofList (Utf8.decodeLossy (unescape bytes))

/-- A pair is split at its first `=`; without one the value is empty. -/
def readPair (bytes : List UInt8) : String × String :=
  let (name, rest) := bytes.span (· != 0x3D)
  (readText name, readText (rest.drop 1))

/-- The pairs of a form in order; empty pieces between `&` are skipped. -/
def read (bytes : List UInt8) : List (String × String) :=
  ((bytes.splitOn 0x26).filter (!·.isEmpty)).map readPair

end WebSub.Form
