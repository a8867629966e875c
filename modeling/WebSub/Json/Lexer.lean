import WebSub.Json.Basic
import WebSub.Text.Decimal
import WebSub.Text.Utf8

/-!
# JSON tokens

Words, strings and numbers off the front of a text. The text is given byte by byte, each byte as
the character of its number, because strings are checked for UTF-8 only where they are wanted.
-/

namespace WebSub.Json

/-- The bytes of a text as characters below 256. -/
def octets (bytes : List UInt8) : List Char := bytes.map fun b => Char.ofNat b.toNat

def isBlank (c : Char) : Bool := c == ' ' || c == '\t' || c == '\n' || c == '\r'

def skipBlanks (text : List Char) : List Char := text.dropWhile isBlank

abbrev Token (α : Type) := Except Fault (α × List Char)

/-- The rest of a word whose first character has been taken. -/
def word (rest text : List Char) : Except Fault (List Char) :=
  match rest.isPrefixOf? text with
  | some after => .ok after
  | none => .error .malformed

/-! ## Strings -/

def escape? (c : Char) : Option Char :=
  if c = '"' ∨ c = '\\' ∨ c = '/' then some c
  else if c = 'b' then some '\x08'
  else if c = 'f' then some '\x0c'
  else if c = 'n' then some '\n'
  else if c = 'r' then some '\r'
  else if c = 't' then some '\t'
  else none

def hex4? (text : List Char) : Option (Nat × List Char) :=
  let row := text.take 4
  if row.length = 4 then
    (row.mapM Hex.value?).map fun ds => (ds.foldl (fun n d => 16 * n + d) 0, text.drop 4)
  else none

/-- A numbered character; two halves of a pair make one, and a half alone is refused. -/
def numbered (text : List Char) : Token (List Char) :=
  match hex4? text with
  | none => .error .malformed
  | some (n, after) =>
    let encoded (n : Nat) := octets (Utf8.encodeChar (Char.ofNat n))
    if 0xDC00 ≤ n ∧ n < 0xE000 then .error .malformed
    else if 0xD800 ≤ n ∧ n < 0xDC00 then
      match after with
      | '\\' :: 'u' :: more =>
        match hex4? more with
        | some (m, after) =>
          if 0xDC00 ≤ m ∧ m < 0xE000 then
            .ok (encoded (0x10000 + (n - 0xD800) * 0x400 + (m - 0xDC00)), after)
          else .error .malformed
        | none => .error .malformed
      | _ => .error .malformed
    else .ok (encoded n, after)

/-- The bytes of a string up to its closing quote. Where the string is not wanted (`strict` is
false), a numbered character only has to have its four digits. -/
def stringFrom (strict : Bool) : Nat → List Char → List Char → Token (List Char)
  | 0, _, _ => .error .malformed
  | fuel + 1, read, text =>
    match text with
    | [] => .error .malformed
    | '"' :: after => .ok (read.reverse, after)
    | '\\' :: 'u' :: more =>
      if strict then
        match numbered more with
        | .ok (cs, after) => stringFrom strict fuel (cs.reverse ++ read) after
        | .error e => .error e
      else
        match hex4? more with
        | some (_, after) => stringFrom strict fuel read after
        | none => .error .malformed
    | '\\' :: c :: after =>
      match escape? c with
      | some d => stringFrom strict fuel (d :: read) after
      | none => .error .malformed
    | c :: after =>
      if c = '\\' ∨ c.toNat < 0x20 then .error .malformed
      else stringFrom strict fuel (c :: read) after

def stringToken (text : List Char) : Token String :=
  match stringFrom true (text.length + 1) [] text with
  | .error e => .error e
  | .ok (read, after) =>
    match Utf8.decode? (read.map fun c => UInt8.ofNat c.toNat) with
    | some s => .ok (String.ofList s, after)
    | none => .error .malformed

/-- Passes over a string after its opening quote. -/
def skipString (text : List Char) : Except Fault (List Char) :=
  (stringFrom false (text.length + 1) [] text).map (·.2)

/-! ## Numbers -/

/-- A numeral as it is written. -/
structure Numeral where
  negative : Bool
  whole : List Char
  /-- The digits after the point, if there is one. -/
  fraction : Option (List Char)
  exponent : Option Int

def digitsOf (text : List Char) : List Char × List Char :=
  (text.takeWhile Char.isDigit, text.dropWhile Char.isDigit)

def fractionPart (text : List Char) : Token (Option (List Char)) :=
  match text with
  | '.' :: more =>
    match digitsOf more with
    | ([], _) => .error .malformed
    | (ds, after) => .ok (some ds, after)
  | _ => .ok (none, text)

/-- An exponent with an optional sign and at least one digit. -/
def exponentPart (text : List Char) : Token (Option Int) :=
  match text with
  | c :: more =>
    if c = 'e' ∨ c = 'E' then
      let (sign, more) : Int × List Char := match more with
        | '+' :: r => (1, r)
        | '-' :: r => (-1, r)
        | r => (1, r)
      let (ds, after) := digitsOf more
      match Decimal.natural? ds with
      | some n => .ok (some (sign * n), after)
      | none => .error .malformed
    else .ok (none, text)
  | [] => .ok (none, text)

/-- A numeral: no digit may follow a leading zero. -/
def numeral (text : List Char) : Except Fault (Numeral × List Char) :=
  let (negative, body) := match text with
    | '-' :: r => (true, r)
    | r => (false, r)
  let (whole, after) := digitsOf body
  if whole = [] ∨ (whole.head? = some '0' ∧ whole.length > 1) then .error .malformed
  else do
    let (fraction, after) ← fractionPart after
    let (exponent, after) ← exponentPart after
    return (⟨negative, whole, fraction, exponent⟩, after)

/-- The longest start of a row of digits that fits in 64 bits, as a number, and how many digits
it has. -/
def leading (n count : Nat) : List Char → Nat × Nat
  | [] => (n, count)
  | c :: rest =>
    let m := 10 * n + (c.toNat - 48)
    if m ≤ Decimal.word64Max then leading m (count + 1) rest else (n, count)

def powerOfTen (n : Nat) : Float := Float.ofScientific 1 false n

/-- A whole number times a power of ten; nothing if that is too large. -/
def scale? (significand : Nat) (exponent : Int) : Option Float :=
  let f := (UInt64.ofNat significand).toFloat
  if 0 ≤ exponent then
    if significand = 0 then some f
    else if 308 < exponent then none
    else
      let x := f * powerOfTen exponent.toNat
      if x.isInf then none else some x
  else if -308 ≤ exponent then some (f / powerOfTen (-exponent).toNat)
  else if -616 ≤ exponent then some (f / powerOfTen 308 / powerOfTen (-exponent - 308).toNat)
  else some 0

namespace Numeral

/-- The floating point value, from the digits that fit in 64 bits. -/
def real? (x : Numeral) : Option Float :=
  let fraction := x.fraction.getD []
  let (significand, kept) := leading 0 0 (x.whole ++ fraction)
  let shift : Int := (x.whole.length : Int) - kept
  (scale? significand (shift + x.exponent.getD 0)).map fun f => if x.negative then -f else f

/-- The value: an integer if it is written as one and has 64 bits; minus zero is not one. -/
def value? (x : Numeral) : Option JsonNumber :=
  match x.fraction, x.exponent, Decimal.natural? x.whole with
  | none, none, some n =>
    if x.negative then
      if 0 < n ∧ Decimal.int64Min ≤ -(n : Int) then some (.integer (-(n : Int)))
      else x.real?.map .real
    else if n ≤ Decimal.word64Max then some (.integer n)
    else x.real?.map .real
  | _, _, _ => x.real?.map .real

end Numeral

/-- A number; one too large for a floating point value is malformed. -/
def numberToken (text : List Char) : Token JsonNumber :=
  match numeral text with
  | .error e => .error e
  | .ok (x, after) =>
    match x.value? with
    | some n => .ok (n, after)
    | none => .error .malformed

/-- Whether a number may start with this character. -/
def startsNumber (c : Char) : Bool := c == '-' || c.isDigit

end WebSub.Json
