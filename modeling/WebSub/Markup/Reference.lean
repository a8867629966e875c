import WebSub.Markup.Error
import WebSub.Markup.Event
import WebSub.Text.Hex

/-!
# References

Named and numbered references in text and attribute values, and the characters they stand for.
-/

namespace WebSub.Markup

/-- The five names that every document may use. -/
def entity? (name : List Char) : Option Char :=
  if name = "lt".toList then some '<'
  else if name = "gt".toList then some '>'
  else if name = "amp".toList then some '&'
  else if name = "apos".toList then some '\''
  else if name = "quot".toList then some '"'
  else none

def maxNumber : Nat := 4294967295

def digitBelow? (base : Nat) (c : Char) : Option Nat := (Hex.value? c).filter (· < base)

/-- Digits in a base, left to right: a wrong digit and an overflow count where they stand. -/
def numberFrom (base : Nat) (n : Nat) : List Char → Except Error Nat
  | [] => .ok n
  | c :: rest =>
    match digitBelow? base c with
    | none => .error .invalidDigit
    | some d =>
      if base * n + d ≤ maxNumber then numberFrom base (base * n + d) rest
      else .error .numberTooLarge

def number (base : Nat) (digits : List Char) : Except Error Nat :=
  match digits with
  | [] => .error .emptyNumber
  | c :: _ => if c = '+' ∨ c = '-' then .error .signedNumber else numberFrom base 0 digits

/-- The character of a number, decimal or after an `x` hexadecimal. -/
def numbered (digits : List Char) : Except Error Char :=
  let code := match digits with
    | 'x' :: hex => number 16 hex
    | _ => number 10 digits
  match code with
  | .error e => .error e
  | .ok 0 => .error .nullCharacter
  | .ok n => if n.isValidChar then .ok (Char.ofNat n) else .error (.noCharacter n)

/-- The character that a reference stands for; `start` is where its name begins. -/
def resolve (start : Nat) (name : List Char) : Except Error Char :=
  match name with
  | '#' :: digits => numbered digits
  | _ =>
    match entity? name with
    | some c => .ok c
    | none =>
      .error (.unknownEntity start (start + byteLength name) (String.ofList name))

/-- Whether a character ends the name of a reference. -/
def endsReference (c : Char) : Bool := c == '&' || c == ';'

/-- Resolves the references of a text that starts at byte `position` of `total`. -/
def unescapeFrom (total position : Nat) (text : List Char) : Except Error (List Char) :=
  let plain := text.takeWhile (· != '&')
  match _h : text.dropWhile (· != '&') with
  | [] => .ok plain
  | _ :: after =>
    let start := position + byteLength plain
    let name := after.takeWhile (!endsReference ·)
    match _h' : after.dropWhile (!endsReference ·) with
    | ';' :: rest =>
      match resolve (start + 1) name with
      | .error e => .error e
      | .ok c =>
        match unescapeFrom total (start + byteLength name + 2) rest with
        | .error e => .error e
        | .ok more => .ok (plain ++ c :: more)
    | _ => .error (.unterminatedReference start total)
termination_by text.length
decreasing_by
  have h1 := congrArg List.length _h
  have h2 := congrArg List.length _h'
  have h3 := (List.dropWhile_sublist (fun c => c != '&') (l := text)).length_le
  have h4 := (List.dropWhile_sublist (fun c => !endsReference c) (l := after)).length_le
  simp only [List.length_cons] at h1 h2
  omega

/-- The text that a raw text or attribute value stands for. -/
def unescape (raw : List Char) : Except Error (List Char) := unescapeFrom (byteLength raw) 0 raw

end WebSub.Markup
