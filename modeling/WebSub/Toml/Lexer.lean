import WebSub.Text.Decimal
import WebSub.Text.Hex
import WebSub.Toml.Moment
import WebSub.Toml.Value

/-!
# TOML tokens

Blanks and comments, strings, keys, and the words that spell numbers, truth values and times. What
is read comes with the text after it.
-/

namespace WebSub.Toml

/-- Something read off the front of a text, and the rest; nothing if the text is wrong. -/
abbrev Token (α : Type) := Option (α × List Char)

/-! ## Blanks and comments -/

def isBlank (c : Char) : Bool := c == ' ' || c == '\t'

def skipBlanks (text : List Char) : List Char := text.dropWhile isBlank

/-- Control characters other than the tab do not stand for themselves anywhere. -/
def isPlain (c : Char) : Bool := c == '\t' || (0x20 ≤ c.toNat && c.toNat != 0x7F)

/-- Passes over blanks, line breaks and comments. -/
def skipGap (inComment : Bool) : List Char → Option (List Char)
  | [] => some []
  | '\n' :: rest => skipGap false rest
  | '\r' :: '\n' :: rest => skipGap false rest
  | c :: rest =>
    if inComment then if isPlain c then skipGap true rest else none
    else if isBlank c then skipGap false rest
    else if c = '#' then skipGap true rest
    else some (c :: rest)

/-- Passes over the rest of a line, which may hold a comment and nothing else. -/
def endLine (text : List Char) : Option (List Char) :=
  let rest := skipBlanks text
  let rest := if rest.head? = some '#' then rest.dropWhile isPlain else rest
  match rest with
  | [] => some []
  | '\n' :: after => some after
  | '\r' :: '\n' :: after => some after
  | _ => none

/-! ## Strings -/

/-- The character with a number that is written in `count` digits. -/
def numbered? (count : Nat) (text : List Char) : Token Char :=
  let row := text.take count
  match row.mapM Hex.value? with
  | none => none
  | some ds =>
    let n := ds.foldl (fun n d => 16 * n + d) 0
    if row.length = count ∧ n.isValidChar then some (Char.ofNat n, text.drop count) else none

/-- The character of an escape, after its backslash. -/
def escape? : List Char → Token Char
  | [] => none
  | c :: rest =>
    if c = '"' ∨ c = '\\' then some (c, rest)
    else if c = 'b' then some ('\x08', rest)
    else if c = 't' then some ('\t', rest)
    else if c = 'n' then some ('\n', rest)
    else if c = 'f' then some ('\x0c', rest)
    else if c = 'r' then some ('\r', rest)
    else if c = 'e' then some ('\x1b', rest)
    else if c = 'x' then numbered? 2 rest
    else if c = 'u' then numbered? 4 rest
    else if c = 'U' then numbered? 8 rest
    else none

/-- How a string is written. -/
structure StringStyle where
  quote : Char
  /-- Backslashes start escapes. -/
  escapes : Bool
  /-- Line breaks may stand inside, and three quotes end it. -/
  multiline : Bool

/-- After a backslash at the end of a line, blanks and line breaks do not count. -/
def lineEnding? (text : List Char) : Option (List Char) :=
  let blank (c : Char) : Bool := isBlank c || c == '\n' || c == '\r'
  match skipBlanks text with
  | '\n' :: rest => some (rest.dropWhile blank)
  | '\r' :: '\n' :: rest => some (rest.dropWhile blank)
  | _ => none

def quoteRun (quote : Char) (text : List Char) : Nat :=
  ((text.take 5).takeWhile (· == quote)).length

/-- Reads on to the end of a string; `read` holds what came so far, newest first. Up to two quotes
may stand right before the three that end it. -/
def stringFrom (style : StringStyle) : Nat → List Char → List Char → Token String
  | 0, _, _ => none
  | fuel + 1, read, text =>
    match text with
    | [] => none
    | c :: rest =>
      if c = style.quote then
        if style.multiline = false then some (String.ofList read.reverse, rest)
        else
          let run := quoteRun style.quote text
          if run < 3 then stringFrom style fuel (List.replicate run c ++ read) (text.drop run)
          else
            some (String.ofList (List.replicate (run - 3) c ++ read).reverse, text.drop run)
      else if c = '\\' ∧ style.escapes then
        match (if style.multiline then lineEnding? rest else none) with
        | some after => stringFrom style fuel read after
        | none =>
          match escape? rest with
          | some (d, after) => stringFrom style fuel (d :: read) after
          | none => none
      else if isPlain c then stringFrom style fuel (c :: read) rest
      else if style.multiline ∧ c = '\n' then stringFrom style fuel ('\n' :: read) rest
      else if style.multiline ∧ c = '\r' ∧ rest.head? = some '\n' then
        stringFrom style fuel ('\n' :: '\r' :: read) (rest.drop 1)
      else none

/-- A line break right after the three opening quotes does not count. -/
def dropFirstBreak : List Char → List Char
  | '\n' :: rest => rest
  | '\r' :: '\n' :: rest => rest
  | text => text

def stringToken (multilineAllowed : Bool) (text : List Char) : Token String :=
  match text with
  | quote :: rest =>
    if quote = '"' ∨ quote = '\'' then
      let multiline := multilineAllowed ∧ rest.take 2 = [quote, quote]
      let style : StringStyle := ⟨quote, quote = '"', multiline⟩
      let body := if multiline then dropFirstBreak (rest.drop 2) else rest
      stringFrom style (body.length + 1) [] body
    else none
  | [] => none

/-! ## Keys -/

def isBare (c : Char) : Bool := c.isAlphanum || c == '_' || c == '-'

def nameToken (text : List Char) : Token String :=
  match text with
  | [] => none
  | c :: _ =>
    if c = '"' ∨ c = '\'' then stringToken false text
    else if isBare c then
      some (String.ofList (text.takeWhile isBare), text.dropWhile isBare)
    else none

/-- The names of a key, separated by dots, with blanks around each; at most `fuel` of them. -/
def keyFrom : Nat → List Char → Token (List String)
  | 0, _ => none
  | fuel + 1, text =>
    match nameToken (skipBlanks text) with
    | none => none
    | some (name, rest) =>
      match skipBlanks rest with
      | '.' :: more => (keyFrom fuel more).map fun (names, after) => (name :: names, after)
      | after => some ([name], after)

def keyToken (text : List Char) : Token (List String) := keyFrom (text.length + 1) text

/-! ## Numbers -/

/-- Digits that may have single underscores between them, without the underscores. -/
def digitRow? (isDigit : Char → Bool) (text : List Char) : Option (List Char) :=
  let pieces := text.splitOn '_'
  if pieces.all fun p => p ≠ [] ∧ p.all isDigit then some pieces.flatten else none

/-- A sign, if there is one, and the text after it. -/
def signed (text : List Char) : Bool × List Char :=
  match text with
  | '-' :: rest => (true, rest)
  | '+' :: rest => (false, rest)
  | rest => (false, rest)

/-- Decimal digits that do not start with a needless zero. -/
def wholeRow? (text : List Char) : Option (List Char) :=
  (digitRow? Char.isDigit text).filter fun ds => ¬ (ds.head? = some '0' ∧ ds.length > 1)

/-- The number of a row of digits in some radix. -/
def number? (radix : Nat) (row : List Char) : Option Nat :=
  let value? (c : Char) : Option Nat := (Hex.value? c).filter (· < radix)
  match digitRow? (fun c => (value? c).isSome) row with
  | some ds => (ds.mapM value?).map fun vs => vs.foldl (fun n v => radix * n + v) 0
  | none => none

/-- An integer of 64 bits: decimal with an optional sign, or with a radix in front. -/
def integer? (text : List Char) : Option Int :=
  let n? : Option Int := match text with
    | '0' :: 'x' :: row => (number? 16 row).map Int.ofNat
    | '0' :: 'o' :: row => (number? 8 row).map Int.ofNat
    | '0' :: 'b' :: row => (number? 2 row).map Int.ofNat
    | _ =>
      let (negative, body) := signed text
      match (wholeRow? body).bind Decimal.natural? with
      | some n => some (if negative then -(n : Int) else n)
      | none => none
  n?.filter fun n => Decimal.int64Min ≤ n ∧ n ≤ Decimal.int64Max

/-- The number that digits and a power of ten spell, if it is not too large. -/
def scaled? (digits : Nat) (power : Int) : Option Float :=
  let x :=
    if digits = 0 ∨ power < -2000 then 0
    else if 400 < power then Float.ofScientific 1 false 400
    else Float.ofScientific digits (power < 0) power.natAbs
  if x.isInf then none else some x

def isExponent (c : Char) : Bool := c == 'e' || c == 'E'

/-- A decimal number with a fraction, an exponent, or both; or one of the words. -/
def real? (text : List Char) : Option Float :=
  let (negative, body) := signed text
  let size? : Option Float :=
    if body = "inf".toList then some (1.0 / 0.0)
    else if body = "nan".toList then some (0.0 / 0.0)
    else if ¬ body.any fun c => c == '.' || isExponent c then none
    else
      let mantissa := body.takeWhile (!isExponent ·)
      let whole := mantissa.takeWhile (· != '.')
      let fraction? : Option (List Char) := match mantissa.dropWhile (· != '.') with
        | [] => some []
        | _ :: row => digitRow? Char.isDigit row
      let exponent? : Option Int := match body.dropWhile (!isExponent ·) with
        | [] => some 0
        | _ :: row =>
          let (negative, row) := signed row
          match (digitRow? Char.isDigit row).bind Decimal.natural? with
          | some n => some (if negative then -(n : Int) else n)
          | none => none
      match wholeRow? whole, fraction?, exponent? with
      | some whole, some fraction, some exponent =>
        (Decimal.natural? (whole ++ fraction)).bind fun n => scaled? n (exponent - fraction.length)
      | _, _, _ => none
  size?.map fun x => if negative then -x else x

/-! ## Words -/

def inWord (c : Char) : Bool := isBare c || c == '+' || c == '.' || c == ':'

/-- A word up to the next character that no word has. A date and a time with a space between them
are one word. -/
def wordToken (text : List Char) : List Char × List Char :=
  let word := text.takeWhile inWord
  match text.dropWhile inWord with
  | ' ' :: rest =>
    if (Moment.date? word).any (·.2 = []) ∧ rest.head?.any Char.isDigit then
      (word ++ ' ' :: rest.takeWhile inWord, rest.dropWhile inWord)
    else (word, ' ' :: rest)
  | rest => (word, rest)

def wordValue? (word : List Char) : Option Value :=
  if word = "true".toList then some (.flag true)
  else if word = "false".toList then some (.flag false)
  else
    match integer? word with
    | some n => some (.integer n)
    | none =>
      match real? word with
      | some x => some (.real x)
      | none => (Moment.ofText? word).map .text

end WebSub.Toml
