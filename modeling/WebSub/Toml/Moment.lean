import WebSub.Text.Decimal
import WebSub.Time.Calendar

/-!
# TOML dates and times

A date, a time of day, or both with or without an offset. They are kept as text in one form.
-/

namespace WebSub.Toml.Moment

/-- A number of exactly `count` digits, within bounds. -/
def digits? (count low high : Nat) (text : List Char) : Option (Nat × List Char) :=
  match Decimal.natural? (text.take count) with
  | some n =>
    if (text.take count).length = count ∧ low ≤ n ∧ n ≤ high then some (n, text.drop count)
    else none
  | none => none

def mark? (c : Char) : List Char → Option (List Char)
  | d :: rest => if c = d then some rest else none
  | [] => none

def date? (text : List Char) : Option (List Char × List Char) := do
  let (year, rest) ← digits? 4 0 9999 text
  let rest ← mark? '-' rest
  let (month, rest) ← digits? 2 1 12 rest
  let rest ← mark? '-' rest
  let (_, rest) ← digits? 2 1 (Date.daysInMonth year month) rest
  return (text.take 10, rest)

/-- A fraction of a second, to nine digits, with no zeros at its end beyond the first digit. -/
def fraction? (text : List Char) : Option (List Char × List Char) :=
  match text with
  | '.' :: rest =>
    let kept := ((rest.takeWhile Char.isDigit).take 9).reverse.dropWhile (· == '0')
    if rest.head?.any Char.isDigit then
      some ('.' :: (if kept = [] then ['0'] else kept.reverse), rest.dropWhile Char.isDigit)
    else none
  | _ => some ([], text)

/-- A time of day; the seconds may be left out. -/
def time? (text : List Char) : Option (List Char × List Char) := do
  let (_, rest) ← digits? 2 0 23 text
  let rest ← mark? ':' rest
  let (_, rest) ← digits? 2 0 59 rest
  match rest with
  | ':' :: rest =>
    let (_, rest) ← digits? 2 0 60 rest
    let (fraction, rest) ← fraction? rest
    return (text.take 8 ++ fraction, rest)
  | rest => return (text.take 5, rest)

def offset? (text : List Char) : Option (List Char × List Char) :=
  match text with
  | [] => some ([], [])
  | sign :: rest =>
    if sign = 'Z' ∨ sign = 'z' then some (['Z'], rest)
    else if sign = '+' ∨ sign = '-' then do
      let (hours, after) ← digits? 2 0 23 rest
      let after ← mark? ':' after
      let (minutes, after) ← digits? 2 0 59 after
      return ((if hours + minutes = 0 then '+' else sign) :: rest.take 5, after)
    else none

/-- Whether a character may stand between a date and a time. -/
def joins (c : Char) : Bool := c == 'T' || c == 't' || c == ' '

def ofText? (text : List Char) : Option String :=
  match date? text with
  | some (date, []) => some (String.ofList date)
  | some (date, sep :: rest) => do
    if joins sep = false then none
    else
      let (time, rest) ← time? rest
      let (offset, rest) ← offset? rest
      if rest = [] then some (String.ofList (date ++ 'T' :: time ++ offset)) else none
  | none =>
    match time? text with
    | some (time, []) => some (String.ofList time)
    | _ => none

end WebSub.Toml.Moment
