import WebSub.Text.Decimal
import WebSub.Time.Instant

/-!
# Timestamps

Times of day on a date with an offset from universal time, read and written as RFC 3339 text. The
reader is the strict one: four year digits, real dates, and second 60 for a leap second.
-/

namespace WebSub

/-- A local date and time with its offset; second 60 is a leap second. -/
structure Stamp where
  date : Date
  hour : Nat
  minute : Nat
  second : Nat
  nanos : Nat
  /-- Minutes east of universal time. -/
  offset : Int
deriving DecidableEq, Repr

namespace Stamp

/-! ## Reading -/

/-- Takes exactly `n` digits off a text. -/
def digits? (n : Nat) (text : List Char) : Option (Nat × List Char) :=
  let row := text.take n
  if row.length = n then (Decimal.natural? row).map (·, text.drop n) else none

def expect? (c : Char) : List Char → Option (List Char)
  | d :: rest => if d = c then some rest else none
  | [] => none

/-- Fraction digits as nanoseconds: the first nine count, the others are dropped. -/
def fraction? : List Char → Option (Nat × List Char)
  | '.' :: rest =>
    let row := rest.takeWhile Char.isDigit
    let kept := row.take 9
    (Decimal.natural? kept).map fun n => (n * Nat.pow 10 (9 - kept.length), rest.drop row.length)
  | text => some (0, text)

/-- The offset at the end: `Z`, or a sign with hours and minutes. -/
def offset? : List Char → Option Int
  | ['Z'] | ['z'] => some 0
  | sign :: rest =>
    if sign = '+' ∨ sign = '-' ∨ sign = '\u2212' then do
      let (h, rest) ← digits? 2 rest
      let rest ← expect? ':' rest
      let (m, rest) ← digits? 2 rest
      if h < 24 ∧ m < 60 ∧ rest = [] then
        let minutes : Int := 60 * h + m
        return if sign = '+' then minutes else -minutes
      else none
    else none
  | [] => none

/-- Reads a whole text as an RFC 3339 timestamp. -/
def ofText? (text : List Char) : Option Stamp := do
  let (year, text) ← digits? 4 text
  let text ← expect? '-' text
  let (month, text) ← digits? 2 text
  let text ← expect? '-' text
  let (day, text) ← digits? 2 text
  let text ← match text with
    | c :: rest => if c = 'T' ∨ c = 't' ∨ c = ' ' then some rest else none
    | [] => none
  let (hour, text) ← digits? 2 text
  let text ← expect? ':' text
  let (minute, text) ← digits? 2 text
  let text ← expect? ':' text
  let (second, text) ← digits? 2 text
  let (nanos, text) ← fraction? text
  let offset ← offset? text
  let date : Date := ⟨year, month, day⟩
  if date.Valid ∧ hour < 24 ∧ minute < 60 ∧ second ≤ 60 then
    return ⟨date, hour, minute, second, nanos, offset⟩
  else none

/-! ## Writing -/

/-- A number with at least `width` digits. -/
def padded (width n : Nat) : List Char :=
  let row := Nat.toDigits 10 n
  List.replicate (width - row.length) '0' ++ row

/-- Four digits from year 0 to 9999, else a sign and at least four. -/
def writeYear (y : Int) : List Char :=
  if 0 ≤ y ∧ y ≤ 9999 then padded 4 y.toNat
  else (if y < 0 then '-' else '+') :: padded 4 y.natAbs

/-- The shortest of none, three, six or nine fraction digits that is exact. -/
def writeFraction (nanos : Nat) : List Char :=
  if nanos = 0 then []
  else if nanos % 1000000 = 0 then '.' :: padded 3 (nanos / 1000000)
  else if nanos % 1000 = 0 then '.' :: padded 6 (nanos / 1000)
  else '.' :: padded 9 nanos

def writeOffset (minutes : Int) : List Char :=
  if minutes = 0 then ['Z']
  else
    (if minutes < 0 then '-' else '+') ::
      (padded 2 (minutes.natAbs / 60) ++ ':' :: padded 2 (minutes.natAbs % 60))

def toText (s : Stamp) : String :=
  String.ofList
    (writeYear s.date.year ++ '-' :: padded 2 s.date.month ++ '-' :: padded 2 s.date.day ++
      'T' :: padded 2 s.hour ++ ':' :: padded 2 s.minute ++ ':' :: padded 2 s.second ++
      writeFraction s.nanos ++ writeOffset s.offset)

/-! ## Instants -/

/-- The instant of a timestamp; a leap second is the start of the next minute. -/
def toInstant (s : Stamp) : Instant :=
  let seconds : Int :=
    s.date.toDays * 86400 + 3600 * s.hour + 60 * s.minute + s.second - 60 * s.offset
  ⟨seconds * Instant.nanosPerSecond + s.nanos⟩

/-- The timestamp of an instant in universal time. -/
def ofInstant (t : Instant) : Stamp :=
  let seconds := t.nanos / Instant.nanosPerSecond
  let ofDay := (seconds % 86400).toNat
  ⟨Date.ofDays (seconds / 86400), ofDay / 3600, ofDay / 60 % 60, ofDay % 60,
    (t.nanos % Instant.nanosPerSecond).toNat, 0⟩

end Stamp

/-- An instant as RFC 3339 text in universal time. -/
def Instant.toText (t : Instant) : String := (Stamp.ofInstant t).toText

end WebSub
