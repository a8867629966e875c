/-!
# Punycode

A label of any characters written with ASCII letters, digits and hyphens: the ASCII ones first,
then the places and numbers of the others as differences, in digits whose weight adapts.
-/

namespace WebSub.Punycode

def digit (n : Nat) : Char := Char.ofNat (if n < 26 then 97 + n else 22 + n)

def threshold (place bias : Nat) : Nat :=
  if place ≤ bias then 1 else if bias + 26 ≤ place then 26 else place - bias

/-- Divides until the value is small, and counts the places. -/
def settle (delta place : Nat) : Nat × Nat :=
  if _h : 455 < delta then settle (delta / 35) (place + 36) else (delta, place)

/-- The bias after a difference has been written. -/
def adapt (delta count : Nat) (isFirst : Bool) : Nat :=
  let delta := if isFirst then delta / 700 else delta / 2
  let (delta, place) := settle (delta + delta / count) 0
  place + 36 * delta / (delta + 38)

/-- The digits of a difference; each place takes at least one off it. -/
def digits (fuel bias place n : Nat) : List Char :=
  match fuel with
  | 0 => []
  | fuel + 1 =>
    let t := threshold place bias
    if n < t then [digit n]
    else digit (t + (n - t) % (36 - t)) :: digits fuel bias (place + 36) ((n - t) / (36 - t))

/-- What has been written so far, and where the writer stands. -/
structure Writer where
  written : List Char
  /-- The number of the character that comes next. -/
  code : Nat
  delta : Nat
  bias : Nat
  /-- How many characters have been handled. -/
  handled : Nat
  isFirst : Bool

/-- Goes through the label for the characters with the current number. -/
def Writer.pass (w : Writer) (label : List Char) : Writer :=
  label.foldl (fun w c =>
    if c.toNat < w.code then { w with delta := w.delta + 1 }
    else if c.toNat = w.code then
      { w with
        written := w.written ++ digits (w.delta + 1) w.bias 36 w.delta
        bias := adapt w.delta (w.handled + 1) w.isFirst
        delta := 0
        handled := w.handled + 1
        isFirst := false }
    else w) w

/-- Writes all characters from a number on, in at most `fuel` passes. -/
def Writer.run (label : List Char) : Nat → Writer → Writer
  | 0, w => w
  | fuel + 1, w =>
    match ((label.map Char.toNat).filter (w.code ≤ ·)).min? with
    | none => w
    | some code =>
      let w := { w with code := code, delta := w.delta + (code - w.code) * (w.handled + 1) }
      let w := w.pass label
      Writer.run label fuel { w with code := code + 1, delta := w.delta + 1 }

def encode (label : List Char) : List Char :=
  let plain := label.filter (·.toNat < 128)
  let start : Writer :=
    ⟨if plain = [] then [] else plain ++ ['-'], 128, 0, 72, plain.length, true⟩
  (start.run label label.length).written

end WebSub.Punycode
