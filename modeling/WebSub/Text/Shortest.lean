import WebSub.Text.Binary64

/-!
# Shortest decimals

A floating point number is written with the fewest digits that read back as it: the decimals that
read back fill an interval around the number, and the coarsest decimal grid with a point in that
interval gives the digits.
-/

namespace WebSub.Shortest

/-- The whole number `digits` times `10 ^ power`. -/
structure Decimal10 where
  digits : Nat
  power : Int
deriving DecidableEq, Repr

/-! ## The interval -/

/-- A positive number with the ends of its interval, all as multiples of the same unit,
`numerator / denominator`. -/
structure Interval where
  low : Nat
  value : Nat
  high : Nat
  /-- Whether the ends read back as well. -/
  closed : Bool
  numerator : Nat
  denominator : Nat

/-- The interval reaches half way to the neighbours; the one below is nearer where a power of two
is left behind. -/
def Interval.of (significand : Nat) (exponent : Int) : Interval where
  low := 4 * significand -
    (if significand = Binary64.leastNormal ∧ Binary64.leastExponent < exponent then 1 else 2)
  value := 4 * significand
  high := 4 * significand + 2
  closed := significand % 2 = 0
  numerator := Nat.pow 2 (exponent - 2).toNat
  denominator := Nat.pow 2 (2 - exponent).toNat

/-- The size of `10 ^ power` in units, as a fraction. -/
def Interval.grid (i : Interval) (power : Int) : Nat × Nat :=
  (Nat.pow 10 power.toNat * i.denominator, Nat.pow 10 (-power).toNat * i.numerator)

def Interval.holds (i : Interval) (d : Decimal10) : Bool :=
  let (up, down) := i.grid d.power
  let size := d.digits * up
  if i.closed then decide (i.low * down ≤ size ∧ size ≤ i.high * down)
  else decide (i.low * down < size ∧ size < i.high * down)

/-- The point of a grid that reads back, if there is one; of two the nearer, and the upper one of
two as near. -/
def Interval.onGrid? (i : Interval) (power : Int) : Option Decimal10 :=
  let (up, down) := i.grid power
  let below := i.value * down / up
  let lower : Decimal10 := ⟨below, power⟩
  let upper : Decimal10 := ⟨below + 1, power⟩
  match i.holds lower, i.holds upper with
  | true, false => some lower
  | false, true => some upper
  | true, true => if (2 * below + 1) * up ≤ 2 * (i.value * down) then some upper else some lower
  | false, false => none

/-- Tries `count` grids, each ten times as fine as the one before. -/
def search (i : Interval) (power : Int) : Nat → Option Decimal10
  | 0 => none
  | count + 1 => (i.onGrid? power).or (search i (power - 1) count)

def topPower : Int := 309

/-- Enough grids to reach the finest one that is ever needed. -/
def gridCount : Nat := 640

def ofPositive (significand : Nat) (exponent : Int) : Decimal10 :=
  (search (.of significand exponent) topPower gridCount).getD ⟨0, 0⟩

/-! ## The text -/

/-- The decimal written out in full, without an exponent. -/
def Decimal10.toText (d : Decimal10) : String :=
  let row := (toString d.digits).toList
  if 0 ≤ d.power then String.ofList (row ++ List.replicate d.power.toNat '0')
  else
    let places := (-d.power).toNat
    let row := List.replicate (places + 1 - row.length) '0' ++ row
    String.ofList (row.take (row.length - places) ++ '.' :: row.drop (row.length - places))

/-- A number with as many digits as it needs and no more; a whole one has no point. -/
def text (x : Float) : String :=
  match Binary64.ofFloat? x with
  | none => if x.isNaN then "NaN" else if x < 0 then "-inf" else "inf"
  | some b =>
    let size := if b.significand = 0 then "0" else (ofPositive b.significand b.exponent).toText
    if b.negative then "-" ++ size else size

def pointedText (x : Float) : String :=
  let t := text x
  if x.isFinite ∧ ¬ t.toList.contains '.' then t ++ ".0" else t

end WebSub.Shortest
