/-!
# Floating point numbers as integers

A finite number is a whole number times a power of two. That makes rounding, and the search for a
shortest decimal, a matter of whole numbers.
-/

namespace WebSub

/-- The finite number `significand · 2 ^ exponent`, or its negative. -/
structure Binary64 where
  negative : Bool
  significand : Nat
  exponent : Int
deriving DecidableEq, Repr

namespace Binary64

/-- The significands from here to twice as much are those of normal numbers. -/
def leastNormal : Nat := 0x10000000000000

def leastExponent : Int := -1074

/-- The number that 64 bits stand for, if it is finite. -/
def ofBits? (bits : UInt64) : Option Binary64 :=
  let n := bits.toNat
  let biased := n / leastNormal % 2048
  let fraction := n % leastNormal
  let negative := decide (0x8000000000000000 ≤ n)
  if biased = 2047 then none
  else if biased = 0 then some ⟨negative, fraction, leastExponent⟩
  else some ⟨negative, leastNormal + fraction, leastExponent + (biased - 1)⟩

def ofFloat? (x : Float) : Option Binary64 := ofBits? x.toBits

/-- The nearest integer; a half goes away from zero. -/
def round (x : Binary64) : Int :=
  let size : Nat :=
    if 0 ≤ x.exponent then x.significand * Nat.pow 2 x.exponent.toNat
    else
      let unit := Nat.pow 2 (-x.exponent).toNat
      (2 * x.significand + unit) / (2 * unit)
  if x.negative then -(size : Int) else size

end Binary64

/-- The integer nearest to a number and at most as far as the bounds; nothing for no number. -/
def roundWithin (low high : Int) (x : Float) : Int :=
  match Binary64.ofFloat? x with
  | some b => max low (min high b.round)
  | none => if x.isNaN then 0 else if x < 0 then low else high

end WebSub
