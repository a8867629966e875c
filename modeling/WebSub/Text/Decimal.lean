/-!
# Decimal numerals

Numerals of machine integers: an optional sign, then ASCII digits and nothing else. A numeral
outside its range is refused like any other wrong text.
-/

namespace WebSub.Decimal

/-- The number that a non-empty row of digits spells. -/
def natural? (text : List Char) : Option Nat :=
  if text ≠ [] ∧ text.all Char.isDigit then
    some (text.foldl (fun n c => 10 * n + (c.toNat - 48)) 0)
  else none

def integer? : List Char → Option Int
  | '-' :: digits => (natural? digits).map fun n => -(n : Int)
  | '+' :: digits => (natural? digits).map Int.ofNat
  | digits => (natural? digits).map Int.ofNat

def unsigned? : List Char → Option Nat
  | '+' :: digits => natural? digits
  | digits => natural? digits

def int64Min : Int := -9223372036854775808
def int64Max : Int := 9223372036854775807
def word64Max : Nat := 18446744073709551615

def int64? (text : List Char) : Option Int :=
  (integer? text).filter fun n => int64Min ≤ n ∧ n ≤ int64Max

/-- A numeral of an unsigned integer of at most `max`. -/
def upTo? (max : Nat) (text : List Char) : Option Nat :=
  (unsigned? text).filter (· ≤ max)

end WebSub.Decimal
