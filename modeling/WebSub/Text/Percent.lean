import WebSub.Text.Hex

/-!
# Percent escapes

A percent sign and two hexadecimal digits stand for a byte.
-/

namespace WebSub.Percent

/-- The upper-case digit of a number below sixteen. -/
def digit (n : Nat) : Char := Char.ofNat (if n < 10 then 48 + n else 55 + n)

def escape (b : UInt8) : List Char := ['%', digit (b.toNat / 16), digit (b.toNat % 16)]

/-- Every valid escape becomes its byte; a percent sign before anything else stays. -/
def decode : List UInt8 → List UInt8
  | b :: h :: l :: rest =>
    if b = 0x25 then
      match Hex.value? (Char.ofNat h.toNat), Hex.value? (Char.ofNat l.toNat) with
      | some high, some low => UInt8.ofNat (16 * high + low) :: decode rest
      | _, _ => b :: decode (h :: l :: rest)
    else b :: decode (h :: l :: rest)
  | short => short

end WebSub.Percent
