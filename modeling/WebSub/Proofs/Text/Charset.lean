import WebSub.Proofs.Text.Utf8
import WebSub.Text.Charset

/-!
# Reading in a character set

A text in UTF-8 that begins with no byte order mark is read as it was written.
-/

namespace WebSub

variable {c : Char} {text : List Char} {more rest : List UInt8} {b : UInt8}

namespace Utf8

theorem encodeChar_first (h : encodeChar c ++ more = b :: rest) : b.toNat < 0xF5 := by
  have valid : c.toNat < 0xD800 ∨ 0xDFFF < c.toNat ∧ c.toNat < 0x110000 := c.valid
  unfold encodeChar at h
  generalize c.toNat = n at *
  simp only at h
  split_ifs at h
  all_goals
    rw [← (List.cons.inj h).1, toNat_ofNat (by omega)]
    omega

theorem toNat_of_cons_eq {n : Nat} {m : List UInt8} (h : UInt8.ofNat n :: m = b :: rest)
    (small : n < 256) : n = b.toNat ∧ m = rest := by
  obtain ⟨first, others⟩ := List.cons.inj h
  rw [← first, toNat_ofNat small]
  exact ⟨rfl, others⟩

theorem eq_of_mark (h : encodeChar c ++ more = 0xEF :: 0xBB :: 0xBF :: rest) : c = '\uFEFF' := by
  have valid : c.toNat < 0xD800 ∨ 0xDFFF < c.toNat ∧ c.toNat < 0x110000 := c.valid
  have values : (0xEF : UInt8).toNat = 239 ∧ (0xBB : UInt8).toNat = 187 ∧
      (0xBF : UInt8).toNat = 191 := by decide
  have code : c.toNat = 0xFEFF := by
    unfold encodeChar at h
    generalize c.toNat = n at *
    simp only at h
    split_ifs at h
    all_goals obtain ⟨first, others⟩ := toNat_of_cons_eq h (by omega)
    any_goals omega
    obtain ⟨second, others⟩ := toNat_of_cons_eq others (by omega)
    obtain ⟨third, -⟩ := toNat_of_cons_eq others (by omega)
    omega
  rw [← Char.ofNat_toNat c, code]

end Utf8

namespace Charset

theorem utf8_decode_encode (unmarked : text.head? ≠ some '\uFEFF') :
    utf8.decode (Utf8.encode text) = text := by
  unfold decode
  split
  case h_1 rest h =>
    cases text with
    | nil => cases h
    | cons c text => exact absurd (congrArg some (Utf8.eq_of_mark h)) unmarked
  case h_2 rest h =>
    cases text with
    | nil => cases h
    | cons c text => exact absurd (Utf8.encodeChar_first h) (by decide)
  case h_3 rest h =>
    cases text with
    | nil => cases h
    | cons c text => exact absurd (Utf8.encodeChar_first h) (by decide)
  case h_4 => exact Utf8.decodeLossy_encode text

end Charset

end WebSub
