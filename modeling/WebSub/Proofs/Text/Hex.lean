import Mathlib.Tactic.SplitIfs
import WebSub.Text.Hex

/-!
# Reading hexadecimal

A text is read exactly if it is what is written for the bytes, up to the case of its letters.
-/

namespace WebSub.Hex

/-! ## Digits -/

def IsDigit (c : Char) : Prop :=
  ('0' ≤ c ∧ c ≤ '9') ∨ ('a' ≤ c ∧ c ≤ 'f') ∨ ('A' ≤ c ∧ c ≤ 'F')

theorem le_iff_toNat {a b : Char} : a ≤ b ↔ a.toNat ≤ b.toNat := Iff.rfl

theorem toNat_char {n : Nat} (valid : n.isValidChar) : (Char.ofNat n).toNat = n := by
  rw [Char.ofNat, dif_pos valid]
  rfl

theorem toNat_toLower (c : Char) :
    c.toLower.toNat = if 65 ≤ c.toNat ∧ c.toNat ≤ 90 then c.toNat + 32 else c.toNat := by
  unfold Char.toLower
  simp only [ge_iff_le, UInt32.le_iff_toNat_le]
  split
  case isTrue upper =>
    have range : 65 ≤ c.toNat ∧ c.toNat ≤ 90 := upper
    have sum : (c.val + ('a'.val - 'A'.val)).toNat = (c.toNat + 32) % 2 ^ 32 :=
      UInt32.toNat_add ..
    rw [if_pos range]
    show (c.val + ('a'.val - 'A'.val)).toNat = _
    omega
  case isFalse upper =>
    have range : ¬ (65 ≤ c.toNat ∧ c.toNat ≤ 90) := upper
    rw [if_neg range]

theorem toNat_digit {n : Nat} (small : n < 16) :
    (digit n).toNat = if n < 10 then 48 + n else 87 + n := by
  have valid : (if n < 10 then 48 + n else 87 + n).isValidChar := by
    left
    split_ifs <;> omega
  rw [digit, toNat_char valid]

theorem toLower_digit {n : Nat} (small : n < 16) : (digit n).toLower = digit n := by
  rw [← Char.toNat_inj, toNat_toLower, toNat_digit small]
  split_ifs <;> omega

theorem value?_eq (c : Char) :
    value? c =
      if 48 ≤ c.toNat ∧ c.toNat ≤ 57 then some (c.toNat - 48)
      else if 97 ≤ c.toNat ∧ c.toNat ≤ 102 then some (c.toNat - 87)
      else if 65 ≤ c.toNat ∧ c.toNat ≤ 70 then some (c.toNat - 55)
      else none := by
  simp [value?, le_iff_toNat]

theorem value?_eq_some_iff {c : Char} {n : Nat} :
    value? c = some n ↔ n < 16 ∧ c.toLower = digit n := by
  rw [← Char.toNat_inj, toNat_toLower, value?_eq]
  constructor
  · intro h
    have small : n < 16 := by
      split_ifs at h <;> simp only [Option.some.injEq] at h <;> omega
    refine ⟨small, ?_⟩
    rw [toNat_digit small]
    split_ifs at h ⊢ <;> simp only [Option.some.injEq] at h <;> omega
  · rintro ⟨small, same⟩
    rw [toNat_digit small] at same
    split_ifs at same ⊢ <;> first | omega | (rw [Option.some.injEq]; omega)

theorem isSome_value? {c : Char} : (value? c).isSome ↔ IsDigit c := by
  unfold value? IsDigit
  split_ifs <;> simp_all

/-! ## Texts -/

/-- Pairs of digits, in either case. -/
def IsHex (text : List Char) : Prop := text.length % 2 = 0 ∧ ∀ c ∈ text, IsDigit c

theorem isHex_cons_cons {high low : Char} {rest : List Char} :
    IsHex (high :: low :: rest) ↔ IsDigit high ∧ IsDigit low ∧ IsHex rest := by
  have even : (high :: low :: rest).length % 2 = rest.length % 2 := by
    simp only [List.length_cons]
    omega
  unfold IsHex
  rw [even]
  simp only [List.forall_mem_cons]
  constructor
  · rintro ⟨pairs, isHigh, isLow, all⟩
    exact ⟨isHigh, isLow, pairs, all⟩
  · rintro ⟨isHigh, isLow, pairs, all⟩
    exact ⟨pairs, isHigh, isLow, all⟩

theorem map_toLower_encode (bytes : List UInt8) :
    (encode bytes).map Char.toLower = encode bytes := by
  induction bytes with
  | nil => rfl
  | cons b bytes ih =>
    have high : b.toNat / 16 < 16 := by
      have := b.toNat_lt
      omega
    have low : b.toNat % 16 < 16 := Nat.mod_lt _ (by omega)
    unfold encode at *
    simp [ih, toLower_digit high, toLower_digit low]

theorem halves (b : UInt8) : UInt8.ofNat (16 * (b.toNat / 16) + b.toNat % 16) = b := by
  rw [Nat.div_add_mod, UInt8.ofNat_toNat]

theorem decode?_cons_cons {high low : Char} {rest : List Char} {b : UInt8} {bytes : List UInt8} :
    decode? (high :: low :: rest) = some (b :: bytes) ↔
      value? high = some (b.toNat / 16) ∧ value? low = some (b.toNat % 16) ∧
        decode? rest = some bytes := by
  constructor
  · intro h
    simp only [decode?] at h
    split at h
    case h_1 h' l more hh hl hmore =>
      obtain ⟨smallh, -⟩ := value?_eq_some_iff.mp hh
      obtain ⟨smalll, -⟩ := value?_eq_some_iff.mp hl
      obtain ⟨rfl, rfl⟩ := List.cons.inj (Option.some.inj h)
      have byte : (UInt8.ofNat (16 * h' + l)).toNat = 16 * h' + l := by
        rw [UInt8.toNat_ofNat']
        omega
      rw [byte, hh, hl, hmore]
      refine ⟨?_, ?_, rfl⟩ <;> (congr 1; omega)
    case h_2 => cases h
  · rintro ⟨hh, hl, hmore⟩
    simp only [decode?, hh, hl, hmore, halves]

theorem decode?_eq_some_iff {text : List Char} {bytes : List UInt8} :
    decode? text = some bytes ↔ text.map Char.toLower = encode bytes := by
  match text with
  | [] => cases bytes <;> simp [encode, decode?]
  | [c] => cases bytes <;> simp [encode, decode?]
  | high :: low :: rest =>
    cases bytes with
    | nil =>
      simp only [encode, List.flatMap_nil, List.map_cons, reduceCtorEq, iff_false, decode?]
      split <;> simp
    | cons b bytes =>
      have high_small : b.toNat / 16 < 16 := by
        have := b.toNat_lt
        omega
      rw [decode?_cons_cons, decode?_eq_some_iff, value?_eq_some_iff, value?_eq_some_iff]
      simp [encode, high_small, Nat.mod_lt]

theorem isSome_decode? {text : List Char} : (decode? text).isSome ↔ IsHex text := by
  match text with
  | [] => simp [decode?, IsHex]
  | [c] => simp [decode?, IsHex]
  | high :: low :: rest =>
    rw [isHex_cons_cons, ← isSome_value?, ← isSome_value?, ← isSome_decode?, decode?]
    cases value? high <;> cases value? low <;> cases decode? rest <;> simp

end WebSub.Hex
