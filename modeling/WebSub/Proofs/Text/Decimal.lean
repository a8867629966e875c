import WebSub.Text.Decimal

/-!
# Reading numerals

The numeral that is written for a number is read as that number, if it is in range.
-/

namespace WebSub.Decimal

theorem natural?_toDigits (n : Nat) : natural? (Nat.toDigits 10 n) = some n := by
  have digits : (Nat.toDigits 10 n).all Char.isDigit := by
    rw [List.all_eq_true]
    intro c hc
    exact Nat.isDigit_of_mem_toDigits (by decide) (by decide) hc
  unfold natural?
  rw [if_pos ⟨Nat.toDigits_ne_nil, digits⟩]
  exact congrArg some (Nat.ofDigitChars_toDigits (by decide) (by decide))

theorem integer?_of_natural? {text : List Char} {n : Nat} (value : natural? text = some n) :
    integer? text = some (n : Int) := by
  have digits : text.all Char.isDigit = true := by
    unfold natural? at value
    split at value
    case isTrue row => exact row.2
    case isFalse => cases value
  rw [List.all_eq_true] at digits
  unfold integer?
  split
  case h_1 => exact absurd (digits _ List.mem_cons_self) (by decide)
  case h_2 => exact absurd (digits _ List.mem_cons_self) (by decide)
  case h_3 => rw [value]; rfl

theorem integer?_toDigits (n : Nat) : integer? (Nat.toDigits 10 n) = some (n : Int) :=
  integer?_of_natural? (natural?_toDigits n)

theorem integer?_toString (n : Int) : integer? (toString n).toList = some n := by
  cases n with
  | ofNat n =>
    show integer? (Nat.repr n).toList = _
    rw [Nat.toList_repr]
    exact integer?_toDigits n
  | negSucc n =>
    show integer? ("-" ++ Nat.repr (n + 1)).toList = _
    rw [String.toList_append, Nat.toList_repr]
    show (natural? (Nat.toDigits 10 (n + 1))).map (fun n => -(n : Int)) = _
    rw [natural?_toDigits]
    rfl

theorem int64?_toString {n : Int} (least : int64Min ≤ n) (most : n ≤ int64Max) :
    int64? (toString n).toList = some n := by
  unfold int64?
  rw [integer?_toString]
  simp [least, most]

/-! ## Any numeral -/

/-- A decimal numeral of an integer, however long; zeros may stand in front, and a sign before
them. -/
inductive Spells : List Char → Int → Prop
  | unsigned (zeros n : Nat) : Spells (List.replicate zeros '0' ++ Nat.toDigits 10 n) n
  | plus (zeros n : Nat) : Spells ('+' :: (List.replicate zeros '0' ++ Nat.toDigits 10 n)) n
  | minus (zeros n : Nat) : Spells ('-' :: (List.replicate zeros '0' ++ Nat.toDigits 10 n)) (-n)

theorem natural?_zeros (zeros n : Nat) :
    natural? (List.replicate zeros '0' ++ Nat.toDigits 10 n) = some n := by
  induction zeros with
  | zero => exact natural?_toDigits n
  | succ zeros ih =>
    rw [List.replicate_succ, List.cons_append]
    unfold natural? at ih ⊢
    split at ih
    case isTrue row =>
      rw [if_pos ⟨List.cons_ne_nil _ _, by rw [List.all_cons, row.2]; rfl⟩, ← ih]
      rfl
    case isFalse => cases ih

theorem Spells.integer? {text : List Char} {n : Int} (h : Spells text n) :
    Decimal.integer? text = some n := by
  cases h with
  | unsigned zeros n => exact integer?_of_natural? (natural?_zeros zeros n)
  | plus zeros n =>
    show (natural? _).map Int.ofNat = _
    rw [natural?_zeros]
    rfl
  | minus zeros n =>
    show (natural? _).map (fun n => -(n : Int)) = _
    rw [natural?_zeros]
    rfl

theorem Spells.int64? {text : List Char} {n : Int} (h : Spells text n) :
    Decimal.int64? text = if int64Min ≤ n ∧ n ≤ int64Max then some n else none := by
  unfold Decimal.int64?
  rw [h.integer?, Option.filter]
  simp only [decide_eq_true_eq]

end WebSub.Decimal
