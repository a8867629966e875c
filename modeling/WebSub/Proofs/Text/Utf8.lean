import Mathlib.Tactic.SplitIfs
import WebSub.Proofs.Text.Hex
import WebSub.Text.Utf8

/-!
# Reading UTF-8

Bytes are read as a text exactly if they are what is written for it.
-/

namespace WebSub.Utf8

theorem toNat_ofNat {n : Nat} (small : n < 256) : (UInt8.ofNat n).toNat = n := by
  rw [UInt8.toNat_ofNat', Nat.mod_eq_of_lt small]

theorem ofNat_eq {n : Nat} {b : UInt8} (same : b.toNat = n) : UInt8.ofNat n = b := by
  rw [← same, UInt8.ofNat_toNat]

theorem encodeChar_eq (c : Char) : encodeChar c = String.utf8EncodeChar c := by
  have valid : c.toNat < 0xD800 ∨ 0xDFFF < c.toNat ∧ c.toNat < 0x110000 := c.valid
  have code : c.val.toNat = c.toNat := rfl
  unfold encodeChar String.utf8EncodeChar
  simp only [code]
  generalize c.toNat = n at *
  split_ifs
  any_goals omega
  · rfl
  · rw [show 0xC0 + n / 64 = n / 64 % 32 + 192 by omega, Nat.add_comm 0x80]
  · rw [show 0xE0 + n / 4096 = n / 4096 % 16 + 224 by omega, Nat.add_comm 0x80, Nat.add_comm 0x80]
  · rw [show 0xF0 + n / 262144 = n / 262144 % 8 + 240 by omega, Nat.add_comm 0x80,
      Nat.add_comm 0x80, Nat.add_comm 0x80]

theorem encode_toList (s : String) : encode s.toList = s.toUTF8.data.toList := by
  show _ = s.toByteArray.data.toList
  rw [← String.utf8Encode_toList]
  simp [encode, List.utf8Encode, funext encodeChar_eq]

/-! ## What is written is read -/

theorem step_one {n : Nat} (small : n < 0x80) :
    step .between (UInt8.ofNat n) = ([some (Char.ofNat n)], .between) := by
  unfold step first
  simp only [toNat_ofNat (show n < 256 by omega)]
  rw [if_pos small]

theorem step_two {n : Nat} (two : 2 ≤ n) (small : n < 0x20) :
    step .between (UInt8.ofNat (0xC0 + n)) = ([], .inside 1 n 0x80 0xBF) := by
  unfold step first
  simp only [toNat_ofNat (show 0xC0 + n < 256 by omega)]
  rw [if_neg (by omega), if_neg (by omega), if_pos (by omega), Nat.add_sub_cancel_left]

theorem step_three {n : Nat} (small : n < 0x10) :
    step .between (UInt8.ofNat (0xE0 + n)) =
      ([], .inside 2 n (if n = 0 then 0xA0 else 0x80) (if n = 0xD then 0x9F else 0xBF)) := by
  unfold step first
  simp only [toNat_ofNat (show 0xE0 + n < 256 by omega)]
  rw [if_neg (by omega), if_neg (by omega), if_neg (by omega), if_pos (by omega),
    Nat.add_sub_cancel_left]
  congr 2 <;> (split_ifs <;> omega)

theorem step_four {n : Nat} (small : n < 5) :
    step .between (UInt8.ofNat (0xF0 + n)) =
      ([], .inside 3 n (if n = 0 then 0x90 else 0x80) (if n = 4 then 0x8F else 0xBF)) := by
  unfold step first
  simp only [toNat_ofNat (show 0xF0 + n < 256 by omega)]
  rw [if_neg (by omega), if_neg (by omega), if_neg (by omega), if_neg (by omega),
    if_pos (by omega), Nat.add_sub_cancel_left]
  congr 2 <;> (split_ifs <;> omega)

theorem step_inner {owed code low high k : Nat} (least : low ≤ 0x80 + k) (most : 0x80 + k ≤ high)
    (six : k < 64) :
    step (.inside (owed + 2) code low high) (UInt8.ofNat (0x80 + k)) =
      ([], .inside (owed + 1) (64 * code + k) 0x80 0xBF) := by
  unfold step
  simp only [toNat_ofNat (show 0x80 + k < 256 by omega)]
  rw [if_pos ⟨least, most⟩, Nat.add_sub_cancel_left, if_neg (by omega)]
  rfl

theorem step_last {code low high k : Nat} (least : low ≤ 0x80 + k) (most : 0x80 + k ≤ high)
    (six : k < 64) :
    step (.inside 1 code low high) (UInt8.ofNat (0x80 + k)) =
      ([some (Char.ofNat (64 * code + k))], .between) := by
  unfold step
  simp only [toNat_ofNat (show 0x80 + k < 256 by omega)]
  rw [if_pos ⟨least, most⟩, Nat.add_sub_cancel_left, if_pos (Nat.le_refl 1)]

theorem push_eq {read out : List (Option Char)} {s s' : State} {b : UInt8}
    (h : step s b = (out, s')) : Reader.push ⟨read, s⟩ b = ⟨out.reverse ++ read, s'⟩ := by
  simp only [Reader.push, h]

theorem foldl_push_encodeChar (read : List (Option Char)) (c : Char) :
    (encodeChar c).foldl Reader.push ⟨read, .between⟩ = ⟨some c :: read, .between⟩ := by
  have valid : c.toNat < 0xD800 ∨ 0xDFFF < c.toNat ∧ c.toNat < 0x110000 := c.valid
  have whole := Char.ofNat_toNat c
  unfold encodeChar
  generalize c.toNat = n at *
  simp only
  split_ifs with one two three
  · rw [List.foldl_cons, push_eq (step_one one), whole]
    rfl
  · have second : 64 * (n / 64) + n % 64 = n := by omega
    rw [List.foldl_cons, push_eq (step_two (by omega) (by omega)), List.foldl_cons,
      push_eq (step_last (by omega) (by omega) (by omega)), second, whole]
    rfl
  · have third : 64 * (64 * (n / 4096) + n / 64 % 64) + n % 64 = n := by omega
    rw [List.foldl_cons, push_eq (step_three (by omega)), List.foldl_cons,
      push_eq (step_inner (by split_ifs <;> omega) (by split_ifs <;> omega) (by omega)),
      List.foldl_cons, push_eq (step_last (by omega) (by omega) (by omega)), third, whole]
    rfl
  · have fourth : 64 * (64 * (64 * (n / 262144) + n / 4096 % 64) + n / 64 % 64) + n % 64 = n := by
      omega
    rw [List.foldl_cons, push_eq (step_four (by omega)), List.foldl_cons,
      push_eq (step_inner (by split_ifs <;> omega) (by split_ifs <;> omega) (by omega)),
      List.foldl_cons, push_eq (step_inner (by omega) (by omega) (by omega)), List.foldl_cons,
      push_eq (step_last (by omega) (by omega) (by omega)), fourth, whole]
    rfl

theorem foldl_push_encode (read : List (Option Char)) (text : List Char) :
    (encode text).foldl Reader.push ⟨read, .between⟩ =
      ⟨(text.map some).reverse ++ read, .between⟩ := by
  induction text generalizing read with
  | nil => rfl
  | cons c text ih =>
    rw [encode, List.flatMap_cons, List.foldl_append, foldl_push_encodeChar]
    rw [encode] at ih
    simp [ih]

theorem pieces_encode (text : List Char) : pieces (encode text) = text.map some := by
  unfold pieces
  rw [foldl_push_encode]
  simp [Reader.finish]

theorem decodeLossy_encode (text : List Char) : decodeLossy (encode text) = text := by
  unfold decodeLossy
  rw [pieces_encode, List.map_map]
  exact List.map_id _

/-! ## What is read was written -/

/-- The bytes so far begin a character, and every way to go on that the reader takes writes it. -/
def Begins : (owed code low high : Nat) → List UInt8 → Prop
  | 0, _, _, _, _ => False
  | 1, code, low, high, begun => ∀ b : UInt8, low ≤ b.toNat → b.toNat ≤ high →
    encodeChar (Char.ofNat (64 * code + (b.toNat - 0x80))) = begun ++ [b]
  | owed + 2, code, low, high, begun => ∀ b : UInt8, low ≤ b.toNat → b.toNat ≤ high →
    Begins (owed + 1) (64 * code + (b.toNat - 0x80)) 0x80 0xBF (begun ++ [b])

def State.Holds : State → List UInt8 → Prop
  | .between, begun => begun = []
  | .inside owed code low high, begun => Begins owed code low high begun

theorem begins_two {a : UInt8} (low : 0xC2 ≤ a.toNat) (high : a.toNat < 0xE0) :
    Begins 1 (a.toNat - 0xC0) 0x80 0xBF [a] := by
  intro b least most
  unfold encodeChar
  rw [Hex.toNat_char (by left; omega)]
  simp only
  rw [if_neg (by omega), if_pos (by omega), ofNat_eq (b := a) (by omega),
    ofNat_eq (b := b) (by omega)]
  rfl

theorem begins_three {a : UInt8} (low : 0xE0 ≤ a.toNat) (high : a.toNat < 0xF0) :
    Begins 2 (a.toNat - 0xE0) (if a.toNat = 0xE0 then 0xA0 else 0x80)
      (if a.toNat = 0xED then 0x9F else 0xBF) [a] := by
  intro b least most c least' most'
  have continues : 0x80 ≤ b.toNat ∧ b.toNat ≤ 0xBF := by split_ifs at least most <;> omega
  -- No character is written longer than needed, and none is a surrogate.
  have shortest : a.toNat = 0xE0 → 0xA0 ≤ b.toNat := by split_ifs at least <;> omega
  have noSurrogate : a.toNat = 0xED → b.toNat ≤ 0x9F := by split_ifs at most <;> omega
  have valid :
      (64 * (64 * (a.toNat - 0xE0) + (b.toNat - 0x80)) + (c.toNat - 0x80)).isValidChar := by
    unfold Nat.isValidChar
    omega
  unfold encodeChar
  rw [Hex.toNat_char valid]
  simp only
  rw [if_neg (by omega), if_neg (by omega), if_pos (by omega), ofNat_eq (b := a) (by omega),
    ofNat_eq (b := b) (by omega), ofNat_eq (b := c) (by omega)]
  rfl

theorem begins_four {a : UInt8} (low : 0xF0 ≤ a.toNat) (high : a.toNat < 0xF5) :
    Begins 3 (a.toNat - 0xF0) (if a.toNat = 0xF0 then 0x90 else 0x80)
      (if a.toNat = 0xF4 then 0x8F else 0xBF) [a] := by
  intro b least most c least' most' d least'' most''
  have continues : 0x80 ≤ b.toNat ∧ b.toNat ≤ 0xBF := by split_ifs at least most <;> omega
  have shortest : a.toNat = 0xF0 → 0x90 ≤ b.toNat := by split_ifs at least <;> omega
  have inRange : a.toNat = 0xF4 → b.toNat ≤ 0x8F := by split_ifs at most <;> omega
  have valid : (64 * (64 * (64 * (a.toNat - 0xF0) + (b.toNat - 0x80)) + (c.toNat - 0x80)) +
      (d.toNat - 0x80)).isValidChar := by
    unfold Nat.isValidChar
    omega
  unfold encodeChar
  rw [Hex.toNat_char valid]
  simp only
  rw [if_neg (by omega), if_neg (by omega), if_neg (by omega), ofNat_eq (b := a) (by omega),
    ofNat_eq (b := b) (by omega), ofNat_eq (b := c) (by omega), ofNat_eq (b := d) (by omega)]
  rfl

theorem first_cases (b : UInt8) :
    (∃ c, first b = ([some c], .between) ∧ encodeChar c = [b]) ∨
    (∃ owed code low high, first b = ([], .inside owed code low high) ∧
      Begins owed code low high [b]) ∨
    first b = ([none], .between) := by
  unfold first
  simp only
  by_cases one : b.toNat < 0x80
  · left
    refine ⟨_, if_pos one, ?_⟩
    unfold encodeChar
    rw [Hex.toNat_char (by left; omega)]
    simp only
    rw [if_pos one, UInt8.ofNat_toNat]
  rw [if_neg one]
  by_cases bad : b.toNat < 0xC2
  · rw [if_pos bad]
    exact Or.inr (Or.inr rfl)
  rw [if_neg bad]
  by_cases two : b.toNat < 0xE0
  · rw [if_pos two]
    exact Or.inr (Or.inl ⟨_, _, _, _, rfl, begins_two (by omega) two⟩)
  rw [if_neg two]
  by_cases three : b.toNat < 0xF0
  · rw [if_pos three]
    exact Or.inr (Or.inl ⟨_, _, _, _, rfl, begins_three (by omega) three⟩)
  rw [if_neg three]
  by_cases four : b.toNat < 0xF5
  · rw [if_pos four]
    exact Or.inr (Or.inl ⟨_, _, _, _, rfl, begins_four (by omega) four⟩)
  rw [if_neg four]
  exact Or.inr (Or.inr rfl)

/-! ## The reader has read what was written -/

/-- The bytes so far are those of the text that was read, and of a character that has begun. -/
def Reader.Read (r : Reader) (bytes : List UInt8) : Prop :=
  ∃ text begun, r.read = (text.map some).reverse ∧ bytes = encode text ++ begun ∧
    r.state.Holds begun

theorem Reader.Read.more {read : List (Option Char)} {bytes begun : List UInt8} {text : List Char}
    {c : Char} {b : UInt8} (chars : read = (text.map some).reverse)
    (same : bytes = encode text ++ begun) (whole : encodeChar c = begun ++ [b]) :
    Reader.Read ⟨some c :: read, .between⟩ (bytes ++ [b]) := by
  refine ⟨text ++ [c], [], by simp [chars], ?_, rfl⟩
  rw [same, List.append_assoc, ← whole]
  simp [encode]

theorem Reader.Read.first {read : List (Option Char)} {bytes : List UInt8}
    (h : Reader.Read ⟨read, .between⟩ bytes) (b : UInt8) :
    (Reader.push ⟨read, .between⟩ b).Read (bytes ++ [b]) ∨
      none ∈ (Reader.push ⟨read, .between⟩ b).read := by
  obtain ⟨text, begun, chars, same, rfl⟩ := h
  rcases first_cases b with ⟨c, one, whole⟩ | ⟨owed, code, low, high, lead, begins⟩ | bad
  · rw [push_eq (s := .between) one]
    exact Or.inl (Reader.Read.more chars same whole)
  · rw [push_eq (s := .between) lead]
    exact Or.inl ⟨text, [b], chars, by rw [same, List.append_nil], begins⟩
  · rw [push_eq (s := .between) bad]
    simp

theorem Reader.Read.push {r : Reader} {bytes : List UInt8} (h : r.Read bytes) (b : UInt8) :
    (r.push b).Read (bytes ++ [b]) ∨ none ∈ (r.push b).read := by
  obtain ⟨read, state⟩ := r
  cases state with
  | between => exact h.first b
  | inside owed code low high =>
    obtain ⟨text, begun, chars, same, begins⟩ := h
    by_cases range : low ≤ b.toNat ∧ b.toNat ≤ high
    · left
      simp only [Reader.push, step, if_pos range]
      obtain ⟨least, most⟩ := range
      match owed with
      | 0 => exact begins.elim
      | 1 => exact Reader.Read.more chars same (begins b least most)
      | owed + 2 =>
        rw [if_neg (by omega)]
        exact ⟨text, begun ++ [b], chars, by rw [same, List.append_assoc], begins b least most⟩
    · right
      simp [Reader.push, step, if_neg range]

theorem none_mem_foldl {r : Reader} (h : none ∈ r.read) (bytes : List UInt8) :
    none ∈ (bytes.foldl Reader.push r).read := by
  induction bytes generalizing r with
  | nil => exact h
  | cons b bytes ih =>
    apply ih
    simp only [Reader.push, List.mem_append]
    exact Or.inr h

theorem Reader.Read.foldl {r : Reader} {before : List UInt8} (h : r.Read before)
    (bytes : List UInt8) :
    (bytes.foldl Reader.push r).Read (before ++ bytes) ∨
      none ∈ (bytes.foldl Reader.push r).read := by
  induction bytes generalizing r before with
  | nil =>
    rw [List.append_nil]
    exact Or.inl h
  | cons b bytes ih =>
    rcases h.push b with read | gap
    · have more := ih read
      rw [List.append_assoc] at more
      exact more
    · exact Or.inr (none_mem_foldl gap bytes)

theorem eq_encode_of_pieces {bytes : List UInt8} {text : List Char}
    (h : pieces bytes = text.map some) : bytes = encode text := by
  have noGap : none ∉ pieces bytes := by simp [h]
  have start : Reader.Read {} [] := ⟨[], [], rfl, rfl, rfl⟩
  unfold pieces at h noGap
  rcases start.foldl bytes with ⟨text', begun, read, same, holds⟩ | gap
  · generalize bytes.foldl Reader.push {} = r at *
    unfold Reader.finish at h noGap
    cases at_r : r.state with
    | between =>
      rw [at_r] at holds h
      have fresh : begun = [] := holds
      have chars : text'.map some = text.map some := by simpa [read] using h
      have text_eq : text' = text := (List.map_inj_right fun _ _ => Option.some.inj).mp chars
      rw [← text_eq, ← List.nil_append bytes, same, fresh, List.append_nil]
    | inside owed code low high =>
      rw [at_r] at noGap
      simp at noGap
  · exfalso
    apply noGap
    unfold Reader.finish
    split <;> simp [gap]

/-! ## The strict decoder -/

theorem map_some_filterMap {α : Type} {l : List (Option α)} (h : l.all Option.isSome) :
    (l.filterMap id).map some = l := by
  induction l with
  | nil => rfl
  | cons a l ih =>
    rw [List.all_cons, Bool.and_eq_true] at h
    obtain ⟨x, rfl⟩ := Option.isSome_iff_exists.mp h.1
    change some x :: (l.filterMap id).map some = some x :: l
    rw [ih h.2]

theorem decode?_eq_some_iff {bytes : List UInt8} {text : List Char} :
    decode? bytes = some text ↔ bytes = encode text := by
  unfold decode?
  simp only
  constructor
  · intro h
    split at h
    case isTrue all =>
      apply eq_encode_of_pieces
      rw [← Option.some.inj h, map_some_filterMap all]
    case isFalse => cases h
  · rintro rfl
    simp [pieces_encode]

end WebSub.Utf8
