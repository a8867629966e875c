import Mathlib.Data.List.TakeDrop
import WebSub.Proofs.Text.Utf8
import WebSub.Text.Form

/-!
# Reading forms

A form is read as the pairs that it was written from, whatever their characters are: what is
written for a name or a value is ASCII text without a separator, and each byte can be had back.
-/

namespace WebSub

/-! ## ASCII -/

namespace Utf8

def IsAscii (text : List Char) : Prop := ∀ c ∈ text, c.toNat < 0x80

/-- The byte of a character that has only one. -/
def asciiByte (c : Char) : UInt8 := UInt8.ofNat c.toNat

theorem toNat_asciiByte {c : Char} (ascii : c.toNat < 0x80) : (asciiByte c).toNat = c.toNat :=
  toNat_ofNat (by omega)

theorem encode_ascii {text : List Char} (ascii : IsAscii text) :
    encode text = text.map asciiByte := by
  induction text with
  | nil => rfl
  | cons c text ih =>
    have single : encodeChar c = [asciiByte c] := by
      unfold encodeChar
      simp only
      rw [if_pos (ascii c List.mem_cons_self)]
      rfl
    unfold encode at *
    rw [List.flatMap_cons, single, ih fun d hd => ascii d (List.mem_cons_of_mem _ hd)]
    rfl

theorem asciiByte_ofNat (b : UInt8) : asciiByte (Char.ofNat b.toNat) = b := by
  have valid : b.toNat.isValidChar := by
    have := b.toNat_lt
    left
    omega
  unfold asciiByte
  rw [Hex.toNat_char valid, UInt8.ofNat_toNat]

theorem asciiByte_notMem {text : List Char} {c : Char} (ascii : IsAscii text)
    (small : c.toNat < 0x80) (absent : c ∉ text) : asciiByte c ∉ text.map asciiByte := by
  intro h
  obtain ⟨d, hd, same⟩ := List.mem_map.mp h
  have codes := congrArg UInt8.toNat same
  rw [toNat_asciiByte (ascii d hd), toNat_asciiByte small] at codes
  exact absent (Char.toNat_inj.mp codes ▸ hd)

end Utf8

/-! ## Percent escapes -/

namespace Percent

theorem toNat_digit {n : Nat} (small : n < 16) :
    (digit n).toNat = if n < 10 then 48 + n else 55 + n := by
  have valid : (if n < 10 then 48 + n else 55 + n).isValidChar := by
    left
    split_ifs <;> omega
  rw [digit, Hex.toNat_char valid]

theorem value?_digit {n : Nat} (small : n < 16) : Hex.value? (digit n) = some n := by
  rw [Hex.value?_eq, toNat_digit small]
  split_ifs <;> first | omega | (rw [Option.some.injEq]; omega)

theorem ascii_digit {n : Nat} (small : n < 16) : (digit n).toNat < 0x80 := by
  rw [toNat_digit small]
  split_ifs <;> omega

theorem decode_cons {b : UInt8} (other : b ≠ 0x25) (rest : List UInt8) :
    decode (b :: rest) = b :: decode rest := by
  match rest with
  | [] => rfl
  | [c] => rfl
  | c :: d :: rest => rw [decode, if_neg other]

theorem decode_escape (b : UInt8) (rest : List UInt8) :
    decode ((escape b).map Utf8.asciiByte ++ rest) = b :: decode rest := by
  have high : b.toNat / 16 < 16 := by
    have := b.toNat_lt
    omega
  have low : b.toNat % 16 < 16 := Nat.mod_lt _ (by omega)
  have digits : ∀ n < 16, Hex.value? (Char.ofNat (Utf8.asciiByte (digit n)).toNat) = some n := by
    intro n small
    rw [Utf8.toNat_asciiByte (ascii_digit small), Char.ofNat_toNat, value?_digit small]
  show decode (0x25 :: Utf8.asciiByte (digit (b.toNat / 16)) ::
    Utf8.asciiByte (digit (b.toNat % 16)) :: rest) = _
  rw [decode, if_pos rfl, digits _ high, digits _ low]
  simp only [Hex.halves]

end Percent

namespace Form

/-! ## What is written -/

/-- The characters of a written name or value. -/
def isWritten (c : Char) : Bool := c.isAlphanum || "*-._+%".toList.contains c

theorem isAlphanum_ascii {c : Char} (h : c.isAlphanum) : c.toNat < 0x80 := by
  have below : ∀ last : Char, c.val ≤ last.val → last.toNat < 0x80 → c.toNat < 0x80 :=
    fun last here small => Nat.lt_of_le_of_lt (UInt32.le_iff_toNat_le.mp here) small
  rcases (Bool.or_eq_true _ _).mp h with letter | digit
  · rcases (Bool.or_eq_true _ _).mp letter with upper | lower
    · exact below 'Z' (of_decide_eq_true upper).2 (by decide)
    · exact below 'z' (of_decide_eq_true ((Bool.and_eq_true _ _).mp lower).2) (by decide)
  · exact below '9' (of_decide_eq_true ((Bool.and_eq_true _ _).mp digit).2) (by decide)

theorem isWritten_ascii {c : Char} (h : isWritten c) : c.toNat < 0x80 := by
  unfold isWritten at h
  rw [Bool.or_eq_true] at h
  rcases h with letter | mark
  · exact isAlphanum_ascii letter
  · simp only [List.contains_eq_mem, decide_eq_true_eq] at mark
    have all : "*-._+%".toList.all (·.toNat < 0x80) := by decide
    exact of_decide_eq_true (List.all_eq_true.mp all c mark)

theorem isWritten_of_plain {b : UInt8} (h : plain b) : isWritten (Char.ofNat b.toNat) := by
  simp only [plain, Bool.or_eq_true, beq_iff_eq] at h
  rcases h with (((letter | same) | same) | same) | same
  · simp [isWritten, letter]
  all_goals
    rw [same]
    decide

theorem isWritten_of_mem_escapeByte {b : UInt8} {c : Char} (h : c ∈ escapeByte b) :
    isWritten c := by
  have digits : ∀ n < 16, isWritten (Percent.digit n) := by decide
  have range := b.toNat_lt
  unfold escapeByte at h
  split_ifs at h with kept blank
  · rw [List.mem_singleton.mp h]
    exact isWritten_of_plain kept
  · rw [List.mem_singleton.mp h]
    decide
  · simp only [Percent.escape, List.mem_cons, List.not_mem_nil, or_false] at h
    rcases h with rfl | rfl | rfl
    · decide
    · exact digits _ (by omega)
    · exact digits _ (by omega)

theorem isWritten_of_mem_escape {text : List Char} {c : Char} (h : c ∈ escape text) :
    isWritten c := by
  obtain ⟨b, -, hc⟩ := List.mem_flatMap.mp h
  exact isWritten_of_mem_escapeByte hc

theorem notMem_escape {c : Char} (other : isWritten c = false) (text : List Char) :
    c ∉ escape text := by
  intro h
  rw [isWritten_of_mem_escape h] at other
  cases other

theorem escape_ascii (text : List Char) : Utf8.IsAscii (escape text) :=
  fun _ hc => isWritten_ascii (isWritten_of_mem_escape hc)

theorem escape_of_plain {text : List Char} (ascii : Utf8.IsAscii text)
    (kept : ∀ c ∈ text, plain (Utf8.asciiByte c)) : escape text = text := by
  unfold escape
  rw [Utf8.encode_ascii ascii]
  induction text with
  | nil => rfl
  | cons c text ih =>
    have same : Char.ofNat (Utf8.asciiByte c).toNat = c := by
      rw [Utf8.toNat_asciiByte (ascii c List.mem_cons_self), Char.ofNat_toNat]
    rw [List.map_cons, List.flatMap_cons, ih (fun d hd => ascii d (List.mem_cons_of_mem _ hd))
      fun d hd => kept d (List.mem_cons_of_mem _ hd), escapeByte,
      if_pos (kept c List.mem_cons_self), same]
    rfl

theorem mem_writePair {p : String × String} {c : Char} (h : c ∈ writePair p) :
    isWritten c ∨ c = '=' := by
  rcases List.mem_append.mp h with name | h
  · exact Or.inl (isWritten_of_mem_escape name)
  · rcases List.mem_cons.mp h with rfl | value
    · exact Or.inr rfl
    · exact Or.inl (isWritten_of_mem_escape value)

theorem writePair_ascii (p : String × String) : Utf8.IsAscii (writePair p) := by
  intro c hc
  rcases mem_writePair hc with written | rfl
  · exact isWritten_ascii written
  · decide

theorem notMem_writePair (p : String × String) : '&' ∉ writePair p := by
  intro h
  rcases mem_writePair h with written | same
  · revert written
    decide
  · revert same
    decide

theorem write_ascii (pairs : List (String × String)) : Utf8.IsAscii (write pairs).toList := by
  have all : ∀ ps : List (String × String),
      Utf8.IsAscii ((ps.map writePair).intersperse ['&']).flatten := by
    intro ps
    induction ps with
    | nil => exact fun c hc => absurd hc List.not_mem_nil
    | cons p ps ih =>
      intro c hc
      cases ps with
      | nil => exact writePair_ascii p c (by simpa using hc)
      | cons p' ps =>
        simp only [List.map_cons, List.intersperse_cons_cons, List.flatten_cons, List.mem_append,
          List.mem_singleton] at hc
        rcases hc with hc | rfl | hc
        · exact writePair_ascii p c hc
        · decide
        · exact ih c hc
  unfold write
  rw [String.toList_ofList]
  exact all pairs

/-! ## What is read -/

theorem unescape_escapeByte (b : UInt8) (rest : List UInt8) :
    unescape ((escapeByte b).map Utf8.asciiByte ++ rest) = b :: unescape rest := by
  unfold unescape escapeByte
  rw [List.map_append]
  split_ifs with kept blank
  · have sign : b ≠ 0x2B ∧ b ≠ 0x25 := by
      constructor
      all_goals
        rintro rfl
        revert kept
        decide
    simp only [List.map_cons, List.map_nil, Utf8.asciiByte_ofNat, if_neg sign.1]
    exact Percent.decode_cons sign.2 _
  · subst blank
    exact Percent.decode_cons (by decide) _
  · -- A percent sign and two digits hold no plus sign, so that they reach the decoder as they are.
    have same : ((Percent.escape b).map Utf8.asciiByte).map
        (fun b => if b = 0x2B then 0x20 else b) = (Percent.escape b).map Utf8.asciiByte := by
      have digits : ∀ n < 16, Utf8.asciiByte (Percent.digit n) ≠ 0x2B := by decide
      have range := b.toNat_lt
      simp only [Percent.escape, List.map_cons, List.map_nil,
        if_neg (digits (b.toNat / 16) (by omega)), if_neg (digits (b.toNat % 16) (by omega))]
      rfl
    rw [same]
    exact Percent.decode_escape b _

theorem unescape_escape (text : List Char) :
    unescape ((escape text).map Utf8.asciiByte) = Utf8.encode text := by
  have all : ∀ bytes : List UInt8,
      unescape ((bytes.flatMap escapeByte).map Utf8.asciiByte) = bytes := by
    intro bytes
    induction bytes with
    | nil => rfl
    | cons b bytes ih => rw [List.flatMap_cons, List.map_append, unescape_escapeByte, ih]
  exact all _

theorem readText_escape (s : String) : readText ((escape s.toList).map Utf8.asciiByte) = s := by
  unfold readText
  rw [unescape_escape, Utf8.decodeLossy_encode, String.ofList_toList]

theorem escape_inj {s t : String} (h : escape s.toList = escape t.toList) : s = t := by
  rw [← readText_escape s, h, readText_escape]

theorem readPair_writePair (p : String × String) :
    readPair ((writePair p).map Utf8.asciiByte) = p := by
  have bytes : (writePair p).map Utf8.asciiByte = (escape p.1.toList).map Utf8.asciiByte ++
      0x3D :: (escape p.2.toList).map Utf8.asciiByte := by
    rw [writePair, List.map_append, List.map_cons]
    rfl
  have name : ∀ b ∈ (escape p.1.toList).map Utf8.asciiByte, (b != 0x3D) = true := by
    intro b hb
    rw [bne_iff_ne]
    rintro rfl
    exact Utf8.asciiByte_notMem (c := '=') (escape_ascii _) (by decide)
      (notMem_escape (by decide) _) hb
  unfold readPair
  rw [bytes, List.span_eq_takeWhile_dropWhile, List.takeWhile_append_of_pos name,
    List.dropWhile_append_of_pos name]
  simp [readText_escape]

theorem map_write (pairs : List (String × String)) :
    (write pairs).toList.map Utf8.asciiByte =
      [0x26].intercalate (pairs.map fun p => (writePair p).map Utf8.asciiByte) := by
  unfold write List.intercalate
  rw [String.toList_ofList]
  induction pairs with
  | nil => rfl
  | cons p pairs ih =>
    cases pairs with
    | nil => simp
    | cons p' pairs =>
      simp only [List.map_cons, List.intersperse_cons_cons, List.flatten_cons,
        List.map_append] at ih ⊢
      rw [ih]
      rfl

/-- A form is read as the pairs that it was written from. -/
theorem read_write (pairs : List (String × String)) :
    read (Utf8.encode (write pairs).toList) = pairs := by
  rw [Utf8.encode_ascii (write_ascii pairs), map_write]
  cases pairs with
  | nil => rfl
  | cons p pairs =>
    have whole : ∀ piece ∈ (p :: pairs).map fun p => (writePair p).map Utf8.asciiByte,
        (0x26 : UInt8) ∉ piece := by
      intro piece hpiece
      obtain ⟨q, -, rfl⟩ := List.mem_map.mp hpiece
      exact Utf8.asciiByte_notMem (c := '&') (writePair_ascii q) (by decide) (notMem_writePair q)
    have nonempty : ∀ piece ∈ (p :: pairs).map fun p => (writePair p).map Utf8.asciiByte,
        (!piece.isEmpty) = true := by
      intro piece hpiece
      obtain ⟨q, -, rfl⟩ := List.mem_map.mp hpiece
      simp [writePair]
    unfold read
    rw [List.splitOn_intercalate _ whole (by simp), List.filter_eq_self.mpr nonempty, List.map_map]
    exact (List.map_congr_left fun q _ => readPair_writePair q).trans (List.map_id _)

example : write [("a b", "c&d"), ("é", "")] = "a+b=c%26d&%C3%A9=" := by decide

end Form

end WebSub
