import Mathlib.Data.List.TakeDrop
import Mathlib.Data.List.TakeWhile
import WebSub.Markup.Reference

/-!
# Escaped text

Text with a reference for each character that would be taken for markup, and that the reader
resolves it to the text it was.
-/

namespace WebSub.Markup

/-! ## Up to a character -/

theorem takeWhile_upto {p : Char → Bool} {body : List Char} {c : Char}
    (inside : ∀ d ∈ body, p d = true) (stop : p c = false) (rest : List Char) :
    (body ++ c :: rest).takeWhile p = body := by
  rw [List.takeWhile_append_of_pos inside]
  simp [stop]

theorem dropWhile_upto {p : Char → Bool} {body : List Char} {c : Char}
    (inside : ∀ d ∈ body, p d = true) (stop : p c = false) (rest : List Char) :
    (body ++ c :: rest).dropWhile p = c :: rest := by
  rw [List.dropWhile_append_of_pos inside]
  simp [stop]

/-! ## Escaping -/

/-- The name by which a text has to refer to a character. -/
def referenceName? (c : Char) : Option (List Char) :=
  if c = '<' then some "lt".toList
  else if c = '>' then some "gt".toList
  else if c = '&' then some "amp".toList
  else if c = '"' then some "quot".toList
  else if c = '\'' then some "apos".toList
  else none

def escape : List Char → List Char
  | [] => []
  | c :: rest =>
    match referenceName? c with
    | some name => '&' :: (name ++ ';' :: escape rest)
    | none => c :: escape rest

theorem escape_append (a b : List Char) : escape (a ++ b) = escape a ++ escape b := by
  induction a with
  | nil => rfl
  | cons c rest ih =>
    simp only [List.cons_append, escape]
    cases referenceName? c with
    | none => simp [ih]
    | some name => simp [ih]

theorem escape_eq_nil {text : List Char} : escape text = [] ↔ text = [] := by
  cases text with
  | nil => simp [escape]
  | cons c rest =>
    simp only [escape]
    cases referenceName? c <;> simp

/-- A character by which a tag, a reference or a quoted value ends. -/
def isMarkup (c : Char) : Bool := c == '<' || c == '>' || c == '"' || c == '\''

theorem referenceName?_cases {c : Char} {name : List Char} (h : referenceName? c = some name) :
    entity? name = some c ∧ (∀ d ∈ name, endsReference d = false) ∧
      (∀ d ∈ name, isMarkup d = false) ∧ name.head? ≠ some '#' := by
  unfold referenceName? at h
  split_ifs at h
  all_goals
    cases h
    subst c
    exact ⟨rfl, by simp [endsReference], by simp [isMarkup], by simp⟩

theorem referenceName?_none {c : Char} (h : referenceName? c = none) :
    c ≠ '&' ∧ isMarkup c = false := by
  unfold referenceName? at h
  simp only [isMarkup]
  split at h
  · cases h
  split at h
  · cases h
  split at h
  · cases h
  split at h
  · cases h
  split at h
  · cases h
  simp_all

theorem isMarkup_escape {text : List Char} : ∀ c ∈ escape text, isMarkup c = false := by
  induction text with
  | nil => exact List.forall_mem_nil _
  | cons c rest ih =>
    intro d hd
    simp only [escape] at hd
    cases found : referenceName? c with
    | none =>
      rw [found] at hd
      rcases List.mem_cons.mp hd with rfl | hd
      · exact (referenceName?_none found).2
      · exact ih d hd
    | some name =>
      rw [found] at hd
      obtain ⟨-, -, plain, -⟩ := referenceName?_cases found
      rcases List.mem_cons.mp hd with rfl | hd
      · rfl
      · rcases List.mem_append.mp hd with hd | hd
        · exact plain d hd
        · rcases List.mem_cons.mp hd with rfl | hd
          · rfl
          · exact ih d hd

/-! ## Resolving -/

theorem unescapeFrom_nil (total position : Nat) : unescapeFrom total position [] = .ok [] := by
  rw [unescapeFrom]
  rfl

theorem byteLength_cons (c : Char) (text : List Char) :
    byteLength (c :: text) = c.utf8Size + byteLength text := by
  have shift : ∀ (text : List Char) (n m : Nat),
      text.foldl (fun n c => n + c.utf8Size) (n + m) =
        n + text.foldl (fun n c => n + c.utf8Size) m := by
    intro text
    induction text with
    | nil => intro n m; rfl
    | cons d rest ih =>
      intro n m
      simp only [List.foldl_cons]
      rw [← ih, Nat.add_assoc]
  unfold byteLength
  rw [List.foldl_cons, Nat.add_comm 0 _, shift]

/-- The equation of the reader without the facts that its termination needs. -/
theorem unescapeFrom_eq (total position : Nat) (text : List Char) :
    unescapeFrom total position text =
      match text.dropWhile (· != '&') with
      | [] => .ok (text.takeWhile (· != '&'))
      | _ :: after =>
        match after.dropWhile (!endsReference ·) with
        | ';' :: rest =>
          match resolve (position + byteLength (text.takeWhile (· != '&')) + 1)
            (after.takeWhile (!endsReference ·)) with
          | .error e => .error e
          | .ok c =>
            match unescapeFrom total (position + byteLength (text.takeWhile (· != '&')) +
              byteLength (after.takeWhile (!endsReference ·)) + 2) rest with
            | .error e => .error e
            | .ok more => .ok (text.takeWhile (· != '&') ++ c :: more)
        | _ => .error (.unterminatedReference
            (position + byteLength (text.takeWhile (· != '&'))) total) := by
  rw [unescapeFrom]
  split
  case h_1 h => rw [h]
  case h_2 head after h =>
    simp only [h]
    split
    case h_1 rest h' => exact h' ▸ rfl
    case h_2 other =>
      split
      case h_1 rest' h'' => exact absurd h'' (other _)
      case h_2 => rfl

theorem unescapeFrom_cons {c : Char} (plain : c ≠ '&') (total position : Nat) (text : List Char) :
    unescapeFrom total position (c :: text) =
      (unescapeFrom total (position + c.utf8Size) text).map (c :: ·) := by
  have kept : (c :: text).takeWhile (· != '&') = c :: text.takeWhile (· != '&') := by simp [plain]
  have left : (c :: text).dropWhile (· != '&') = text.dropWhile (· != '&') := by simp [plain]
  rw [unescapeFrom_eq, unescapeFrom_eq, kept, left, byteLength_cons]
  cases text.dropWhile (· != '&') with
  | nil => rfl
  | cons head after =>
    simp only [Nat.add_assoc]
    split
    · split
      · rfl
      · split
        · rfl
        · rfl
    · rfl

theorem unescapeFrom_reference {c : Char} {name : List Char}
    (found : referenceName? c = some name) (total position : Nat) (rest : List Char) :
    unescapeFrom total position ('&' :: (name ++ ';' :: rest)) =
      (unescapeFrom total (position + byteLength name + 2) rest).map (c :: ·) := by
  obtain ⟨entity, inside, -, head⟩ := referenceName?_cases found
  have inside : ∀ d ∈ name, (!endsReference d) = true := by simpa using inside
  have kept : (name ++ ';' :: rest).takeWhile (!endsReference ·) = name :=
    takeWhile_upto inside (by decide) rest
  have left : (name ++ ';' :: rest).dropWhile (!endsReference ·) = ';' :: rest :=
    dropWhile_upto inside (by decide) rest
  have known : ∀ start, resolve start name = .ok c := by
    intro start
    unfold resolve
    split
    · simp at head
    · rw [entity]
  rw [unescapeFrom_eq]
  simp only [bne_self_eq_false, Bool.false_eq_true, not_false_eq_true, List.takeWhile_cons_of_neg,
    List.dropWhile_cons_of_neg, kept, left, known, byteLength, List.foldl_nil, Nat.add_zero]
  cases unescapeFrom _ _ rest with
  | error e => rfl
  | ok more => rfl

theorem unescapeFrom_escape (text : List Char) :
    ∀ total position, unescapeFrom total position (escape text) = .ok text := by
  induction text with
  | nil => exact unescapeFrom_nil
  | cons c rest ih =>
    intro total position
    simp only [escape]
    cases found : referenceName? c with
    | some name => simp only [unescapeFrom_reference found, ih, Except.map]
    | none => simp only [unescapeFrom_cons (referenceName?_none found).1, ih, Except.map]

@[simp] theorem unescape_escape (text : List Char) : unescape (escape text) = .ok text :=
  unescapeFrom_escape text _ 0

end WebSub.Markup
