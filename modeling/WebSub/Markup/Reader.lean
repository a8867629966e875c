import WebSub.Markup.Error
import WebSub.Markup.Event

/-!
# Reading markup

A document as its events, up to the first mistake. The reader matches end tags with the elements
they close and checks nothing else; a document may end with elements still open.
-/

namespace WebSub.Markup

/-! ## Where a construct ends -/

/-- The index of the bracket that closes a tag, counted from `n`; brackets in quotes do not. -/
def tagEnd? (quote : Option Char) (n : Nat) : List Char → Option Nat
  | [] => none
  | c :: rest =>
    match quote with
    | some q => tagEnd? (if c = q then none else some q) (n + 1) rest
    | none =>
      if c = '>' then some n
      else tagEnd? (if c = '"' ∨ c = '\'' then some c else none) (n + 1) rest

/-- The index of the bracket that closes a document type, counted from `n`; brackets nest. -/
def doctypeEnd? (depth n : Nat) : List Char → Option Nat
  | [] => none
  | c :: rest =>
    if c = '>' then (if depth = 0 then some n else doctypeEnd? (depth - 1) (n + 1) rest)
    else doctypeEnd? (if c = '<' then depth + 1 else depth) (n + 1) rest

/-- The index at which a text first occurs, counted from `n`. -/
def indexOf? (what : List Char) (n : Nat) : List Char → Option Nat
  | [] => none
  | c :: rest => if what.isPrefixOf (c :: rest) then some n else indexOf? what (n + 1) rest

/-! ## One construct -/

/-- A construct that has been read, with the names of the elements then open, innermost first. -/
structure Step where
  event : Event
  rest : List Char
  opened : List (List Char)

/-- Reads character data; `text` starts at the exclamation mark, here and below. -/
def cdata (opened : List (List Char)) (text : List Char) : Except Error Step :=
  match indexOf? "]]>".toList 0 text with
  | none => .error .unclosedCdata
  | some i =>
    if "![CDATA[".toList.isPrefixOf (text.take (i + 2)) then
      .ok ⟨.cdata ((text.take i).drop 8), text.drop (i + 3), opened⟩
    else .error .unclosedCdata

/-- Reads a comment, whose two opening hyphens are not its closing ones. -/
def comment (opened : List (List Char)) (text : List Char) : Except Error Step :=
  match indexOf? "-->".toList 3 (text.drop 3) with
  | none => .error .unclosedComment
  | some i =>
    if "!--".toList.isPrefixOf text then .ok ⟨.aside, text.drop (i + 3), opened⟩
    else .error .unclosedComment

/-- Reads a document type, which has to name one. -/
def doctype (opened : List (List Char)) (text : List Char) : Except Error Step :=
  match doctypeEnd? 0 0 text with
  | none => .error .unclosedDoctype
  | some i =>
    if ((text.take i).take 8).map Char.toUpper = "!DOCTYPE".toList then
      if ((text.take i).drop 8).all isBlank then .error .unnamedDoctype
      else .ok ⟨.aside, text.drop (i + 1), opened⟩
    else .error .unclosedDoctype

/-- Reads one of the three, told apart by the character after the exclamation mark. -/
def declaration (opened : List (List Char)) (text : List Char) : Except Error Step :=
  match text[1]? with
  | none => .error .unknownDeclaration
  | some c =>
    if c = '[' then cdata opened text
    else if c = '-' then comment opened text
    else if c = 'D' ∨ c = 'd' then doctype opened text
    else .error .unknownDeclaration

/-- Reads a processing instruction; `text` starts at the question mark, which cannot close it. -/
def instruction (opened : List (List Char)) (text : List Char) : Except Error Step :=
  match indexOf? "?>".toList 0 text with
  | some 0 | none => .error .unclosedInstruction
  | some i => .ok ⟨.aside, text.drop (i + 2), opened⟩

/-- A name without the blanks at its end, unless it is nothing but blanks. -/
def trimmedName (name : List Char) : List Char :=
  match (name.reverse.dropWhile isBlank).reverse with
  | [] => name
  | trimmed => trimmed

/-- Reads an end tag; `text` starts at the slash. -/
def endTag (opened : List (List Char)) (text : List Char) : Except Error Step :=
  match tagEnd? none 0 text with
  | none => .error .unclosedTag
  | some i =>
    let name := trimmedName ((text.take i).drop 1)
    match opened with
    | [] => .error (.unmatchedEnd (String.ofList name))
    | expected :: outer =>
      if name = expected then .ok ⟨.close name, text.drop (i + 1), outer⟩
      else .error (.mismatchedEnd (String.ofList expected) (String.ofList name))

/-- Reads a start tag, or an empty element if a slash ends it. -/
def startTag (opened : List (List Char)) (text : List Char) : Except Error Step :=
  match tagEnd? none 0 text with
  | none => .error .unclosedTag
  | some i =>
    let content := text.take i
    let rest := text.drop (i + 1)
    if content.getLast? = some '/' then .ok ⟨.empty ⟨content.dropLast⟩, rest, opened⟩
    else
      let tag : Tag := ⟨content⟩
      .ok ⟨.start tag, rest, tag.name :: opened⟩

/-- Reads what stands after an opening bracket. -/
def markup (opened : List (List Char)) (text : List Char) : Except Error Step :=
  match text with
  | [] => .error .unclosedTag
  | '!' :: _ => declaration opened text
  | '/' :: _ => endTag opened text
  | '?' :: _ => instruction opened text
  | _ => startTag opened text

def next (opened : List (List Char)) (text : List Char) : Except Error Step :=
  match text with
  | '<' :: inside => markup opened inside
  | _ => .ok ⟨.text (text.takeWhile (· != '<')), text.dropWhile (· != '<'), opened⟩

/-! ## Every event moves on -/

theorem cdata_rest {opened : List (List Char)} {text : List Char} {s : Step}
    (h : cdata opened text = .ok s) : s.rest.length ≤ text.length := by
  unfold cdata at h
  split at h
  · simp at h
  · split at h
    · cases h; simp
    · simp at h

theorem comment_rest {opened : List (List Char)} {text : List Char} {s : Step}
    (h : comment opened text = .ok s) : s.rest.length ≤ text.length := by
  unfold comment at h
  split at h
  · simp at h
  · split at h
    · cases h; simp
    · simp at h

theorem doctype_rest {opened : List (List Char)} {text : List Char} {s : Step}
    (h : doctype opened text = .ok s) : s.rest.length ≤ text.length := by
  unfold doctype at h
  split at h
  · simp at h
  · split at h
    · split at h
      · simp at h
      · cases h; simp
    · simp at h

theorem declaration_rest {opened : List (List Char)} {text : List Char} {s : Step}
    (h : declaration opened text = .ok s) : s.rest.length ≤ text.length := by
  unfold declaration at h
  split at h
  · simp at h
  · split at h
    · exact cdata_rest h
    · split at h
      · exact comment_rest h
      · split at h
        · exact doctype_rest h
        · simp at h

theorem instruction_rest {opened : List (List Char)} {text : List Char} {s : Step}
    (h : instruction opened text = .ok s) : s.rest.length ≤ text.length := by
  unfold instruction at h
  split at h
  · simp at h
  · simp at h
  · cases h; simp

theorem endTag_rest {opened : List (List Char)} {text : List Char} {s : Step}
    (h : endTag opened text = .ok s) : s.rest.length ≤ text.length := by
  unfold endTag at h
  split at h
  · simp at h
  · dsimp only at h
    split at h
    · simp at h
    · split at h
      · cases h; simp
      · simp at h

theorem startTag_rest {opened : List (List Char)} {text : List Char} {s : Step}
    (h : startTag opened text = .ok s) : s.rest.length ≤ text.length := by
  unfold startTag at h
  split at h
  · simp at h
  · dsimp only at h
    split at h
    · cases h; simp
    · cases h; simp

theorem markup_rest {opened : List (List Char)} {text : List Char} {s : Step}
    (h : markup opened text = .ok s) : s.rest.length ≤ text.length := by
  unfold markup at h
  split at h
  · simp at h
  · exact declaration_rest h
  · exact endTag_rest h
  · exact instruction_rest h
  · exact startTag_rest h

theorem next_rest {opened : List (List Char)} {c : Char} {text : List Char} {s : Step}
    (h : next opened (c :: text) = .ok s) : s.rest.length < (c :: text).length := by
  unfold next at h
  split at h
  · rename_i inside heq
    have := markup_rest h
    simp only [List.cons.injEq] at heq
    simp only [List.length_cons, heq.2]
    omega
  · rename_i hne
    simp only [Except.ok.injEq] at h
    subst h
    have hc : c ≠ '<' := fun hc => hne text (by rw [hc])
    have := (List.dropWhile_sublist (fun d => d != '<') (l := text)).length_le
    simp only [List.dropWhile_cons, bne_iff_ne, ne_eq, hc, not_false_eq_true, ↓reduceIte,
      List.length_cons]
    omega

/-! ## A whole document -/

/-- The events before the first mistake, and that mistake. -/
structure Events where
  read : List Event
  failure : Option Error

def eventsFrom (opened : List (List Char)) (text : List Char) : Events :=
  match text with
  | [] => ⟨[], none⟩
  | c :: more =>
    match _h : next opened (c :: more) with
    | .error e => ⟨[], some e⟩
    | .ok s =>
      let others := eventsFrom s.opened s.rest
      ⟨s.event :: others.read, others.failure⟩
termination_by text.length
decreasing_by exact next_rest _h

/-- A byte order mark at the start is no part of the text. -/
def withoutMark : List Char → List Char
  | '\uFEFF' :: text => text
  | text => text

def events (text : List Char) : Events := eventsFrom [] (withoutMark text)

end WebSub.Markup
