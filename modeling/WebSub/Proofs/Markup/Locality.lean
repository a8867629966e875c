import WebSub.Proofs.Markup.Written

/-!
# Reading piece by piece

A construct is read off its own characters. Of the elements around it the reader asks no more than
whether an end tag closes the innermost, and of what follows it nothing, save where a text ends.
-/

namespace WebSub.Markup

/-! ## Where a construct ends -/

/-- What is sought from `start` on is found at `i` by the characters before `stop`, whatever comes
after them. -/
def FoundBefore (stop : Nat) (find : List Char → Option Nat) (start i : Nat) (text : List Char) :
    Prop :=
  ∃ whole rest, text = whole ++ rest ∧ start + whole.length = stop ∧
    ∀ more, find (whole ++ more) = some i

theorem FoundBefore.cons {find onward : List Char → Option Nat} {start stop i : Nat}
    {text : List Char} (found : FoundBefore stop onward (start + 1) i text) {c : Char}
    (goes_on : ∀ more, find (c :: more) = onward more) :
    FoundBefore stop find start i (c :: text) := by
  obtain ⟨whole, rest, rfl, size, again⟩ := found
  refine ⟨c :: whole, rest, rfl, by rw [List.length_cons]; omega, fun more => ?_⟩
  rw [List.cons_append, goes_on, again]

theorem FoundBefore.cut {find : List Char → Option Nat} {stop i : Nat} {text : List Char}
    (found : FoundBefore stop find 0 i text) (inside : i ≤ stop) :
    ∃ whole rest, text = whole ++ rest ∧ whole.length = stop ∧ ∀ more,
      find (whole ++ more) = some i ∧ (whole ++ more).take i = whole.take i ∧
        (whole ++ more).drop stop = more := by
  obtain ⟨whole, rest, cut, size, again⟩ := found
  rw [Nat.zero_add] at size
  exact ⟨whole, rest, cut, size, fun more => ⟨again more,
    List.take_append_of_le_length (size ▸ inside), List.drop_left' size⟩⟩

theorem tagEnd?_upto {text : List Char} : ∀ {quote : Option Char} {n i : Nat},
    tagEnd? quote n text = some i → FoundBefore (i + 1) (tagEnd? quote n) n i text := by
  induction text with
  | nil => intro quote n i found; cases found
  | cons c text ih =>
    intro quote n i found
    cases quote with
    | some q => exact (ih found).cons fun _ => rfl
    | none =>
      rw [tagEnd?] at found
      by_cases ends : c = '>'
      · rw [if_pos ends] at found
        cases found
        exact ⟨[c], text, rfl, rfl, fun more => by simp [tagEnd?, ends]⟩
      · rw [if_neg ends] at found
        exact (ih found).cons fun more => by rw [tagEnd?, if_neg ends]

theorem doctypeEnd?_upto {text : List Char} : ∀ {depth n i : Nat},
    doctypeEnd? depth n text = some i → FoundBefore (i + 1) (doctypeEnd? depth n) n i text := by
  induction text with
  | nil => intro depth n i found; cases found
  | cons c text ih =>
    intro depth n i found
    rw [doctypeEnd?] at found
    by_cases ends : c = '>'
    · rw [if_pos ends] at found
      by_cases last : depth = 0
      · rw [if_pos last] at found
        cases found
        exact ⟨[c], text, rfl, rfl, fun more => by simp [doctypeEnd?, ends, last]⟩
      · rw [if_neg last] at found
        exact (ih found).cons fun more => by rw [doctypeEnd?, if_pos ends, if_neg last]
    · rw [if_neg ends] at found
      exact (ih found).cons fun more => by rw [doctypeEnd?, if_neg ends]

theorem isPrefixOf_append {what whole : List Char} (fits : what.length ≤ whole.length)
    (more : List Char) : what.isPrefixOf (whole ++ more) = what.isPrefixOf whole := by
  rw [Bool.eq_iff_iff, List.isPrefixOf_iff_prefix, List.isPrefixOf_iff_prefix]
  exact List.isPrefix_append_of_length fits

theorem le_of_indexOf? {what text : List Char} :
    ∀ {n i : Nat}, indexOf? what n text = some i → n ≤ i := by
  induction text with
  | nil => intro n i found; cases found
  | cons c text ih =>
    intro n i found
    rw [indexOf?] at found
    split at found
    case isTrue => cases found; exact le_refl n
    case isFalse => exact Nat.le_of_succ_le (ih found)

theorem indexOf?_upto {what : List Char} (nonempty : what ≠ []) {text : List Char} :
    ∀ {n i : Nat}, indexOf? what n text = some i →
      FoundBefore (i + what.length) (indexOf? what n) n i text := by
  induction text with
  | nil => intro n i found; cases found
  | cons c text ih =>
    intro n i found
    rw [indexOf?] at found
    by_cases here : what.isPrefixOf (c :: text) = true
    · rw [if_pos here] at found
      cases found
      obtain ⟨rest, cut⟩ := List.isPrefixOf_iff_prefix.mp here
      refine ⟨what, rest, cut.symm, rfl, fun more => ?_⟩
      have again := List.isPrefixOf_iff_prefix.mpr (List.prefix_append what more)
      obtain ⟨d, others, cons⟩ := List.exists_cons_of_ne_nil nonempty
      rw [cons, List.cons_append] at again ⊢
      rw [indexOf?, if_pos again]
    · rw [if_neg here] at found
      have further := le_of_indexOf? found
      obtain ⟨whole, rest, rfl, size, again⟩ := ih found
      have fits : what.length ≤ (c :: whole).length := by
        rw [List.length_cons]
        omega
      refine ⟨c :: whole, rest, rfl, by rw [List.length_cons]; omega, fun more => ?_⟩
      have elsewhere : ¬ what.isPrefixOf (c :: (whole ++ more)) = true := by
        rw [← List.cons_append, isPrefixOf_append fits] at here ⊢
        exact here
      rw [List.cons_append, indexOf?, if_neg elsewhere, again]

/-! ## One construct -/

/-- What follows a construct has no part in it: the characters it is read from, of which there are
at least so many, are read alike in front of anything else. -/
def OfItself (size : Nat) (read : List Char → Except Error Step) (text : List Char) (s : Step) :
    Prop :=
  ∃ whole, text = whole ++ s.rest ∧ size ≤ whole.length ∧
    ∀ more, read (whole ++ more) = .ok { s with rest := more }

theorem OfItself.dispatched {size : Nat} {read chosen : List Char → Except Error Step}
    {text : List Char} {s : Step} (own : OfItself size chosen text s)
    (choice : ∀ other, other.take size = text.take size → read other = chosen other) :
    OfItself size read text s := by
  obtain ⟨whole, rfl, long, again⟩ := own
  refine ⟨whole, rfl, long, fun more => ?_⟩
  have front : (whole ++ more).take size = (whole ++ s.rest).take size := by
    rw [List.take_append_of_le_length long, List.take_append_of_le_length long]
  rw [choice _ front, again]

section

variable {opened : List (List Char)} {text : List Char} {s : Step}

theorem startTag_ofItself (read : startTag opened text = .ok s) :
    OfItself 1 (startTag opened) text s := by
  rw [startTag] at read
  split at read
  case h_1 => cases read
  case h_2 i found =>
    obtain ⟨whole, rest, rfl, size, cut⟩ := (tagEnd?_upto found).cut (Nat.le_succ i)
    simp only [cut] at read
    split at read
    case isTrue slash =>
      cases read
      refine ⟨whole, rfl, by omega, fun more => ?_⟩
      simp only [startTag, cut, if_pos slash]
    case isFalse slash =>
      cases read
      refine ⟨whole, rfl, by omega, fun more => ?_⟩
      simp only [startTag, cut, if_neg slash]

theorem endTag_ofItself (read : endTag opened text = .ok s) :
    OfItself 1 (endTag opened) text s := by
  rw [endTag] at read
  split at read
  case h_1 => cases read
  case h_2 i found =>
    obtain ⟨whole, rest, rfl, size, cut⟩ := (tagEnd?_upto found).cut (Nat.le_succ i)
    simp only [cut] at read
    split at read
    case h_1 => cases read
    case h_2 expected outer =>
      split at read
      case isFalse => cases read
      case isTrue same =>
        cases read
        refine ⟨whole, rfl, by omega, fun more => ?_⟩
        simp only [endTag, cut, if_pos same]

theorem instruction_ofItself (read : instruction opened text = .ok s) :
    OfItself 1 (instruction opened) text s := by
  rw [instruction] at read
  split at read
  case h_1 => cases read
  case h_2 => cases read
  case h_3 i inside found =>
    cases read
    obtain ⟨whole, rest, rfl, size, cut⟩ :=
      (indexOf?_upto (by decide) found).cut (Nat.le_add_right i _)
    change whole.length = i + 2 at size
    have after (more : List Char) : (whole ++ more).drop (i + 2) = more := (cut more).2.2
    refine ⟨whole, by rw [after], by omega, fun more => ?_⟩
    rw [instruction, (cut more).1]
    split
    case h_1 h => exact (inside (Option.some.inj h)).elim
    case h_2 h => cases h
    case h_3 h => cases h; rw [after]

theorem cdata_ofItself (read : cdata opened text = .ok s) : OfItself 2 (cdata opened) text s := by
  rw [cdata] at read
  split at read
  case h_1 => cases read
  case h_2 i found =>
    obtain ⟨whole, rest, rfl, size, cut⟩ :=
      (indexOf?_upto (by decide) found).cut (Nat.le_add_right i _)
    change whole.length = i + 3 at size
    have after (more : List Char) : (whole ++ more).drop (i + 3) = more := (cut more).2.2
    have front (more : List Char) : (whole ++ more).take (i + 2) = whole.take (i + 2) :=
      List.take_append_of_le_length (by omega)
    simp only [cut, front, after] at read
    split at read
    case isFalse => cases read
    case isTrue opens =>
      cases read
      refine ⟨whole, rfl, by omega, fun more => ?_⟩
      simp only [cdata, cut, front, after, if_pos opens]

theorem comment_ofItself (read : comment opened text = .ok s) :
    OfItself 2 (comment opened) text s := by
  rw [comment] at read
  split at read
  case h_1 => cases read
  case h_2 i found =>
    split at read
    case isFalse => cases read
    case isTrue opens =>
      cases read
      obtain ⟨inside, rfl⟩ := List.isPrefixOf_iff_prefix.mp opens
      change indexOf? _ 3 inside = some i at found
      obtain ⟨whole, rest, rfl, size, again⟩ := indexOf?_upto (by decide) found
      change 3 + whole.length = i + 3 at size
      have after (more : List Char) : ("!--".toList ++ (whole ++ more)).drop (i + 3) = more := by
        rw [← List.append_assoc]
        exact List.drop_left' (by rw [List.length_append, ← size]; rfl)
      refine ⟨"!--".toList ++ whole, by rw [after, List.append_assoc], ?_, fun more => ?_⟩
      · rw [List.length_append]
        exact Nat.le_add_right_of_le (by decide)
      · have front : ("!--".toList ++ (whole ++ more)).drop 3 = whole ++ more := rfl
        have opens : "!--".toList.isPrefixOf ("!--".toList ++ (whole ++ more)) = true := rfl
        simp only [List.append_assoc, comment, front, again, if_pos opens, after]

theorem doctype_ofItself (read : doctype opened text = .ok s) :
    OfItself 2 (doctype opened) text s := by
  rw [doctype] at read
  split at read
  case h_1 => cases read
  case h_2 i found =>
    obtain ⟨whole, rest, rfl, size, cut⟩ := (doctypeEnd?_upto found).cut (Nat.le_succ i)
    simp only [cut] at read
    split at read
    case isFalse => cases read
    case isTrue opens =>
      split at read
      case isTrue => cases read
      case isFalse named =>
        cases read
        have long := congrArg List.length opens
        simp only [List.length_map, List.length_take] at long
        change min 8 (min i whole.length) = 8 at long
        refine ⟨whole, rfl, by omega, fun more => ?_⟩
        simp only [doctype, cut, if_pos opens, if_neg named]

theorem declaration_ofItself (read : declaration opened text = .ok s) :
    OfItself 2 (declaration opened) text s := by
  rw [declaration] at read
  split at read
  case h_1 => cases read
  case h_2 c kind =>
    have kind {other : List Char} (front : other.take 2 = text.take 2) : other[1]? = some c := by
      rw [← kind, ← List.getElem?_take_of_lt (by decide : 1 < 2), front,
        List.getElem?_take_of_lt (by decide)]
    split at read
    case isTrue bracket =>
      refine (cdata_ofItself read).dispatched fun other front => ?_
      simp only [declaration, kind front, if_pos bracket]
    case isFalse bracket =>
      split at read
      case isTrue hyphen =>
        refine (comment_ofItself read).dispatched fun other front => ?_
        simp only [declaration, kind front, if_neg bracket, if_pos hyphen]
      case isFalse hyphen =>
        split at read
        case isTrue letter =>
          refine (doctype_ofItself read).dispatched fun other front => ?_
          simp only [declaration, kind front, if_neg bracket, if_neg hyphen, if_pos letter]
        case isFalse => cases read

theorem markup_ofItself (read : markup opened text = .ok s) :
    OfItself 1 (markup opened) text s := by
  have first {c : Char} {more other : List Char} (front : other.take 1 = (c :: more).take 1) :
      ∃ others, other = c :: others := by
    cases other with
    | nil => cases front
    | cons d others => cases front; exact ⟨others, rfl⟩
  unfold markup at read
  split at read
  case h_1 => cases read
  case h_2 =>
    obtain ⟨whole, cut, long, again⟩ := declaration_ofItself read
    have own : OfItself 1 (declaration opened) _ s := ⟨whole, cut, by omega, again⟩
    refine own.dispatched fun other front => ?_
    obtain ⟨others, rfl⟩ := first front
    rfl
  case h_3 =>
    refine (endTag_ofItself read).dispatched fun other front => ?_
    obtain ⟨others, rfl⟩ := first front
    rfl
  case h_4 =>
    refine (instruction_ofItself read).dispatched fun other front => ?_
    obtain ⟨others, rfl⟩ := first front
    rfl
  case h_5 some noBang noSlash noMark =>
    refine (startTag_ofItself read).dispatched fun other front => ?_
    obtain ⟨c, more, rfl⟩ := List.exists_cons_of_ne_nil some
    obtain ⟨others, rfl⟩ := first front
    unfold markup
    split
    case h_1 h => cases h
    case h_2 h => cases h; exact absurd rfl (noBang more)
    case h_3 h => cases h; exact absurd rfl (noSlash more)
    case h_4 h => cases h; exact absurd rfl (noMark more)
    case h_5 => rfl

end

/-! ## The elements around a construct -/

/-- The names of the elements that are open after an event. -/
def Event.enter (event : Event) (opened : List (List Char)) : Except Error (List (List Char)) :=
  match event with
  | .start tag => .ok (tag.name :: opened)
  | .close name =>
    match opened with
    | [] => .error (.unmatchedEnd (String.ofList name))
    | expected :: outer =>
      if name = expected then .ok outer
      else .error (.mismatchedEnd (String.ofList expected) (String.ofList name))
  | _ => .ok opened

theorem Event.enter_close {name : List Char} {names inner : List (List Char)}
    (enters : (Event.close name).enter names = .ok inner) : names = name :: inner := by
  cases names with
  | nil => cases enters
  | cons expected outer =>
    simp only [enter] at enters
    split at enters
    case isTrue same => cases enters; rw [same]
    case isFalse => cases enters

theorem Event.enter_append (event : Event) (name : List Char) (inner outer : List (List Char)) :
    event.enter (name :: inner ++ outer) = (event.enter (name :: inner)).map (· ++ outer) := by
  cases event with
  | close found =>
    by_cases same : found = name <;> simp [enter, same, Except.map]
  | _ => rfl

/-- The elements around a construct decide no more than whether it may stand there. -/
inductive Anywhere (read : List (List Char) → Except Error Step) : Prop where
  | mistake (e : Error) (fails : ∀ opened, read opened = .error e)
  | construct (event : Event) (rest : List Char) (reads : ∀ opened,
      read opened = (event.enter opened).map fun inner => ⟨event, rest, inner⟩)

section

variable (text : List Char)

theorem startTag_anywhere : Anywhere (startTag · text) := by
  cases found : tagEnd? none 0 text with
  | none => exact .mistake .unclosedTag fun opened => by simp only [startTag, found]
  | some i =>
    by_cases slash : (text.take i).getLast? = some '/'
    · refine .construct (.empty ⟨(text.take i).dropLast⟩) (text.drop (i + 1)) fun opened => ?_
      simp only [startTag, found, if_pos slash]
      rfl
    · refine .construct (.start ⟨text.take i⟩) (text.drop (i + 1)) fun opened => ?_
      simp only [startTag, found, if_neg slash]
      rfl

theorem endTag_anywhere : Anywhere (endTag · text) := by
  cases found : tagEnd? none 0 text with
  | none => exact .mistake .unclosedTag fun opened => by simp only [endTag, found]
  | some i =>
    simp only [endTag, found]
    generalize trimmedName ((text.take i).drop 1) = name
    refine .construct (.close name) (text.drop (i + 1)) fun opened => ?_
    cases opened with
    | nil => rfl
    | cons expected outer =>
      by_cases same : name = expected <;> simp [Event.enter, same, Except.map]

theorem instruction_anywhere : Anywhere (instruction · text) := by
  cases found : indexOf? "?>".toList 0 text with
  | none => exact .mistake .unclosedInstruction fun opened => by simp only [instruction, found]
  | some i =>
    cases i with
    | zero => exact .mistake .unclosedInstruction fun opened => by simp only [instruction, found]
    | succ i =>
      refine .construct .aside (text.drop (i + 1 + 2)) fun opened => ?_
      simp only [instruction, found]
      rfl

theorem cdata_anywhere : Anywhere (cdata · text) := by
  cases found : indexOf? "]]>".toList 0 text with
  | none => exact .mistake .unclosedCdata fun opened => by simp only [cdata, found]
  | some i =>
    by_cases opens : "![CDATA[".toList.isPrefixOf (text.take (i + 2)) = true
    · refine .construct (.cdata ((text.take i).drop 8)) (text.drop (i + 3)) fun opened => ?_
      simp only [cdata, found, if_pos opens]
      rfl
    · exact .mistake .unclosedCdata fun opened => by simp only [cdata, found, if_neg opens]

theorem comment_anywhere : Anywhere (comment · text) := by
  cases found : indexOf? "-->".toList 3 (text.drop 3) with
  | none => exact .mistake .unclosedComment fun opened => by simp only [comment, found]
  | some i =>
    by_cases opens : "!--".toList.isPrefixOf text = true
    · refine .construct .aside (text.drop (i + 3)) fun opened => ?_
      simp only [comment, found, if_pos opens]
      rfl
    · exact .mistake .unclosedComment fun opened => by simp only [comment, found, if_neg opens]

theorem doctype_anywhere : Anywhere (doctype · text) := by
  cases found : doctypeEnd? 0 0 text with
  | none => exact .mistake .unclosedDoctype fun opened => by simp only [doctype, found]
  | some i =>
    by_cases opens : ((text.take i).take 8).map Char.toUpper = "!DOCTYPE".toList
    · by_cases unnamed : ((text.take i).drop 8).all isBlank = true
      · refine .mistake .unnamedDoctype fun opened => ?_
        simp only [doctype, found, if_pos opens, if_pos unnamed]
      · refine .construct .aside (text.drop (i + 1)) fun opened => ?_
        simp only [doctype, found, if_pos opens, if_neg unnamed]
        rfl
    · exact .mistake .unclosedDoctype fun opened => by simp only [doctype, found, if_neg opens]

theorem declaration_anywhere : Anywhere (declaration · text) := by
  cases kind : text[1]? with
  | none => exact .mistake .unknownDeclaration fun opened => by simp only [declaration, kind]
  | some c =>
    simp only [declaration, kind]
    split
    case isTrue => exact cdata_anywhere text
    split
    case isTrue => exact comment_anywhere text
    split
    case isTrue => exact doctype_anywhere text
    case isFalse => exact .mistake .unknownDeclaration fun _ => rfl

theorem markup_anywhere : Anywhere (markup · text) := by
  unfold markup
  split
  case h_1 => exact .mistake .unclosedTag fun _ => rfl
  case h_2 => exact declaration_anywhere _
  case h_3 => exact endTag_anywhere _
  case h_4 => exact instruction_anywhere _
  case h_5 => exact startTag_anywhere text

theorem next_anywhere : Anywhere (next · text) := by
  unfold next
  split
  case h_1 inside => exact markup_anywhere inside
  case h_2 =>
    exact .construct (.text (text.takeWhile (· != '<'))) (text.dropWhile (· != '<')) fun _ => rfl

end

theorem next_enters {opened : List (List Char)} {text : List Char} {s : Step}
    (read : next opened text = .ok s) : s.event.enter opened = .ok s.opened := by
  cases next_anywhere text with
  | mistake e fails =>
    rw [fails] at read
    cases read
  | construct event rest reads =>
    rw [reads] at read
    cases entered : event.enter opened with
    | error e => rw [entered] at read; cases read
    | ok inner => rw [entered] at read; cases read; exact entered

theorem next_beneath (name : List Char) (inner outer : List (List Char)) (text : List Char) :
    next (name :: inner ++ outer) text =
      (next (name :: inner) text).map fun s => { s with opened := s.opened ++ outer } := by
  cases next_anywhere text with
  | mistake e fails =>
    simp only [fails]
    rfl
  | construct event rest reads =>
    simp only [reads, Event.enter_append]
    cases event.enter (name :: inner) <;> rfl

/-! ## Constructs in a row -/

/-- What is read as one construct stays one in front of `more`: only a text could run on. -/
def Parted (whole more : List Char) : Prop := whole.head? = some '<' ∨ EndsText more

theorem endsText_dropWhile (text : List Char) : EndsText (text.dropWhile (· != '<')) := by
  induction text with
  | nil => exact .inl rfl
  | cons c text ih =>
    by_cases bracket : c = '<'
    · exact .inr ⟨text, by simp [bracket]⟩
    · rwa [List.dropWhile_cons_of_pos (by simpa using bracket)]

theorem next_ofItself {opened : List (List Char)} {text : List Char} {s : Step}
    (begun : text ≠ []) (read : next opened text = .ok s) :
    ∃ whole, text = whole ++ s.rest ∧ whole ≠ [] ∧
      (whole.head? = some '<' ∨ (∃ raw, s.event = .text raw) ∧ EndsText s.rest) ∧
      ∀ more, Parted whole more → next opened (whole ++ more) = .ok { s with rest := more } := by
  unfold next at read
  split at read
  case h_1 inside =>
    obtain ⟨whole, rfl, -, again⟩ := markup_ofItself read
    exact ⟨'<' :: whole, rfl, List.cons_ne_nil _ _, .inl rfl, fun more _ => again more⟩
  case h_2 plain =>
    cases read
    obtain ⟨c, more, rfl⟩ := List.exists_cons_of_ne_nil begun
    have other : c ≠ '<' := by
      rintro rfl
      exact plain more rfl
    have first : (c :: more).takeWhile (· != '<') = c :: more.takeWhile (· != '<') :=
      List.takeWhile_cons_of_pos (by simpa using other)
    have nonempty : (c :: more).takeWhile (· != '<') ≠ [] := by simp [first]
    refine ⟨_, List.takeWhile_append_dropWhile.symm, nonempty,
      .inr ⟨⟨_, rfl⟩, endsText_dropWhile _⟩, fun rest parted => ?_⟩
    have ends : EndsText rest := parted.resolve_left (by simpa [first] using other)
    exact next_text opened nonempty (fun c => List.mem_takeWhile_imp) ends

theorem next_apart {opened : List (List Char)} {text : List Char} {s : Step}
    (begun : text ≠ []) (read : next opened text = .ok s) :
    ∃ whole, text = whole ++ s.rest ∧ whole ≠ [] ∧
      (whole.head? = some '<' ∨ (∃ raw, s.event = .text raw) ∧ EndsText s.rest) ∧
      ∀ more, Parted whole more → ∀ around, next around (whole ++ more) =
        (s.event.enter around).map fun inner => ⟨s.event, more, inner⟩ := by
  obtain ⟨whole, cut, nonempty, front, again⟩ := next_ofItself begun read
  refine ⟨whole, cut, nonempty, front, fun more parted around => ?_⟩
  have here := again more parted
  cases next_anywhere (whole ++ more) with
  | mistake e fails =>
    rw [fails] at here
    cases here
  | construct event rest reads =>
    rw [reads] at here
    cases entered : event.enter opened with
    | error e => rw [entered] at here; cases here
    | ok inner => rw [entered] at here; cases here; exact reads around

/-- The constructs that a text begins with, and what is left of it. Each is read for itself: its end
tags need not match the start tags before them. -/
inductive Constructs : List Char → List Event → List Char → Prop where
  | nil (rest : List Char) : Constructs rest [] rest
  | cons {opened : List (List Char)} {text rest : List Char} {s : Step} {events : List Event}
      (begun : text ≠ []) (read : next opened text = .ok s)
      (others : Constructs s.rest events rest) :
      Constructs text (s.event :: events) rest

theorem eventsFrom_of_mistake {opened : List (List Char)} {text : List Char} {e : Error}
    (begun : text ≠ []) (read : next opened text = .error e) :
    eventsFrom opened text = ⟨[], some e⟩ := by
  obtain ⟨c, more, rfl⟩ := List.exists_cons_of_ne_nil begun
  rw [eventsFrom]
  split
  case h_1 h => rw [read] at h; cases h; rfl
  case h_2 h => rw [read] at h; cases h

/-- The constructs `events` are told from what stands behind them. -/
def EndBefore (events : List Event) (more : List Char) : Prop :=
  EndsText more ∨ ∀ raw, events.getLast? ≠ some (.text raw)

namespace EndBefore

variable {event : Event} {events : List Event} {more : List Char}

theorem tail (told : EndBefore (event :: events) more) : EndBefore events more := by
  refine told.imp_right fun other raw last => other raw ?_
  rw [List.getLast?_cons, last]
  rfl

theorem parted (told : EndBefore (event :: events) more) {first whole rest : List Char}
    (front : first.head? = some '<' ∨ (∃ raw, event = .text raw) ∧ EndsText (whole ++ rest))
    (blank : whole = [] ↔ events = []) : Parted first (whole ++ more) := by
  rcases front with bracket | ⟨⟨raw, rfl⟩, ends⟩
  · exact .inl bracket
  right
  cases whole with
  | nil =>
    rw [blank.mp rfl] at told
    exact told.resolve_right fun other => other raw rfl
  | cons c whole =>
    rcases ends with none | ⟨after, bracket⟩
    · cases none
    · cases bracket
      exact .inr ⟨_, rfl⟩

end EndBefore

/-- However a text goes on behind its constructs, the reader either takes them all in or stops at
the same end tag among them. -/
theorem Constructs.read_on {text rest : List Char} {events : List Event}
    (constructs : Constructs text events rest) :
    ∃ whole, text = whole ++ rest ∧ (whole = [] ↔ events = []) ∧ ∀ opened,
      (∃ inner, ∀ more, EndBefore events more →
        eventsFrom opened (whole ++ more) = (eventsFrom inner more).behind events) ∨
      ∃ stopped, stopped.failure ≠ none ∧
        ∀ more, EndBefore events more → eventsFrom opened (whole ++ more) = stopped := by
  induction constructs with
  | nil rest => exact ⟨[], rfl, by simp, fun opened => .inl ⟨opened, fun more _ => rfl⟩⟩
  | @cons opened text rest s events begun read others ih =>
    obtain ⟨first, rfl, nonempty, front, reads⟩ := next_apart begun read
    obtain ⟨whole, cut, blank, fares⟩ := ih
    rw [cut] at front
    have unread (more : List Char) : first ++ whole ++ more ≠ [] := by simp [nonempty]
    refine ⟨first ++ whole, by rw [cut, List.append_assoc], by simp [nonempty], fun around => ?_⟩
    cases entered : s.event.enter around with
    | error e =>
      right
      refine ⟨⟨[], some e⟩, Option.some_ne_none e, fun more told => ?_⟩
      have step := reads (whole ++ more) (told.parted front blank) around
      rw [entered, ← List.append_assoc] at step
      exact eventsFrom_of_mistake (unread more) step
    | ok inner =>
      have turn (more : List Char) (told : EndBefore (s.event :: events) more) :
          eventsFrom around (first ++ whole ++ more) =
            (eventsFrom inner (whole ++ more)).behind [s.event] := by
        have step := reads (whole ++ more) (told.parted front blank) around
        rw [entered, ← List.append_assoc] at step
        exact eventsFrom_of_next (unread more) step
      rcases fares inner with ⟨last, goes⟩ | ⟨stopped, failed, stops⟩
      · refine .inl ⟨last, fun more told => ?_⟩
        rw [turn more told, goes more told.tail, Events.behind_behind]
        rfl
      · refine .inr ⟨stopped.behind [s.event], failed, fun more told => ?_⟩
        rw [turn more told, stops more told.tail]

theorem constructs_of_read {opened : List (List Char)} {text : List Char}
    (read : (eventsFrom opened text).failure = none) :
    Constructs text (eventsFrom opened text).read [] := by
  induction opened, text using eventsFrom.induct with
  | case1 opened => rw [eventsFrom]; exact .nil []
  | case2 opened c more e mistake =>
    rw [eventsFrom_of_mistake (List.cons_ne_nil c more) mistake] at read
    cases read
  | case3 opened c more s step ih =>
    have begun := List.cons_ne_nil c more
    rw [eventsFrom_of_next begun step] at read ⊢
    exact .cons begun step (ih read)

/-! ## A byte order mark -/

theorem withoutMark_length (text : List Char) : (withoutMark text).length ≤ text.length := by
  unfold withoutMark
  split
  · exact Nat.le_succ _
  · exact le_refl _

theorem withoutMark_append {text more : List Char} (told : text ≠ [] ∨ EndsText more) :
    withoutMark (text ++ more) = withoutMark text ++ more := by
  cases text with
  | nil =>
    rcases told.resolve_left (fun some => some rfl) with rfl | ⟨others, rfl⟩
    · rfl
    · rfl
  | cons c text =>
    by_cases mark : c = '\uFEFF'
    · subst mark
      rfl
    · have unmarked (others : List Char) : withoutMark (c :: others) = c :: others := by
        unfold withoutMark
        split
        case h_1 h => cases h; exact absurd rfl mark
        case h_2 => rfl
      rw [List.cons_append, unmarked, unmarked, List.cons_append]

end WebSub.Markup
