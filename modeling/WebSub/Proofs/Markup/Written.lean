import Mathlib.Data.List.Infix
import WebSub.Markup.Reader
import WebSub.Proofs.Markup.Tags

/-!
# Written documents

A written document is read, without a mistake, as the events of its tree.
-/

namespace WebSub.Markup

/-! ## Where a construct ends -/

/-- What ends a construct has its last character nowhere else, so that it is not met early: it
could only begin within the text and finish after it. -/
def Closes (what : List Char) : Prop := ∃ init z, what = init ++ [z] ∧ z ∉ init

theorem Closes.not_prefix {what data : List Char} (closes : Closes what) (some : data ≠ [])
    (unended : ¬ what <:+: data) (rest : List Char) : ¬ what <+: data ++ (what ++ rest) := by
  intro found
  rcases List.prefix_or_prefix_of_prefix found (List.prefix_append data _) with within | beyond
  · exact unended within.isInfix
  obtain ⟨tail, cut⟩ := beyond
  rcases List.eq_nil_or_concat' tail with rfl | ⟨front, y, rfl⟩
  · rw [List.append_nil] at cut
    exact unended (cut ▸ List.infix_rfl)
  obtain ⟨init, z, rfl, last⟩ := closes
  have sizes := congrArg List.length cut
  have positive : 0 < data.length := List.length_pos_iff.mpr some
  simp only [List.length_append, List.length_cons, List.length_nil] at sizes
  rw [← cut, List.append_assoc, List.prefix_append_right_inj, ← List.append_assoc, cut,
    List.append_assoc] at found
  have short : front ++ [y] <+: init := by
    refine List.prefix_of_prefix_length_le found (List.prefix_append _ _) ?_
    simp only [List.length_append, List.length_cons, List.length_nil]
    omega
  obtain ⟨-, rfl⟩ : data ++ front = init ∧ y = z := by
    rw [← List.append_assoc] at cut
    simpa using List.append_inj' cut rfl
  exact last (short.subset (by simp))

theorem Closes.indexOf? {what data : List Char} (closes : Closes what)
    (unended : ¬ what <:+: data) (rest : List Char) :
    ∀ n, indexOf? what n (data ++ (what ++ rest)) = some (n + data.length) := by
  induction data with
  | nil =>
    intro n
    obtain ⟨c, more, cut⟩ : ∃ c more, what ++ rest = c :: more := by
      obtain ⟨init, z, rfl, -⟩ := closes
      cases init <;> simp
    have found : what.isPrefixOf (c :: more) = true := by
      rw [List.isPrefixOf_iff_prefix, ← cut]
      exact List.prefix_append _ _
    rw [List.nil_append, cut, Markup.indexOf?, if_pos found]
    rfl
  | cons c data ih =>
    intro n
    have early := closes.not_prefix (List.cons_ne_nil c data) unended rest
    rw [← List.isPrefixOf_iff_prefix] at early
    have inner : ¬ what <:+: data := fun h => unended (h.trans (List.suffix_cons c data).isInfix)
    rw [List.cons_append] at early ⊢
    rw [Markup.indexOf?, if_neg early, ih inner, List.length_cons]
    congr 1
    omega

theorem tagEnd?_plain {body : List Char} (plain : ∀ c ∈ body, isMarkup c = false)
    (rest : List Char) :
    ∀ n, tagEnd? none n (body ++ rest) = tagEnd? none (n + body.length) rest := by
  induction body with
  | nil => intro n; rfl
  | cons c body ih =>
    intro n
    have h := plain c List.mem_cons_self
    simp only [isMarkup, Bool.or_eq_false_iff, beq_eq_false_iff_ne] at h
    have inner := ih (fun d hd => plain d (List.mem_cons_of_mem _ hd)) (n + 1)
    simp only [List.cons_append, tagEnd?, h, or_self, if_false, inner, List.length_cons]
    congr 1
    omega

theorem tagEnd?_quoted {q : Char} {body : List Char} (inside : q ∉ body) (rest : List Char) :
    ∀ n, tagEnd? (some q) n (body ++ q :: rest) = tagEnd? none (n + body.length + 1) rest := by
  induction body with
  | nil => intro n; simp [tagEnd?]
  | cons c body ih =>
    intro n
    rw [List.mem_cons, not_or] at inside
    simp only [List.cons_append, tagEnd?, if_neg (Ne.symm inside.1), ih inside.2, List.length_cons]
    congr 1
    omega

theorem Name.isMarkup_write (n : Name) : ∀ c ∈ n.write, isMarkup c = false := by
  intro c hc
  simp [isMarkup, isNameChar_spec (n.isNameChar_write c hc)]

theorem tagEnd?_attributes (attributes : List (Name × List Char)) (rest : List Char) :
    ∀ n, tagEnd? none n (Head.writeAttributes attributes ++ rest) =
      tagEnd? none (n + (Head.writeAttributes attributes).length) rest := by
  induction attributes with
  | nil => intro n; rfl
  | cons a others ih =>
    obtain ⟨name, value⟩ := a
    intro n
    have unquoted : '"' ∉ escape value := by
      intro h
      exact absurd (isMarkup_escape _ h) (by decide)
    have key : ∀ c ∈ ' ' :: (name.write ++ ['=']), isMarkup c = false := by
      intro c hc
      rcases List.mem_cons.mp hc with rfl | hc
      · rfl
      rcases List.mem_append.mp hc with hc | hc
      · exact name.isMarkup_write c hc
      · obtain rfl := List.mem_singleton.mp hc
        rfl
    have cut : Head.writeAttributes ((name, value) :: others) ++ rest =
        (' ' :: (name.write ++ ['='])) ++
          '"' :: (escape value ++ '"' :: (Head.writeAttributes others ++ rest)) := by
      simp [Head.writeAttributes]
    rw [cut, tagEnd?_plain key]
    simp only [tagEnd?, true_or, if_true]
    rw [if_neg (by decide), tagEnd?_quoted unquoted, ih]
    congr 1
    simp only [Head.writeAttributes, List.length_cons, List.length_append, List.length_nil]
    omega

/-! ## One construct -/

namespace Head

theorem tagEnd?_content (h : Head) (rest : List Char) :
    tagEnd? none 0 (h.content ++ '>' :: rest) = some h.content.length := by
  rw [content, List.append_assoc, tagEnd?_plain h.name.isMarkup_write, tagEnd?_attributes]
  simp only [tagEnd?, if_true, List.length_append]
  congr 1
  omega

theorem getLast?_attributes (attributes : List (Name × List Char)) :
    writeAttributes attributes = [] ∨ (writeAttributes attributes).getLast? = some '"' := by
  induction attributes with
  | nil => exact .inl rfl
  | cons a others ih =>
    obtain ⟨name, value⟩ := a
    right
    have cut : writeAttributes ((name, value) :: others) =
        (' ' :: (name.write ++ '=' :: '"' :: escape value)) ++ '"' :: writeAttributes others := by
      simp [writeAttributes]
    rw [cut, List.getLast?_append_cons]
    rcases ih with h | h
    · rw [h]
      rfl
    · rw [List.getLast?_cons, h]
      rfl

theorem unslashed (h : Head) : h.content.getLast? ≠ some '/' := by
  intro slash
  rcases getLast?_attributes h.attributes with none | quote
  · rw [content, none, List.append_nil] at slash
    have named := isNameChar_spec (h.name.isNameChar_write _ (List.mem_of_getLast? slash))
    simp at named
  · rw [content, List.getLast?_append, quote] at slash
    cases slash

end Head

theorem trimmedName_unblank {name : List Char} (unblank : ∀ c ∈ name, isBlank c = false) :
    trimmedName name = name := by
  have kept : name.reverse.dropWhile isBlank = name.reverse := by
    rw [List.dropWhile_eq_self_iff]
    intro some
    rw [unblank _ (List.mem_reverse.mp (List.getElem_mem some))]
    exact Bool.false_ne_true
  unfold trimmedName
  rw [kept, List.reverse_reverse]
  split
  case h_1 => rfl
  case h_2 => rfl

theorem markup_endTag {name : List Char} (named : ∀ c ∈ name, isNameChar c = true)
    (outer : List (List Char)) (rest : List Char) :
    markup (name :: outer) ('/' :: (name ++ '>' :: rest)) = .ok ⟨.close name, rest, outer⟩ := by
  have plain : ∀ c ∈ '/' :: name, isMarkup c = false := by
    intro c hc
    rcases List.mem_cons.mp hc with rfl | hc
    · rfl
    · simp [isMarkup, isNameChar_spec (named c hc)]
  have ends : tagEnd? none 0 ('/' :: name ++ '>' :: rest) = some (name.length + 1) := by
    rw [tagEnd?_plain plain]
    simp [tagEnd?]
  have content : ('/' :: (name ++ '>' :: rest)).take (name.length + 1) = '/' :: name := by
    rw [List.take_succ_cons, List.take_left]
  have after : ('/' :: (name ++ '>' :: rest)).drop (name.length + 1 + 1) = rest := by
    rw [List.drop_succ_cons, ← List.drop_drop, List.drop_left]
    rfl
  have trimmed := trimmedName_unblank fun c hc => (isNameChar_spec (named c hc)).1
  rw [List.cons_append] at ends
  change endTag (name :: outer) ('/' :: (name ++ '>' :: rest)) = _
  simp only [endTag, ends, content, after, List.drop_succ_cons, List.drop_zero, trimmed, if_true]

namespace Tag

/-- A tag that is closed by the bracket behind it: a name, no quote left open, and no slash that
would make it an empty element. -/
structure Proper (t : Tag) : Prop where
  name_ne_nil : t.name ≠ []
  named : ∀ c ∈ t.name, isNameChar c = true
  closed : ∀ rest, tagEnd? none 0 (t.content ++ '>' :: rest) = some t.content.length
  unslashed : t.content.getLast? ≠ some '/'

variable {t : Tag}

theorem Proper.markup_eq (proper : t.Proper) (opened : List (List Char)) (rest : List Char) :
    markup opened (t.content ++ rest) = startTag opened (t.content ++ rest) := by
  obtain ⟨c, more, cut⟩ := List.exists_cons_of_ne_nil proper.name_ne_nil
  have plain := isNameChar_spec (proper.named c (by simp [cut]))
  obtain ⟨tail, begins⟩ : ∃ tail, t.content ++ rest = c :: tail := by
    rw [← List.takeWhile_append_dropWhile (p := (!isBlank ·)) (l := t.content)]
    change ∃ tail, t.name ++ _ ++ rest = c :: tail
    simp [cut]
  rw [begins]
  unfold markup
  split
  case h_1 h => cases h
  case h_2 h => cases h; simp at plain
  case h_3 h => cases h; simp at plain
  case h_4 h => cases h; simp at plain
  case h_5 => rfl

theorem Proper.markup_start (proper : t.Proper) (opened : List (List Char)) (rest : List Char) :
    markup opened (t.content ++ '>' :: rest) = .ok ⟨.start t, rest, t.name :: opened⟩ := by
  have content : (t.content ++ '>' :: rest).take t.content.length = t.content := List.take_left
  have after : (t.content ++ '>' :: rest).drop (t.content.length + 1) = rest := by
    rw [← List.drop_drop, List.drop_left]
    rfl
  simp only [proper.markup_eq, startTag, proper.closed, content, after, if_neg proper.unslashed]

end Tag

theorem Head.tag_proper (h : Head) : h.tag.Proper where
  name_ne_nil := by
    rw [h.tag_name]
    exact h.name.write_ne_nil
  named := by
    rw [h.tag_name]
    exact h.name.isNameChar_write
  closed := h.tagEnd?_content
  unslashed := h.unslashed

theorem markup_start (opened : List (List Char)) (head : Head) (rest : List Char) :
    markup opened (head.content ++ '>' :: rest) =
      .ok ⟨.start head.tag, rest, head.name.write :: opened⟩ := by
  have read : markup opened (head.content ++ '>' :: rest) = _ :=
    head.tag_proper.markup_start opened rest
  rw [read, head.tag_name]

theorem markup_end (outer : List (List Char)) (name : Name) (rest : List Char) :
    markup (name.write :: outer) ('/' :: (name.write ++ '>' :: rest)) =
      .ok ⟨.close name.write, rest, outer⟩ :=
  markup_endTag name.isNameChar_write outer rest

theorem markup_cdata (opened : List (List Char)) (data : Enclosed "" "]]>") (rest : List Char) :
    markup opened ("![CDATA[".toList ++ data.text ++ "]]>".toList ++ rest) =
      .ok ⟨.cdata data.text, rest, opened⟩ := by
  have closes : Closes "]]>".toList := ⟨[']', ']'], '>', rfl, by decide⟩
  have unended : ¬ "]]>".toList <:+: "![CDATA[".toList ++ data.text := by
    simpa [List.infix_cons_iff] using data.unended
  have ends := closes.indexOf? unended rest 0
  have size : 0 + ("![CDATA[".toList ++ data.text).length = data.text.length + 8 := by simp
  rw [← List.append_assoc, size] at ends
  have step : markup opened ("![CDATA[".toList ++ data.text ++ "]]>".toList ++ rest) =
      cdata opened ("![CDATA[".toList ++ data.text ++ "]]>".toList ++ rest) := by
    simp [markup, declaration]
  rw [step, cdata, ends]
  simp

theorem markup_comment (opened : List (List Char)) (data : Enclosed "" "-->") (rest : List Char) :
    markup opened ("!--".toList ++ data.text ++ "-->".toList ++ rest) =
      .ok ⟨.aside, rest, opened⟩ := by
  have closes : Closes "-->".toList := ⟨['-', '-'], '>', rfl, by decide⟩
  have unended : ¬ "-->".toList <:+: data.text := by simpa using data.unended
  have ends := closes.indexOf? unended rest 3
  have step : markup opened ("!--".toList ++ data.text ++ "-->".toList ++ rest) =
      comment opened ("!--".toList ++ (data.text ++ ("-->".toList ++ rest))) := by
    simp [markup, declaration]
  have inside : ("!--".toList ++ (data.text ++ ("-->".toList ++ rest))).drop 3 =
      data.text ++ ("-->".toList ++ rest) := rfl
  have after : ("!--".toList ++ (data.text ++ ("-->".toList ++ rest))).drop
      (3 + data.text.length + 3) = rest := by
    rw [Nat.add_assoc, ← List.drop_drop, inside, ← List.drop_drop, List.drop_left]
    rfl
  simp only [step, comment, inside, ends, after]
  simp

theorem markup_instruction (opened : List (List Char)) (data : Enclosed "?" "?>")
    (rest : List Char) :
    markup opened ("?".toList ++ data.text ++ "?>".toList ++ rest) =
      .ok ⟨.aside, rest, opened⟩ := by
  have closes : Closes "?>".toList := ⟨['?'], '>', rfl, by decide⟩
  have ends := closes.indexOf? data.unended rest 0
  have size : 0 + ("?".toList ++ data.text).length = data.text.length + 1 := by simp
  rw [← List.append_assoc, size] at ends
  have step : markup opened ("?".toList ++ data.text ++ "?>".toList ++ rest) =
      instruction opened ("?".toList ++ data.text ++ "?>".toList ++ rest) := by
    simp [markup]
  rw [step, instruction, ends]
  simp

/-! ## A whole document -/

/-- Events with some read before them. -/
def Events.behind (e : Events) (before : List Event) : Events := ⟨before ++ e.read, e.failure⟩

theorem Events.behind_behind (e : Events) (first second : List Event) :
    (e.behind second).behind first = e.behind (first ++ second) := by
  simp [behind]

theorem eventsFrom_of_next {opened : List (List Char)} {text : List Char} {s : Step}
    (some : text ≠ []) (read : next opened text = .ok s) :
    eventsFrom opened text = (eventsFrom s.opened s.rest).behind [s.event] := by
  cases text with
  | nil => exact absurd rfl some
  | cons c more =>
    rw [eventsFrom]
    split
    case h_1 h => rw [read] at h; cases h
    case h_2 h => rw [read] at h; cases h; rfl

/-- What ends a text: the end of the document or a bracket. -/
def EndsText (rest : List Char) : Prop := rest = [] ∨ ∃ more, rest = '<' :: more

theorem next_text (opened : List (List Char)) {body rest : List Char} (some : body ≠ [])
    (plain : ∀ c ∈ body, (c != '<') = true) (ends : EndsText rest) :
    next opened (body ++ rest) = .ok ⟨.text body, rest, opened⟩ := by
  have cut : (body ++ rest).takeWhile (· != '<') = body ∧
      (body ++ rest).dropWhile (· != '<') = rest := by
    rcases ends with rfl | ⟨more, rfl⟩
    · rw [List.append_nil]
      exact ⟨List.takeWhile_eq_self_iff.mpr plain, List.dropWhile_eq_nil_iff.mpr plain⟩
    · exact ⟨takeWhile_upto plain (by decide) more, dropWhile_upto plain (by decide) more⟩
  unfold next
  split
  case h_1 inside h =>
    have first : '<' ∈ body := by
      obtain ⟨c, more, rfl⟩ := List.exists_cons_of_ne_nil some
      cases h
      exact List.mem_cons_self
    exact absurd (plain _ first) (by decide)
  case h_2 => rw [cut.1, cut.2]

/-- The event for text that none has been read for yet. -/
def pending (chars : List Char) : List Event := if chars = [] then [] else [.text (escape chars)]

theorem eventsFrom_pending (opened : List (List Char)) (chars : List Char) {rest : List Char}
    (ends : EndsText rest) :
    eventsFrom opened (escape chars ++ rest) = (eventsFrom opened rest).behind (pending chars) := by
  by_cases none : chars = []
  · subst none
    rfl
  have plain : ∀ c ∈ escape chars, (c != '<') = true := by
    intro c hc
    have h := isMarkup_escape c hc
    simp only [isMarkup, Bool.or_eq_false_iff] at h
    simp [bne, h]
  have some : escape chars ++ rest ≠ [] := by
    simp [escape_eq_nil, none]
  have read := next_text opened (mt escape_eq_nil.mp none) plain ends
  rw [eventsFrom_of_next some read, pending, if_neg none]

theorem eventsFrom_construct {opened : List (List Char)} {text : List Char} {s : Step}
    (read : markup opened text = .ok s) (chars : List Char) :
    eventsFrom opened (escape chars ++ '<' :: text) =
      (eventsFrom s.opened s.rest).behind (pending chars ++ [s.event]) := by
  have ends : EndsText ('<' :: text) := .inr ⟨text, rfl⟩
  have turn : eventsFrom opened ('<' :: text) = (eventsFrom s.opened s.rest).behind [s.event] :=
    eventsFrom_of_next (List.cons_ne_nil _ _) read
  rw [eventsFrom_pending opened chars ends, turn, Events.behind_behind]

theorem eventsFrom_enclosed {opened : List (List Char)} {lead ending opening : String}
    {data : Enclosed lead ending} {rest : List Char} {event : Event}
    (read : markup opened (opening.toList ++ data.text ++ ending.toList ++ rest) =
      .ok ⟨event, rest, opened⟩) (chars : List Char) :
    eventsFrom opened (escape chars ++ (data.write opening ++ rest)) =
      (eventsFrom opened rest).behind (pending chars ++ [event]) := by
  have front : data.write opening ++ rest =
      '<' :: (opening.toList ++ data.text ++ ending.toList ++ rest) := rfl
  rw [front, eventsFrom_construct read]

namespace Content

/-- The events that a content is read as, behind text that none has been read for yet: texts next
to each other are one. -/
def events (before : List Char) : Content → List Event
  | nil => pending before
  | text chars next => next.events (before ++ chars)
  | cdata data next => pending before ++ .cdata data.text :: next.events []
  | comment _ next => pending before ++ .aside :: next.events []
  | instruction _ next => pending before ++ .aside :: next.events []
  | element head inside next =>
    pending before ++ .start head.tag ::
      (inside.events [] ++ .close head.name.write :: next.events [])

theorem eventsFrom_write (c : Content) : ∀ opened before rest,
    EndsText rest →
      eventsFrom opened (escape before ++ (c.write ++ rest)) =
        (eventsFrom opened rest).behind (c.events before) := by
  induction c with
  | nil =>
    intro opened before rest ends
    exact eventsFrom_pending opened before ends
  | text chars next ih =>
    intro opened before rest ends
    have joined := ih opened (before ++ chars) rest ends
    rw [escape_append, List.append_assoc] at joined
    rw [write, List.append_assoc, joined, events]
  | cdata data next ih =>
    intro opened before rest ends
    have more : eventsFrom opened (next.write ++ rest) = _ := ih opened [] rest ends
    rw [write, List.append_assoc, eventsFrom_enclosed (markup_cdata opened data _), more,
      Events.behind_behind, events, List.append_assoc, List.singleton_append]
  | comment data next ih =>
    intro opened before rest ends
    have more : eventsFrom opened (next.write ++ rest) = _ := ih opened [] rest ends
    rw [write, List.append_assoc, eventsFrom_enclosed (markup_comment opened data _), more,
      Events.behind_behind, events, List.append_assoc, List.singleton_append]
  | instruction data next ih =>
    intro opened before rest ends
    have more : eventsFrom opened (next.write ++ rest) = _ := ih opened [] rest ends
    rw [write, List.append_assoc, eventsFrom_enclosed (markup_instruction opened data _), more,
      Events.behind_behind, events, List.append_assoc, List.singleton_append]
  | element head inside next insideRead nextRead =>
    intro opened before rest ends
    let after := '<' :: '/' :: (head.name.write ++ '>' :: (next.write ++ rest))
    have front : (element head inside next).write ++ rest =
        '<' :: (head.content ++ '>' :: (inside.write ++ after)) := by
      simp [write, Head.writeStart, Head.writeEnd, after]
    have start := eventsFrom_construct (markup_start opened head (inside.write ++ after)) before
    have within : eventsFrom (head.name.write :: opened) (inside.write ++ after) = _ :=
      insideRead _ [] after (.inr ⟨_, rfl⟩)
    have close : eventsFrom (head.name.write :: opened) after = _ :=
      eventsFrom_construct (markup_end opened head.name (next.write ++ rest)) []
    have more : eventsFrom opened (next.write ++ rest) = _ := nextRead opened [] rest ends
    rw [front, start, within, close, more]
    simp only [Events.behind_behind, events, pending, if_true, List.append_assoc, List.nil_append,
      List.cons_append]

end Content

/-- A written element is read whole: a start tag begins it, so that no byte order mark does. -/
theorem events_write (root : Element) :
    Markup.events root.write =
      ⟨(Content.element root.head root.inside .nil).events [], none⟩ := by
  have unmarked : withoutMark root.write = root.write := by
    unfold withoutMark
    split
    case h_1 h => cases h
    case h_2 => rfl
  have whole : root.write = (Content.element root.head root.inside .nil).write ++ [] := by
    simp [Element.write, Content.write]
  have done : eventsFrom [] [] = ⟨[], none⟩ := by
    rw [eventsFrom]
  have read : eventsFrom [] ((Content.element root.head root.inside .nil).write ++ []) = _ :=
    (Content.element root.head root.inside .nil).eventsFrom_write [] [] [] (.inl rfl)
  rw [Markup.events, unmarked, whole, read, done, Events.behind, List.append_nil]

/-- An element up to its end tag. -/
def Element.writeOpen (e : Element) : List Char := e.head.writeStart ++ e.inside.write

theorem events_writeOpen (e : Element) :
    Markup.events e.writeOpen = ⟨.start e.head.tag :: e.inside.events [], none⟩ := by
  have start : eventsFrom [] ('<' :: (e.head.content ++ '>' :: (e.inside.write ++ []))) = _ :=
    eventsFrom_construct (markup_start [] e.head (e.inside.write ++ [])) []
  have within : eventsFrom [e.head.name.write] (e.inside.write ++ []) = _ :=
    e.inside.eventsFrom_write [e.head.name.write] [] [] (.inl rfl)
  have written : '<' :: (e.head.content ++ '>' :: (e.inside.write ++ [])) = e.writeOpen := by
    simp [Element.writeOpen, Head.writeStart]
  have done : eventsFrom [e.head.name.write] [] = ⟨[], none⟩ := by
    rw [eventsFrom]
  rw [within, done, written] at start
  have unmarked : withoutMark e.writeOpen = e.writeOpen := by
    rw [← written]
    rfl
  rw [Markup.events, unmarked, start]
  simp [Events.behind, pending]

end WebSub.Markup
