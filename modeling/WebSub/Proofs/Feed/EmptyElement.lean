import WebSub.Proofs.Feed.FirstEntry

/-!
# Empty elements

An empty element may be written as one tag or as a start tag and its end tag. The decoder takes
both for the same, but for the first entry itself: one written as a single tag is passed over.
-/

namespace WebSub.Markup

/-! ## The two spellings -/

namespace Tag

/-- An empty element as one tag that a slash ends. -/
def writeEmpty (t : Tag) : List Char := '<' :: (t.content ++ ['/', '>'])

/-- An empty element as a start tag and its end tag. -/
def writePair (t : Tag) : List Char :=
  '<' :: (t.content ++ '>' :: '<' :: '/' :: (t.name ++ ['>']))

end Tag

theorem tagEnd?_slashed {body : List Char} : ∀ {quote : Option Char} {n i : Nat},
    tagEnd? quote n (body ++ ['>']) = some i → i = n + body.length → ∀ rest,
      tagEnd? quote n (body ++ '/' :: '>' :: rest) = some (i + 1) := by
  induction body with
  | nil =>
    intro quote n i closed size rest
    cases quote with
    | some q => cases closed
    | none =>
      subst size
      rfl
  | cons c body ih =>
    intro quote n i closed size rest
    rw [List.length_cons] at size
    have size : i = n + 1 + body.length := by omega
    cases quote with
    | some q => exact ih closed size rest
    | none =>
      simp only [List.cons_append, tagEnd?] at closed ⊢
      by_cases bracket : c = '>'
      · rw [if_pos bracket, Option.some_inj] at closed
        omega
      · rw [if_neg bracket] at closed ⊢
        exact ih closed size rest

namespace Tag

variable {t : Tag}

theorem Proper.markup_empty (proper : t.Proper) (opened : List (List Char)) (rest : List Char) :
    markup opened (t.content ++ '/' :: '>' :: rest) = .ok ⟨.empty t, rest, opened⟩ := by
  have ends := tagEnd?_slashed (proper.closed []) (Nat.zero_add _).symm rest
  have content : (t.content ++ '/' :: '>' :: rest).take (t.content.length + 1) =
      t.content ++ ['/'] := by
    rw [List.take_length_add_append]
    rfl
  have after : (t.content ++ '/' :: '>' :: rest).drop (t.content.length + 1 + 1) = rest := by
    rw [Nat.add_assoc, ← List.drop_drop, List.drop_left]
    rfl
  have slash : (t.content ++ ['/']).getLast? = some '/' := List.getLast?_concat
  simp only [proper.markup_eq, startTag, ends, content, after, slash, if_true,
    List.dropLast_concat]

theorem Proper.read_empty (proper : t.Proper) (opened : List (List Char)) (rest : List Char) :
    eventsFrom opened (t.writeEmpty ++ rest) = (eventsFrom opened rest).behind [.empty t] := by
  have written : t.writeEmpty ++ rest = '<' :: (t.content ++ '/' :: '>' :: rest) := by
    simp [writeEmpty]
  have read : next opened ('<' :: (t.content ++ '/' :: '>' :: rest)) = _ :=
    proper.markup_empty opened rest
  rw [written, eventsFrom_of_next (List.cons_ne_nil _ _) read]

theorem Proper.read_pair (proper : t.Proper) (opened : List (List Char)) (rest : List Char) :
    eventsFrom opened (t.writePair ++ rest) =
      (eventsFrom opened rest).behind [.start t, .close t.name] := by
  have written : t.writePair ++ rest =
      '<' :: (t.content ++ '>' :: '<' :: '/' :: (t.name ++ '>' :: rest)) := by
    simp [writePair]
  have start : next opened ('<' :: (t.content ++ '>' :: '<' :: '/' :: (t.name ++ '>' :: rest))) =
      _ := proper.markup_start opened _
  have close : next (t.name :: opened) ('<' :: '/' :: (t.name ++ '>' :: rest)) = _ :=
    markup_endTag proper.named opened rest
  rw [written, eventsFrom_of_next (List.cons_ne_nil _ _) start,
    eventsFrom_of_next (List.cons_ne_nil _ _) close, Events.behind_behind]
  rfl

end Tag

end WebSub.Markup

namespace WebSub.Feed

open Markup (Constructs EndsText Tag)

namespace State

/-- At every place a single tag and a pair of tags do the same, but for the entry that is yet to
begin. -/
theorem Place.run_pair {level : Option Nat} {s : State} (place : Place level s) {tag : Tag}
    (begun : tag.localName = "entry".toList → level ≠ none) (name : List Char)
    (failure : Option Markup.Error) (rest : List Markup.Event) :
    s.run failure (.empty tag :: rest) = s.run failure (.start tag :: .close name :: rest) := by
  by_cases notice : tag.localName = "deleted-entry".toList
  · rw [s.run_notice_tag notice (.inr rfl), s.run_notice_tag notice (.inl rfl)]
  cases place with
  | before d =>
    have other : ¬ tag.localName = "entry".toList := fun entry => begun entry rfl
    have empty : (outside d).step (.empty tag) = .more (outside d) := by
      simp only [step_outside, if_neg notice]
    have start : (outside d).step (.start tag) = .more (outside (d + 1)) := by
      simp only [step_outside, if_neg notice, if_neg other]
    rw [run_more empty, run_more start, run_more (step_outside (d + 1) (.close name))]
    rfl
  | inside inside d here =>
    subst here
    cases inside with
    | between draft =>
      cases child : childBegun draft tag with
      | error e =>
        have empty : (reading d draft).step (.empty tag) = .answer (.error e) := by
          simp only [step_reading, if_neg notice, child]
        have start : (reading d draft).step (.start tag) = .answer (.error e) := by
          simp only [step_reading, if_neg notice, child]
        rw [run_answer empty, run_answer start]
      | ok child' =>
        obtain ⟨draft', kept⟩ := child'
        have empty : (reading d draft).step (.empty tag) =
            .more (reading d (childEnded draft' kept)) := by
          simp only [step_reading, if_neg notice, child]
        have start : (reading d draft).step (.start tag) = .more (inChild d 0 draft' kept) := by
          simp only [step_reading, if_neg notice, child]
        rw [run_more empty, run_more start, run_more (step_inChild d 0 draft' kept (.close name))]
    | within n draft kept =>
      have empty : (inChild d n draft kept).step (.empty tag) = .more (inChild d n draft kept) := by
        simp only [step_inChild, if_neg notice]
      have start : (inChild d n draft kept).step (.start tag) =
          .more (inChild d (n + 1) draft kept) := by
        simp only [step_inChild, if_neg notice]
      rw [run_more empty, run_more start,
        run_more (step_inChild d (n + 1) draft kept (.close name))]

end State

/-- However an empty element is spelled, before the first entry, in it or behind it and at any
depth, the decoder gives the same answer, be it a notification or an error. The one exception is the
element that would be the first entry. -/
theorem decode_empty_element {tag : Tag} (proper : tag.Proper) {before : List Char}
    {events : List Markup.Event} (constructs : Constructs (Markup.withoutMark before) events [])
    (begun : tag.localName = "entry".toList → events.foldl entryLevel none ≠ none)
    (after : List Char) :
    decode (before ++ tag.writeEmpty ++ after) = decode (before ++ tag.writePair ++ after) := by
  have emptyEnds : EndsText (tag.writeEmpty ++ after) := .inr ⟨_, rfl⟩
  have pairEnds : EndsText (tag.writePair ++ after) := .inr ⟨_, rfl⟩
  rw [List.append_assoc, List.append_assoc]
  rcases decode_constructs constructs with ⟨t, inner, there, goes⟩ | ⟨answer, answers⟩
  · rw [goes _ emptyEnds, goes _ pairEnds, State.scan_behind (proper.read_empty inner after),
      State.scan_behind (proper.read_pair inner after)]
    exact there.run_pair begun tag.name _ _
  · rw [answers _ emptyEnds, answers _ pairEnds]

theorem decode_empty_title :
    Tag.Proper ⟨"title".toList⟩ ∧
    Constructs (Markup.withoutMark "<feed><entry>".toList)
      [.start ⟨"feed".toList⟩, .start ⟨"entry".toList⟩] [] ∧
    decode ("<feed><entry>".toList ++ Tag.writeEmpty ⟨"title".toList⟩ ++ "</entry>".toList) =
      decode ("<feed><entry>".toList ++ Tag.writePair ⟨"title".toList⟩ ++ "</entry>".toList) := by
  have proper : Tag.Proper ⟨"title".toList⟩ :=
    ⟨by decide, List.all_eq_true.mp rfl, fun _ => rfl, by decide⟩
  have constructs : Constructs (Markup.withoutMark "<feed><entry>".toList)
      [.start ⟨"feed".toList⟩, .start ⟨"entry".toList⟩] [] := by
    have feed : Markup.next [] "<feed><entry>".toList =
      .ok ⟨.start ⟨"feed".toList⟩, "<entry>".toList, ["feed".toList]⟩ := rfl
    have entry : Markup.next [] "<entry>".toList =
      .ok ⟨.start ⟨"entry".toList⟩, [], ["entry".toList]⟩ := rfl
    exact .cons (by decide) feed (.cons (by decide) entry (.nil _))
  exact ⟨proper, constructs, decode_empty_element proper constructs (by decide) "</entry>".toList⟩

/-! ## The entry itself -/

theorem decode_entry_pair {tag : Tag} (proper : tag.Proper) (entry : tag.localName = "entry".toList)
    {lead : List Char} (before : Lead lead) (after : List Char) :
    decode (lead ++ tag.writePair ++ after) = .error (.missing .videoId) := by
  have written : tag.writePair ++ after =
      '<' :: (tag.content ++ '>' :: '<' :: '/' :: (tag.name ++ '>' :: after)) := by
    simp [Tag.writePair]
  have begins : BeginsEntry (tag.writePair ++ after) := by
    rw [written]
    exact ⟨tag, _, proper.markup_start [] _, rfl, entry⟩
  have ends : EndsText (tag.writePair ++ after) := .inr ⟨_, rfl⟩
  have closes := State.step_reading 0 {} (.close tag.name)
  rw [List.append_assoc, decode_behind_lead before begins, decode_of_endsText ends,
    State.scan_behind (proper.read_pair [] after)]
  exact (State.run_more (State.step_entry 0 entry) _).trans (State.run_entryEnd closes _ _)

theorem decode_entry_empty {tag : Tag} (proper : tag.Proper)
    (entry : tag.localName = "entry".toList) {before : List Char} {events : List Markup.Event}
    (constructs : Constructs (Markup.withoutMark before) events [])
    (unbegun : events.foldl entryLevel none = none) {after : List Char} (ends : EndsText after) :
    decode (before ++ tag.writeEmpty ++ after) = decode (before ++ after) := by
  have emptyEnds : EndsText (tag.writeEmpty ++ after) := .inr ⟨_, rfl⟩
  rw [List.append_assoc]
  rcases decode_constructs constructs with ⟨t, inner, there, goes⟩ | ⟨answer, answers⟩
  · rw [goes _ emptyEnds, goes _ ends, State.scan_behind (proper.read_empty inner after)]
    rw [unbegun] at there
    cases there with
    | before d =>
      have passes : (State.outside d).step (.empty tag) = .more (State.outside d) := by
        have other : ¬ tag.localName = "deleted-entry".toList := by
          rw [entry]
          decide
        simp only [State.step_outside, if_neg other]
      exact State.run_more passes _
  · rw [answers _ emptyEnds, answers _ ends]

theorem decode_empty_entry :
    decode ("<feed>".toList ++ Tag.writeEmpty ⟨"entry".toList⟩ ++ "</feed>".toList) =
      .error .noEntry ∧
    decode ("<feed>".toList ++ Tag.writePair ⟨"entry".toList⟩ ++ "</feed>".toList) =
      .error (.missing .videoId) := by
  have proper : Tag.Proper ⟨"entry".toList⟩ :=
    ⟨by decide, List.all_eq_true.mp rfl, fun _ => rfl, by decide⟩
  have lead : Lead "<feed>".toList :=
    lead_writeOpen (e := ⟨plainHead "feed" (by decide) (by decide), .nil⟩) (by decide)
  refine ⟨?_, decode_entry_pair proper rfl lead _⟩
  have feed : Markup.next [] "<feed>".toList =
    .ok ⟨.start ⟨"feed".toList⟩, [], ["feed".toList]⟩ := rfl
  have constructs : Constructs (Markup.withoutMark "<feed>".toList) [.start ⟨"feed".toList⟩] [] :=
    .cons (by decide) feed (.nil _)
  have ends : EndsText "</feed>".toList := .inr ⟨"/feed>".toList, rfl⟩
  have opens : Markup.next [] "<feed></feed>".toList =
    .ok ⟨.start ⟨"feed".toList⟩, "</feed>".toList, ["feed".toList]⟩ := rfl
  have closes : Markup.next ["feed".toList] "</feed>".toList =
    .ok ⟨.close "feed".toList, [], []⟩ := rfl
  have read : Markup.eventsFrom [] "<feed></feed>".toList =
      ⟨[.start ⟨"feed".toList⟩, .close "feed".toList], none⟩ := by
    rw [Markup.eventsFrom_of_next (by decide) opens, Markup.eventsFrom_of_next (by decide) closes,
      Markup.eventsFrom]
    rfl
  rw [decode_entry_empty proper rfl constructs rfl ends]
  change State.run {} (Markup.eventsFrom [] "<feed></feed>".toList).failure
    (Markup.eventsFrom [] "<feed></feed>".toList).read = _
  rw [read]
  rfl

end WebSub.Feed
