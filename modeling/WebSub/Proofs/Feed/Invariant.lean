import WebSub.Proofs.Feed.Truncation
import WebSub.Proofs.Markup.Nesting

/-!
# What the decoder keeps

Between any two events the decoder's counters, the field it reads and that field's text are told by
the elements that are open. What has been read into a draft stays there.
-/

namespace WebSub.Feed

open Markup (Element Head OpenElement nest openElements textOf)

/-! ## The states between events -/

namespace State

/-- The state in which the decoder takes in what follows these events, if none of them ends it. -/
def after? (s : State) : List Markup.Event → Option State
  | [] => some s
  | event :: rest =>
    match s.step event with
    | .more t => t.after? rest
    | _ => none

variable {s t : State} {event : Markup.Event} {events rest : List Markup.Event}

theorem after?_more (goes : s.step event = .more t) :
    s.after? (event :: events) = t.after? events := by
  rw [after?, goes]

theorem after?_cons (running : s.after? (event :: events) = some t) :
    ∃ u, s.step event = .more u ∧ u.after? events = some t := by
  rw [after?] at running
  split at running
  case h_1 u stepped => exact ⟨u, stepped, running⟩
  case h_2 => cases running

theorem run_after (running : s.after? events = some t) (failure : Option Markup.Error) :
    s.run failure (events ++ rest) = t.run failure rest := by
  induction events generalizing s with
  | nil => cases running; rfl
  | cons event events ih =>
    obtain ⟨u, stepped, running⟩ := after?_cons running
    rw [List.cons_append, run_more stepped, ih running]

theorem extends_after (running : s.after? events = some t) : s.draft.Extends t.draft := by
  induction events generalizing s with
  | nil => cases running; exact .refl _
  | cons event events ih =>
    obtain ⟨u, stepped, running⟩ := after?_cons running
    have fares := s.step_fares event
    rw [stepped] at fares
    cases fares with
    | more kept => exact kept.trans (ih running)

theorem live_of_more {tag : Markup.Tag} (goes : s.step event = .more t)
    (tagged : event = .start tag ∨ event = .empty tag) :
    ¬ tag.localName = "deleted-entry".toList := by
  intro notice
  rw [s.step_notice_tag notice tagged] at goes
  cases goes

end State

/-! ## The first entry -/

def IsEntryStart (event : Markup.Event) : Prop :=
  ∃ tag, event = .start tag ∧ tag.localName = "entry".toList

structure IsFirstEntry (events : List Markup.Event) (entry : OpenElement) : Prop where
  named : entry.tag.localName = "entry".toList
  first : ∃ lead, events = lead ++ .start entry.tag :: entry.since ∧ ∀ e ∈ lead, ¬ IsEntryStart e

theorem IsFirstEntry.extend {events : List Markup.Event} {entry : OpenElement}
    (first : IsFirstEntry events entry) (event : Markup.Event) :
    IsFirstEntry (events ++ [event]) (entry.extend event) := by
  obtain ⟨named, lead, rfl, clear⟩ := first
  exact ⟨named, lead, List.append_assoc .., clear⟩

theorem IsFirstEntry.begun {events : List Markup.Event} {entry : OpenElement}
    (first : IsFirstEntry events entry) : ∃ e ∈ events, IsEntryStart e := by
  obtain ⟨named, lead, rfl, -⟩ := first
  exact ⟨.start entry.tag, by simp, entry.tag, rfl, named⟩

/-! ## Where the decoder stands -/

/-- What is kept of a child that is open: the field it is, if it is one, with all its text. -/
structure IsKeptOf (child : OpenElement) (kept : Option (Field × List Char)) : Prop where
  field : kept.map (·.1) = Field.ofLocalName? child.tag.localName
  text : ∀ k ∈ kept, textOf child.since = .ok k.2

namespace IsKeptOf

variable {child : OpenElement} {kept : Option (Field × List Char)} {event : Markup.Event}

theorem extend {more : List Char} (keeps : IsKeptOf child kept)
    (adds : event.chars = .ok more) :
    IsKeptOf (child.extend event) (kept.map fun k => (k.1, k.2 ++ more)) where
  field := by
    rw [Option.map_map]
    exact keeps.field
  text := by
    intro k taken
    obtain ⟨k', here, rfl⟩ := Option.map_eq_some_iff.mp taken
    exact Markup.textOf_concat (keeps.text k' here) adds

theorem quiet (keeps : IsKeptOf child kept) (silent : event.chars = .ok []) :
    IsKeptOf (child.extend event) kept := by
  have same : (kept.map fun k => (k.1, k.2 ++ [])) = kept := by simp
  rw [← same]
  exact keeps.extend silent

theorem begun {draft draft' : Draft} {tag : Markup.Tag}
    (begins : childBegun draft tag = .ok (draft', kept)) : IsKeptOf ⟨tag, []⟩ kept := by
  unfold childBegun at begins
  split at begins
  case isTrue link =>
    cases taken : draft.takeLink tag with
    | error e => rw [taken] at begins; cases begins
    | ok d =>
      rw [taken] at begins
      cases begins
      have other : Field.ofLocalName? tag.localName = none := by
        rw [link]
        decide
      exact ⟨other.symm, nofun⟩
  case isFalse =>
    cases begins
    constructor
    · rw [Option.map_map]
      exact Option.map_id'
    · intro k taken
      obtain ⟨field, -, rfl⟩ := Option.map_eq_some_iff.mp taken
      rfl

end IsKeptOf

/-- A place of the decoder by the elements that are open there. -/
inductive Stands (events : List Markup.Event) : State → Prop where
  | before {d : Nat} (deep : (openElements events).length = d)
      (clear : ∀ e ∈ events, ¬ IsEntryStart e) : Stands events (.outside d)
  | between {d : Nat} {outer : List OpenElement} {entry : OpenElement}
      (opened : openElements events = outer ++ [entry]) (around : outer.length = d)
      (first : IsFirstEntry events entry) (draft : Draft) : Stands events (.reading d draft)
  | within {d n : Nat} {outer inner : List OpenElement} {entry child : OpenElement}
      (opened : openElements events = outer ++ entry :: child :: inner)
      (around : outer.length = d) (deep : inner.length = n) (first : IsFirstEntry events entry)
      (draft : Draft) {kept : Option (Field × List Char)} (keeps : IsKeptOf child kept) :
      Stands events (.inChild d n draft kept)

namespace Stands

variable {events : List Markup.Event} {event : Markup.Event} {d n : Nat} {s t : State}

theorem step_before (deep : (openElements events).length = d)
    (clear : ∀ e ∈ events, ¬ IsEntryStart e) (goes : (State.outside d).step event = .more t) :
    Stands (events ++ [event]) t := by
  have still (other : ¬ IsEntryStart event) : ∀ e ∈ events ++ [event], ¬ IsEntryStart e := by
    simpa [or_imp, forall_and] using ⟨clear, other⟩
  have deep' := Markup.openElements_concat_length events event
  rw [deep] at deep'
  cases event with
  | start tag =>
    have live := State.live_of_more goes (.inl rfl)
    simp only [State.step_outside, if_neg live] at goes
    split at goes
    case isTrue entry =>
      cases goes
      have first : IsFirstEntry (events ++ [.start tag]) ⟨tag, []⟩ := ⟨entry, events, rfl, clear⟩
      exact .between (Markup.openElements_concat ..) (by simpa using deep) first {}
    case isFalse entry =>
      cases goes
      refine .before deep' (still ?_)
      rintro ⟨_, ⟨⟩, named⟩
      exact entry named
  | empty tag =>
    have live := State.live_of_more goes (.inr rfl)
    simp only [State.step_outside, if_neg live] at goes
    cases goes
    exact .before deep' (still nofun)
  | _ =>
    -- An end tag takes one from both counts, and from none it takes nothing in either.
    cases goes
    exact .before deep' (still nofun)

theorem step_between {outer : List OpenElement} {entry : OpenElement} {draft : Draft}
    (opened : openElements events = outer ++ [entry]) (around : outer.length = d)
    (first : IsFirstEntry events entry) (goes : (State.reading d draft).step event = .more t) :
    Stands (events ++ [event]) t := by
  have around' : (outer.map (·.extend event)).length = d := (List.length_map _).trans around
  have first' := first.extend event
  have opened' := Markup.openElements_concat events event
  rw [opened] at opened'
  cases event with
  | start tag =>
    have live := State.live_of_more goes (.inl rfl)
    simp only [State.step_reading, if_neg live] at goes
    split at goes
    case h_1 => cases goes
    case h_2 draft' kept begins =>
      cases goes
      rw [nest, List.map_append, List.append_assoc] at opened'
      exact .within opened' around' rfl first' draft' (.begun begins)
  | empty tag =>
    have live := State.live_of_more goes (.inr rfl)
    simp only [State.step_reading, if_neg live] at goes
    split at goes
    case h_1 => cases goes
    case h_2 =>
      cases goes
      exact .between (opened'.trans List.map_append) around' first' _
  | close name => rw [State.step_reading] at goes; cases goes
  | _ =>
    cases goes
    exact .between (opened'.trans List.map_append) around' first' draft

theorem step_within {outer inner : List OpenElement} {entry child : OpenElement} {draft : Draft}
    {kept : Option (Field × List Char)}
    (opened : openElements events = outer ++ entry :: child :: inner) (around : outer.length = d)
    (deep : inner.length = n) (first : IsFirstEntry events entry) (keeps : IsKeptOf child kept)
    (goes : (State.inChild d n draft kept).step event = .more t) :
    Stands (events ++ [event]) t := by
  have around' : (outer.map (·.extend event)).length = d := (List.length_map _).trans around
  have deep' : (inner.map (·.extend event)).length = n := (List.length_map _).trans deep
  have first' := first.extend event
  have opened' := Markup.openElements_concat events event
  rw [opened] at opened'
  have stays {kept' : Option (Field × List Char)} (keeps' : IsKeptOf (child.extend event) kept')
      (still : nest (outer ++ entry :: child :: inner) event =
        (outer ++ entry :: child :: inner).map (·.extend event)) :
      Stands (events ++ [event]) (.inChild d n draft kept') :=
    .within ((opened'.trans still).trans List.map_append) around' deep' first' draft keeps'
  cases event with
  | start tag =>
    have live := State.live_of_more goes (.inl rfl)
    simp only [State.step_inChild, if_neg live] at goes
    cases goes
    rw [nest, List.map_append, List.append_assoc] at opened'
    exact .within opened' around' (by simpa using deep) first' draft (keeps.quiet rfl)
  | empty tag =>
    have live := State.live_of_more goes (.inr rfl)
    simp only [State.step_inChild, if_neg live] at goes
    cases goes
    exact stays (keeps.quiet rfl) rfl
  | close name =>
    rw [State.step_inChild] at goes
    rw [nest, List.map_append, List.map_cons, List.dropLast_append_cons] at opened'
    subst deep
    -- The end tag is the child's own where nothing is open within it.
    cases inner with
    | nil =>
      cases goes
      exact .between opened' around' first' _
    | cons e inner =>
      cases goes
      exact .within opened' around' (by simp) first' draft (keeps.quiet rfl)
  | text raw =>
    rw [State.step_inChild] at goes
    cases kept with
    | none =>
      cases goes
      exact stays ⟨keeps.field, by simp⟩ rfl
    | some k =>
      cases read : Markup.unescape raw with
      | error e => simp only [read] at goes; cases goes
      | ok more =>
        simp only [read] at goes
        cases goes
        exact stays (keeps.extend read) rfl
  | cdata data =>
    rw [State.step_inChild] at goes
    cases goes
    exact stays (keeps.extend rfl) rfl
  | aside =>
    rw [State.step_inChild] at goes
    cases goes
    exact stays (keeps.quiet rfl) rfl

/-- What one event does to the elements that are open and what it does to the state go together. -/
theorem step (stands : Stands events s) (goes : s.step event = .more t) :
    Stands (events ++ [event]) t := by
  cases stands with
  | before deep clear => exact step_before deep clear goes
  | between opened around first => exact step_between opened around first goes
  | within opened around deep first _ keeps =>
    exact step_within opened around deep first keeps goes

theorem run {more : List Markup.Event} (stands : Stands events s)
    (running : s.after? more = some t) : Stands (events ++ more) t := by
  induction more generalizing events s with
  | nil =>
    cases running
    rwa [List.append_nil]
  | cons event more ih =>
    obtain ⟨u, goes, running⟩ := State.after?_cons running
    have there := ih (stands.step goes) running
    rwa [List.append_assoc] at there

end Stands

/-! ## The invariant -/

/-- What the events so far say about the decoder's state. -/
structure State.Invariant (events : List Markup.Event) (s : State) : Prop where
  depth : s.depth = (openElements events).length
  seen : s.entryDepth.isSome = true ↔ s.entrySeen = true
  begun : s.entrySeen = true ↔ ∃ e ∈ events, IsEntryStart e
  /-- The first entry is open all the while, at the index that is kept. -/
  entry : ∀ d, s.entryDepth = some d →
    ∃ e, (openElements events)[d]? = some e ∧ IsFirstEntry events e
  /-- A field is read as long as a direct child of the entry with its name is open, and thus one at
  a time. -/
  capture : ∀ field, s.capture = some field ↔
    ∃ d child, s.entryDepth = some d ∧ (openElements events)[d + 1]? = some child ∧
      Field.ofLocalName? child.tag.localName = some field
  deep : ∀ d, s.entryDepth = some d → s.capture ≠ none → d + 2 ≤ s.depth
  /-- All text since the start tag of the field, and none besides. -/
  text : ∀ d child, s.entryDepth = some d → s.capture ≠ none →
    (openElements events)[d + 1]? = some child →
      ∃ lead, events = lead ++ .start child.tag :: child.since ∧
        (openElements lead).length = d + 1 ∧ textOf child.since = .ok s.text

theorem Stands.invariant {events : List Markup.Event} {s : State} (stands : Stands events s) :
    s.Invariant events := by
  cases stands with
  | before deep clear =>
    exact {
      depth := deep.symm
      seen := by simp [State.outside]
      begun := by simpa [State.outside] using clear
      entry := nofun
      capture := by simp [State.outside]
      deep := nofun
      text := nofun }
  | @between d outer entry opened around first draft =>
    have entryAt : (openElements events)[d]? = some entry := by simp [opened, ← around]
    have below : (openElements events)[d + 1]? = none := by simp [opened, around]
    exact {
      depth := by simp [opened, around, State.reading]
      seen := by simp [State.reading]
      begun := iff_of_true rfl first.begun
      entry := by
        rintro _ ⟨⟩
        exact ⟨entry, entryAt, first⟩
      capture := by simp [State.reading, below]
      deep := fun _ _ some => absurd rfl some
      text := fun _ _ _ some => absurd rfl some }
  | @within d n outer inner entry child opened around deep first draft kept keeps =>
    have entryAt : (openElements events)[d]? = some entry := by simp [opened, ← around]
    have childAt : (openElements events)[d + 1]? = some child := by simp [opened, ← around]
    exact {
      depth := by
        simp only [opened, List.length_append, List.length_cons, around, deep, State.inChild]
        omega
      seen := by simp [State.inChild]
      begun := iff_of_true rfl first.begun
      entry := by
        rintro _ ⟨⟩
        exact ⟨entry, entryAt, first⟩
      capture := by
        intro field
        change kept.map (·.1) = some field ↔ _
        rw [keeps.field]
        constructor
        · exact fun named => ⟨d, child, rfl, childAt, named⟩
        · rintro ⟨_, child', ⟨⟩, found, named⟩
          rw [childAt] at found
          cases found
          exact named
      deep := by
        rintro _ ⟨⟩ -
        exact Nat.le_add_right (d + 2) n
      text := by
        rintro _ child' ⟨⟩ some found
        rw [childAt] at found
        cases found
        cases kept with
        | none => exact absurd rfl some
        | some k =>
          obtain ⟨lead, cut, level⟩ := Markup.openElements_since childAt
          exact ⟨lead, cut, level, keeps.text k rfl⟩ }

/-- Before every event of a text and at its end, as long as the decoder runs, its state is told by
the events so far. The elements it counts are those that the reader has open: an end tag always
closes the innermost, so that the depth is never counted down from zero. Whatever a draft has is
never replaced. -/
theorem decode_invariant {text : List Char} {before rest : List Markup.Event} {s : State}
    (read : (Markup.events text).read = before ++ rest)
    (running : State.after? {} before = some s) :
    decode text = s.run (Markup.events text).failure rest ∧ s.Invariant before ∧
    (∃ left, Markup.events text =
      (Markup.eventsFrom (Markup.namesOf (openElements before)) left).behind before) ∧
    (∀ name after, rest = .close name :: after → 0 < s.depth ∧
      ∃ e, (openElements before).getLast? = some e ∧ e.tag.name = name) ∧
    (∀ more t, s.after? more = some t → s.draft.Extends t.draft) ∧
    ∀ event t, s.step event = .entryEnd t → t.draft = s.draft := by
  have start : Stands [] {} := .before rfl nofun
  have invariant := (start.run running).invariant
  refine ⟨?_, invariant, Markup.events_nested read, ?_, fun _ _ => State.extends_after, ?_⟩
  · rw [decode, read, State.run_after running]
  · rintro name after rfl
    obtain ⟨e, last, named⟩ := Markup.closes_innermost read
    refine ⟨?_, e, last, named⟩
    rw [invariant.depth, List.length_pos_iff]
    rintro none
    rw [List.nil_append] at none
    rw [none] at last
    cases last
  · intro event t ends
    have fares := s.step_fares event
    rw [ends] at fares
    cases fares with
    | ended => rfl

/-! ## Within a title -/

def headNamed (name : String) (proper : name.toList ≠ [] ∧
    (name.toList.all fun c => Markup.isNameChar c && c != ':') = true) : Head :=
  plainHead name proper.1 proper.2

/-- A feed that is marked up within the title of its video. -/
def sampleFeed : Element where
  head := headNamed "feed" (by decide)
  inside :=
    .element (headNamed "entry" (by decide))
      (.element (headNamed "videoId" (by decide)) (.text "v".toList .nil) <|
        .element (headNamed "title" (by decide))
          (.text "a".toList <|
            .element (headNamed "b" (by decide)) (.text "<".toList .nil) .nil) .nil)
      .nil

/-- Its events up to the end tag of the markup. -/
def withinTitle : List Markup.Event :=
  [.start ⟨"feed".toList⟩, .start ⟨"entry".toList⟩, .start ⟨"videoId".toList⟩, .text "v".toList,
    .close "videoId".toList, .start ⟨"title".toList⟩, .text "a".toList, .start ⟨"b".toList⟩,
    .text "&lt;".toList]

def behindTitle : List Markup.Event :=
  ["b", "title", "entry", "feed"].map fun name => .close name.toList

/-- The decoder at that end tag: two elements are open in the entry, and one around it. -/
def titleRead : State := .inChild 1 1 { videoId := some "v" } (some (.title, "a<".toList))

/-- The decoder behind the title. -/
def titleKept : State := .reading 1 { videoId := some "v", title := some "a<" }

theorem events_sampleFeed :
    (Markup.events sampleFeed.write).read = withinTitle ++ behindTitle := by
  rw [Markup.events_write]
  rfl

theorem State.step_inChild_text {d n : Nat} {draft : Draft} {field : Field} {text : List Char}
    (more : List Char) : (State.inChild d n draft (some (field, text))).step
      (.text (Markup.escape more)) = .more (.inChild d n draft (some (field, text ++ more))) := by
  simp only [State.step_inChild, Markup.unescape_escape]

theorem after?_withinTitle : State.after? {} withinTitle = some titleRead := by
  calc State.after? {} withinTitle
    _ = (State.inChild 1 0 {} (some (.videoId, []))).after? (withinTitle.drop 3) := rfl
    _ = (State.inChild 1 0 {} (some (.videoId, ['v']))).after? (withinTitle.drop 4) :=
      State.after?_more (State.step_inChild_text ['v'])
    _ = (State.inChild 1 0 { videoId := some "v" } (some (.title, []))).after?
        (withinTitle.drop 6) := rfl
    _ = (State.inChild 1 0 { videoId := some "v" } (some (.title, ['a']))).after?
        (withinTitle.drop 7) := State.after?_more (State.step_inChild_text ['a'])
    _ = (State.inChild 1 1 { videoId := some "v" } (some (.title, ['a']))).after?
        (withinTitle.drop 8) := rfl
    _ = some titleRead := State.after?_more (State.step_inChild_text ['<'])

theorem decode_invariant_withinTitle :
    (Markup.events sampleFeed.write).read = withinTitle ++ behindTitle ∧
    State.after? {} withinTitle = some titleRead ∧
    decode sampleFeed.write = titleRead.run (Markup.events sampleFeed.write).failure behindTitle ∧
    titleRead.Invariant withinTitle ∧ 0 < titleRead.depth ∧
    titleRead.after? (behindTitle.take 2) = some titleKept ∧
    titleRead.draft.Extends titleKept.draft := by
  have ⟨answer, invariant, _, closes, kept, _⟩ :=
    decode_invariant events_sampleFeed after?_withinTitle
  have behind : titleRead.after? (behindTitle.take 2) = some titleKept := rfl
  exact ⟨events_sampleFeed, after?_withinTitle, answer, invariant, (closes _ _ rfl).1, behind,
    kept _ _ behind⟩

end WebSub.Feed
