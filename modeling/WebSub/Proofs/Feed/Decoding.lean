import WebSub.Proofs.Feed.Meaning
import WebSub.Proofs.Markup.Written

/-!
# Decoding written feeds

The decoder, which takes in one event after the other, finds in every written document what the
document says.
-/

namespace WebSub.Feed

open Markup (Content Element Head pending)

/-! ## Tags -/

theorem takeLink_tag (d : Draft) {e : Element} (link : e.named "link" = true) :
    d.takeLink e.head.tag = .ok { d with link := d.link.or (ownLink? e) } := by
  simp only [Draft.takeLink, Head.tag_values, Head.lastValue?_attributes, ownLink?, link, true_and]
  cases d with
  | mk _ _ _ _ _ taken =>
    cases taken with
    | some first => simp
    | none =>
      cases e.head.last? "rel" with
      | none => simp
      | some rel => by_cases own : rel = "alternate" <;> simp [own]

theorem ofTag_tag (e : Element) : Deletion.ofTag e.head.tag = .ok (deletionOf e) := by
  simp only [Deletion.ofTag, Head.tag_values, Head.lastValue?_attributes, deletionOf]

/-! ## Answers so far -/

/-- The answer of the first deletion notice among elements, or else another. -/
def unlessDeleted (elements : List Element) (other : Except DecodeError Notification) :
    Except DecodeError Notification :=
  match elements.find? (·.named "deleted-entry") with
  | some notice => .ok (.deleted (deletionOf notice))
  | none => other

theorem unlessDeleted_append (first second : List Element)
    (other : Except DecodeError Notification) :
    unlessDeleted (first ++ second) other = unlessDeleted first (unlessDeleted second other) := by
  unfold unlessDeleted
  rw [List.find?_append]
  cases first.find? (·.named "deleted-entry") <;> rfl

theorem unlessDeleted_cons_notice {e : Element} (deleted : e.named "deleted-entry" = true)
    (rest : List Element) (other : Except DecodeError Notification) :
    unlessDeleted (e :: rest) other = .ok (.deleted (deletionOf e)) := by
  rw [unlessDeleted, List.find?_cons_of_pos deleted]

theorem unlessDeleted_cons {e : Element} (live : ¬ e.named "deleted-entry" = true)
    (rest : List Element) (other : Except DecodeError Notification) :
    unlessDeleted (e :: rest) other = unlessDeleted rest other := by
  rw [unlessDeleted, List.find?_cons_of_neg live, unlessDeleted]

/-- The answer of the first notice or entry among elements, or else another. -/
def settle : List Element → Except DecodeError Notification → Except DecodeError Notification
  | [], other => other
  | e :: rest, other =>
    if e.named "deleted-entry" then .ok (.deleted (deletionOf e))
    else if e.named "entry" then unlessDeleted e.inside.elements ((entryOf e).map .entry)
    else settle rest other

theorem settle_append (first second : List Element) (other : Except DecodeError Notification) :
    settle (first ++ second) other = settle first (settle second other) := by
  induction first with
  | nil => rfl
  | cons e rest ih => simp only [List.cons_append, settle, ih]

theorem settle_started (elements : List Element) (other : Except DecodeError Notification) :
    settle elements other = unlessDeleted (started elements)
      (match elements.find? (·.named "entry") with
        | some entry => (entryOf entry).map .entry
        | none => other) := by
  induction elements with
  | nil => rfl
  | cons e rest ih =>
    by_cases entry : e.named "entry" = true
    · have live : ¬ e.named "deleted-entry" = true := by
        rw [Element.named_iff, Element.named_iff.mp entry]
        decide
      have first : started (e :: rest) = e.elements := by
        simp [started, entry]
      rw [first, List.find?_cons_of_pos entry, Element.elements, unlessDeleted_cons live, settle,
        if_neg live, if_pos entry]
    · have later : started (e :: rest) = e :: started rest := by
        unfold started
        rw [List.find?_cons_of_neg entry, List.takeWhile_cons_of_pos (by simpa using entry)]
        cases rest.find? (·.named "entry") <;> rfl
      rw [later, List.find?_cons_of_neg entry, settle, if_neg entry]
      by_cases deleted : e.named "deleted-entry" = true
      · rw [if_pos deleted, unlessDeleted_cons_notice deleted]
      · rw [if_neg deleted, unlessDeleted_cons deleted, ih]

theorem settle_eq_meaning (root : Element) :
    settle root.elements (.error .noEntry) = meaning root := by
  rw [settle_started]
  rfl

namespace State

variable {failure : Option Markup.Error}

theorem run_more {s t : State} {event : Markup.Event} (more : s.step event = .more t)
    (rest : List Markup.Event) : s.run failure (event :: rest) = t.run failure rest := by
  rw [run, more]

/-! ## Text and notices -/

/-- Text is added to a field while one is read. -/
def heard (s : State) (chars : List Char) : State :=
  match s.capture with
  | none => s
  | some _ => { s with text := s.text ++ chars }

theorem heard_heard (s : State) (first second : List Char) :
    (s.heard first).heard second = s.heard (first ++ second) := by
  cases reading : s.capture <;> simp [heard, reading]

theorem heard_nil (s : State) : s.heard [] = s := by
  obtain ⟨_, _, _, _, capture, _⟩ := s
  cases capture <;> simp [heard]

theorem run_pending (s : State) (chars : List Char) (rest : List Markup.Event) :
    s.run failure (pending chars ++ rest) = (s.heard chars).run failure rest := by
  by_cases none : chars = []
  · subst none
    rw [heard_nil]
    rfl
  · rw [pending, if_neg none, List.singleton_append, run, step]
    cases reading : s.capture with
    | none => simp only [onText, heard, reading]
    | some field => simp only [onText, heard, reading, Markup.unescape_escape]

theorem step_cdata (s : State) (chars : List Char) :
    s.step (.cdata chars) = .more (s.heard chars) := by
  rw [step, onCdata, heard]
  cases s.capture with
  | none => rfl
  | some field => rfl

theorem run_cdata (s : State) (before chars : List Char) (rest : List Markup.Event) :
    s.run failure (pending before ++ .cdata chars :: rest) =
      (s.heard (before ++ chars)).run failure rest := by
  rw [run_pending, run_more (step_cdata _ chars), heard_heard]

theorem run_aside (s : State) (before : List Char) (rest : List Markup.Event) :
    s.run failure (pending before ++ .aside :: rest) = (s.heard before).run failure rest := by
  rw [run_pending, run_more rfl]

theorem onStart_notice (s : State) {e : Element} (deleted : e.named "deleted-entry" = true) :
    s.onStart e.head.tag = .answer (.ok (.deleted (deletionOf e))) := by
  rw [onStart, if_pos, deletion, ofTag_tag]
  · rfl
  · rw [Head.tag_localName, Element.named_iff.mp deleted]

theorem run_notice (s : State) {e : Element} (deleted : e.named "deleted-entry" = true)
    (rest : List Markup.Event) :
    s.run failure (.start e.head.tag :: rest) = .ok (.deleted (deletionOf e)) := by
  rw [run, step, onStart_notice s deleted]

/-! ## Below a field -/

/-- Within a direct child of the entry. -/
def Within (s : State) : Prop := ∃ d, s.entryDepth = some d ∧ d + 2 ≤ s.depth

def inner (s : State) : State := { s with depth := s.depth + 1 }

theorem Within.heard {s : State} (within : s.Within) (chars : List Char) :
    (s.heard chars).Within := by
  obtain ⟨d, around, deep⟩ := within
  unfold State.heard
  split
  · exact ⟨d, around, deep⟩
  · exact ⟨d, around, deep⟩

theorem Within.inner {s : State} (within : s.Within) : s.inner.Within := by
  obtain ⟨d, around, deep⟩ := within
  exact ⟨d, around, Nat.le_succ_of_le deep⟩

theorem heard_inner (s : State) (chars : List Char) :
    s.inner.heard chars = (s.heard chars).inner := by
  cases reading : s.capture <;> simp [heard, inner, reading]

theorem onStart_within {s : State} (within : s.Within) {e : Element}
    (live : ¬ e.named "deleted-entry" = true) : s.onStart e.head.tag = .more s.inner := by
  obtain ⟨depth, _, seen, draft, capture, text⟩ := s
  obtain ⟨d, rfl, deep⟩ := within
  have below : ¬ depth = d + 1 := by
    change d + 2 ≤ depth at deep
    omega
  rw [Element.named_iff] at live
  simp only [onStart, Head.tag_localName, if_neg live, atField, Option.any_some, beq_iff_eq,
    if_neg below, inner]

theorem onClose_within {s : State} (within : s.Within) : s.inner.onClose = .more s := by
  obtain ⟨depth, _, seen, draft, capture, text⟩ := s
  obtain ⟨d, rfl, deep⟩ := within
  change d + 2 ≤ depth at deep
  have field : ¬ depth = d + 1 := by omega
  have entry : ¬ depth = d := by omega
  simp only [onClose, inner, Nat.add_sub_cancel, if_neg field, if_neg entry]

theorem run_within (c : Content) : ∀ (s : State) (before : List Char) (rest : List Markup.Event),
    s.Within → s.run failure (c.events before ++ rest) =
      unlessDeleted c.elements ((s.heard (before ++ c.allText)).run failure rest) := by
  induction c with
  | nil =>
    intro s before rest within
    rw [Content.events, run_pending, Content.allText, List.append_nil]
    rfl
  | text chars next ih =>
    intro s before rest within
    rw [Content.events, ih s _ rest within, Content.allText, List.append_assoc]
    rfl
  | cdata data next ih =>
    intro s before rest within
    have more := ih (s.heard (before ++ data.text)) [] rest (within.heard _)
    rw [Content.events, List.append_assoc, List.cons_append, run_cdata, more, Content.allText,
      heard_heard, List.nil_append, List.append_assoc]
    rfl
  | comment data next ih =>
    intro s before rest within
    have more := ih (s.heard before) [] rest (within.heard _)
    rw [Content.events, List.append_assoc, List.cons_append, run_aside, more, Content.allText,
      heard_heard, List.nil_append]
    rfl
  | instruction data next ih =>
    intro s before rest within
    have more := ih (s.heard before) [] rest (within.heard _)
    rw [Content.events, List.append_assoc, List.cons_append, run_aside, more, Content.allText,
      heard_heard, List.nil_append]
    rfl
  | element head inside next insideRead nextRead =>
    intro s before rest within
    let e : Element := ⟨head, inside⟩
    rw [Content.events, List.append_assoc, run_pending, List.cons_append, List.append_assoc,
      List.cons_append, Content.elements, Content.allText]
    by_cases deleted : e.named "deleted-entry" = true
    · have stops := unlessDeleted_cons_notice deleted
      rw [stops]
      exact run_notice _ deleted _
    have at_child := within.heard before
    have opens : (s.heard before).step (.start head.tag) = .more (s.heard before).inner :=
      onStart_within at_child deleted
    have read := insideRead (s.heard before).inner [] (.close head.name.write ::
      (next.events [] ++ rest)) at_child.inner
    have closes : ((s.heard before).heard inside.allText).inner.step (.close head.name.write) =
        .more ((s.heard before).heard inside.allText) := onClose_within (at_child.heard _)
    have more := nextRead ((s.heard before).heard inside.allText) [] rest (at_child.heard _)
    rw [List.nil_append, heard_inner, run_more closes, more] at read
    rw [run_more opens, read, unlessDeleted_cons deleted, unlessDeleted_append]
    simp only [heard_heard, List.nil_append, List.append_assoc]

/-! ## Between the fields -/

/-- Between the direct children of an entry that `d` elements are around. -/
def reading (d : Nat) (draft : Draft) : State :=
  { depth := d + 1, entryDepth := some d, entrySeen := true, draft }

/-- A child that has begun, and the field it is. -/
def begun (d : Nat) (draft : Draft) (capture : Option Field) : State :=
  { depth := d + 2, entryDepth := some d, entrySeen := true, draft, capture }

theorem child_absorbed (d : Nat) (draft : Draft) {e : Element}
    (live : ¬ e.named "deleted-entry" = true) :
    ∃ draft' capture, (reading d draft).onStart e.head.tag = .more (begun d draft' capture) ∧
      ((begun d draft' capture).heard e.inside.allText).onClose =
        .more (reading d (draft.absorb e)) := by
  have atField : (reading d draft).atField = true := by simp [State.atField, reading]
  have around : (reading d draft).entryDepth = some d := rfl
  rw [Element.named_iff] at live
  rw [onStart, Head.tag_localName, if_neg live, Draft.absorb]
  simp only [around, atField, if_true]
  by_cases link : e.named "link" = true
  · refine ⟨{ draft with link := draft.link.or (ownLink? e) }, none, ?_, ?_⟩
    · rw [if_pos (Element.named_iff.mp link)]
      have taken : (reading d draft).draft.takeLink e.head.tag = _ := takeLink_tag draft link
      rw [taken]
      rfl
    · rw [if_pos link]
      simp [begun, reading, heard, onClose]
  · rw [if_neg (mt Element.named_iff.mpr link), if_neg link]
    cases found : Field.ofLocalName? e.head.name.base.text with
    | some field =>
      refine ⟨draft, some field, rfl, ?_⟩
      simp [begun, reading, heard, onClose]
    | none =>
      refine ⟨draft, none, rfl, ?_⟩
      simp [begun, reading, heard, onClose]

theorem heard_reading (d : Nat) (draft : Draft) (chars : List Char) :
    (reading d draft).heard chars = reading d draft := rfl

theorem run_reading (c : Content) : ∀ (d : Nat) (draft : Draft) (before : List Char)
    (rest : List Markup.Event), (reading d draft).run failure (c.events before ++ rest) =
      unlessDeleted c.elements
        ((reading d (c.children.foldl Draft.absorb draft)).run failure rest) := by
  induction c with
  | nil =>
    intro d draft before rest
    rw [Content.events, run_pending]
    rfl
  | text chars next ih =>
    intro d draft before rest
    exact ih d draft _ rest
  | cdata data next ih =>
    intro d draft before rest
    rw [Content.events, List.append_assoc, List.cons_append, run_cdata]
    exact ih d draft [] rest
  | comment data next ih =>
    intro d draft before rest
    rw [Content.events, List.append_assoc, List.cons_append, run_aside]
    exact ih d draft [] rest
  | instruction data next ih =>
    intro d draft before rest
    rw [Content.events, List.append_assoc, List.cons_append, run_aside]
    exact ih d draft [] rest
  | element head inside next _ nextRead =>
    intro d draft before rest
    let e : Element := ⟨head, inside⟩
    rw [Content.events, List.append_assoc, run_pending, List.cons_append, List.append_assoc,
      List.cons_append, Content.elements, Content.children, List.foldl_cons, heard_reading]
    by_cases deleted : e.named "deleted-entry" = true
    · have stops := unlessDeleted_cons_notice deleted
      rw [stops]
      exact run_notice _ deleted _
    obtain ⟨draft', capture, opens, closes⟩ := child_absorbed d draft deleted
    have opens : (reading d draft).step (.start head.tag) = .more (begun d draft' capture) := opens
    have closes : ((begun d draft' capture).heard inside.allText).step
      (.close head.name.write) = .more (reading d (draft.absorb e)) := closes
    have within : (begun d draft' capture).Within := ⟨d, rfl, le_refl _⟩
    have read : (begun d draft' capture).run failure
        (inside.events [] ++ .close head.name.write :: (next.events [] ++ rest)) = _ :=
      run_within inside _ [] _ within
    rw [List.nil_append, run_more closes, nextRead] at read
    rw [run_more opens, read, unlessDeleted_cons deleted, unlessDeleted_append]

/-! ## Before the entry -/

/-- Before the entry, within `d` elements. -/
def outside (d : Nat) : State := { depth := d }

theorem heard_outside (d : Nat) (chars : List Char) : (outside d).heard chars = outside d := rfl

theorem step_entry (d : Nat) {tag : Markup.Tag} (entry : tag.localName = "entry".toList) :
    (outside d).step (.start tag) = .more (reading d {}) := by
  rw [step, onStart, entry, if_neg (by decide)]
  rfl

theorem run_entry (d : Nat) {e : Element} (entry : e.named "entry" = true)
    (rest : List Markup.Event) :
    (outside d).run failure (.start e.head.tag ::
        (e.inside.events [] ++ .close e.head.name.write :: rest)) =
      unlessDeleted e.inside.elements ((entryOf e).map .entry) := by
  have opens : (outside d).step (.start e.head.tag) = .more (reading d {}) :=
    step_entry d (e.head.tag_localName.trans (Element.named_iff.mp entry))
  have ends (draft : Draft) : (reading d draft).step (.close e.head.name.write) =
      .entryEnd { reading d draft with depth := d } := by
    simp [step, onClose, reading]
  have closes (draft : Draft) : (reading d draft).run failure (.close e.head.name.write :: rest) =
      draft.toEntry.map .entry := by
    rw [run, ends]
    rfl
  rw [run_more opens, run_reading, closes, Draft.toEntry_absorbed]

theorem run_outside (c : Content) : ∀ (d : Nat) (before : List Char) (rest : List Markup.Event),
    (outside d).run failure (c.events before ++ rest) =
      settle c.elements ((outside d).run failure rest) := by
  induction c with
  | nil =>
    intro d before rest
    rw [Content.events, run_pending]
    rfl
  | text chars next ih =>
    intro d before rest
    exact ih d _ rest
  | cdata data next ih =>
    intro d before rest
    rw [Content.events, List.append_assoc, List.cons_append, run_cdata]
    exact ih d [] rest
  | comment data next ih =>
    intro d before rest
    rw [Content.events, List.append_assoc, List.cons_append, run_aside]
    exact ih d [] rest
  | instruction data next ih =>
    intro d before rest
    rw [Content.events, List.append_assoc, List.cons_append, run_aside]
    exact ih d [] rest
  | element head inside next insideRead nextRead =>
    intro d before rest
    let e : Element := ⟨head, inside⟩
    rw [Content.events, List.append_assoc, run_pending, List.cons_append, List.append_assoc,
      List.cons_append, Content.elements, heard_outside, settle]
    by_cases deleted : e.named "deleted-entry" = true
    · rw [if_pos deleted]
      exact run_notice _ deleted _
    rw [if_neg deleted]
    by_cases entry : e.named "entry" = true
    · rw [if_pos entry]
      exact run_entry d entry _
    rw [if_neg entry, settle_append]
    have opens : (outside d).step (.start head.tag) = .more (outside (d + 1)) := by
      have other : ¬ (head.name.base.text = "entry".toList ∧ (outside d).entrySeen = false) :=
        fun h => entry (Element.named_iff.mpr h.1)
      rw [step, onStart, Head.tag_localName, if_neg (mt Element.named_iff.mpr deleted)]
      simp only [if_neg other]
      rfl
    have closes : (outside (d + 1)).step (.close head.name.write) = .more (outside d) := rfl
    rw [run_more opens, insideRead, run_more closes, nextRead]

/-- The events of a whole document come to what it says. -/
theorem run_document (root : Element) :
    run {} none ((Content.element root.head root.inside .nil).events []) = meaning root := by
  have unsettled : (outside 0).run none [] = .error .noEntry := rfl
  have read : (outside 0).run none
      ((Content.element root.head root.inside .nil).events [] ++ []) = _ :=
    run_outside (.element root.head root.inside .nil) 0 [] []
  have all : (Content.element root.head root.inside .nil).elements = root.elements := by
    rw [Content.elements, Content.elements, List.append_nil, Element.elements]
  rw [List.append_nil, unsettled, all, settle_eq_meaning] at read
  exact read

end State

/-- Whatever its names, its nesting and the order of its parts, a written document is decoded to
what it says. -/
theorem decode_write (root : Element) : decode root.write = meaning root := by
  rw [decode, Markup.events_write]
  exact State.run_document root

end WebSub.Feed
