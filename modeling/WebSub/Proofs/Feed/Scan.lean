import WebSub.Proofs.Feed.Decoding
import WebSub.Proofs.Markup.Locality

/-!
# The decoder on its way

Between two events the decoder is before the first entry, among that entry's children or inside one
of them, and nowhere else. What an event does is said once for each of these places.
-/

namespace WebSub.Feed

open Markup (Constructs EndsText)

/-- How deep a document is within its first entry after an event, the entry counted: nothing before
it begins, and no more than zero once it has ended. -/
def entryLevel (level : Option Nat) (event : Markup.Event) : Option Nat :=
  match level, event with
  | none, .start tag => if tag.localName = "entry".toList then some 1 else none
  | some (n + 1), .start _ => some (n + 2)
  | some (n + 1), .close _ => some n
  | level, _ => level

/-! ## The children of an entry -/

/-- The draft when a child of the entry begins, and the field and the text that are kept of it. -/
def childBegun (draft : Draft) (tag : Markup.Tag) :
    Except DecodeError (Draft × Option (Field × List Char)) :=
  if tag.localName = "link".toList then (draft.takeLink tag).map (·, none)
  else .ok (draft, (Field.ofLocalName? tag.localName).map (·, []))

/-- The draft once a child has ended. -/
def childEnded (draft : Draft) : Option (Field × List Char) → Draft
  | none => draft
  | some (field, text) => draft.fill field (String.ofList text)

namespace State

/-! ## Places -/

/-- Inside a child of the entry, below `n` more elements, with the field and the text kept of it. -/
def inChild (d n : Nat) (draft : Draft) (kept : Option (Field × List Char)) : State :=
  { depth := d + 2 + n, entryDepth := some d, entrySeen := true, draft
    capture := kept.map (·.1), text := (kept.map (·.2)).getD [] }

theorem step_outside (d : Nat) (event : Markup.Event) : (outside d).step event = match event with
    | .start tag =>
      if tag.localName = "deleted-entry".toList then deletion tag
      else if tag.localName = "entry".toList then .more (reading d {})
      else .more (outside (d + 1))
    | .empty tag =>
      if tag.localName = "deleted-entry".toList then deletion tag else .more (outside d)
    | .close _ => .more (outside (d - 1))
    | _ => .more (outside d) := by
  cases event with
  | start tag =>
    simp only [step, onStart, outside, and_true]
    rfl
  | _ => rfl

theorem step_reading (d : Nat) (draft : Draft) (event : Markup.Event) :
    (reading d draft).step event = match event with
    | .start tag =>
      if tag.localName = "deleted-entry".toList then deletion tag
      else match childBegun draft tag with
        | .error e => .answer (.error e)
        | .ok (draft, kept) => .more (inChild d 0 draft kept)
    | .empty tag =>
      if tag.localName = "deleted-entry".toList then deletion tag
      else match childBegun draft tag with
        | .error e => .answer (.error e)
        | .ok (draft, kept) => .more (reading d (childEnded draft kept))
    | .close _ => .entryEnd { reading d draft with depth := d }
    | _ => .more (reading d draft) := by
  have atField : (reading d draft).atField = true := by simp [State.atField, reading]
  have around : (reading d draft).entryDepth = some d := rfl
  cases event with
  | start tag =>
    simp only [step, onStart, around, atField, if_true, childBegun]
    by_cases notice : tag.localName = "deleted-entry".toList
    · simp only [if_pos notice]
    by_cases link : tag.localName = "link".toList
    · simp only [if_neg notice, if_pos link]
      have own : (reading d draft).draft = draft := rfl
      rw [own]
      cases draft.takeLink tag <;> rfl
    · simp only [if_neg notice, if_neg link]
      cases Field.ofLocalName? tag.localName <;> rfl
  | empty tag =>
    simp only [step, onEmpty, atField, if_true, childBegun]
    by_cases notice : tag.localName = "deleted-entry".toList
    · simp only [if_pos notice]
    by_cases link : tag.localName = "link".toList
    · simp only [if_neg notice, if_pos link]
      have own : (reading d draft).draft = draft := rfl
      rw [own]
      cases draft.takeLink tag <;> rfl
    · simp only [if_neg notice, if_neg link]
      cases Field.ofLocalName? tag.localName <;> rfl
  | close name => simp [step, onClose, reading]
  | _ => rfl

theorem step_inChild (d n : Nat) (draft : Draft) (kept : Option (Field × List Char))
    (event : Markup.Event) : (inChild d n draft kept).step event = match event with
    | .start tag =>
      if tag.localName = "deleted-entry".toList then deletion tag
      else .more (inChild d (n + 1) draft kept)
    | .empty tag =>
      if tag.localName = "deleted-entry".toList then deletion tag
      else .more (inChild d n draft kept)
    | .close _ =>
      match n with
      | 0 => .more (reading d (childEnded draft kept))
      | n + 1 => .more (inChild d n draft kept)
    | .text raw =>
      match kept with
      | none => .more (inChild d n draft none)
      | some (field, text) =>
        match Markup.unescape raw with
        | .error e => .answer (.error (.malformed e))
        | .ok more => .more (inChild d n draft (some (field, text ++ more)))
    | .cdata more => .more (inChild d n draft (kept.map fun k => (k.1, k.2 ++ more)))
    | .aside => .more (inChild d n draft kept) := by
  have deep : (inChild d n draft kept).atField = false := by
    simp [State.atField, inChild]
    omega
  have around : (inChild d n draft kept).entryDepth = some d := rfl
  cases event with
  | start tag =>
    simp only [step, onStart, around, deep, Bool.false_eq_true, if_false]
    rfl
  | empty tag =>
    simp only [step, onEmpty, deep, Bool.false_eq_true, if_false]
  | close name =>
    cases n with
    | zero => cases kept <;> simp [step, onClose, inChild, reading, childEnded]
    | succ n =>
      have elsewhere : ¬ d + 2 + n = d + 1 := by omega
      have inside : ¬ d + 2 + n = d := by omega
      simp only [step, onClose, inChild, ← Nat.add_assoc, Nat.add_sub_cancel, if_neg elsewhere,
        if_neg inside]
  | text raw =>
    cases kept with
    | none => rfl
    | some k => cases read : Markup.unescape raw <;> simp [step, onText, inChild, read]
  | cdata more => cases kept <;> rfl
  | aside => rfl

/-- The places within an entry, whatever number of elements is around it, with how deep they are. -/
inductive Inside : Nat → (Nat → State) → Prop where
  | between (draft : Draft) : Inside 1 (reading · draft)
  | within (n : Nat) (draft : Draft) (kept : Option (Field × List Char)) :
      Inside (n + 2) (inChild · n draft kept)

/-- The places at which the decoder can be. -/
inductive Place : Option Nat → State → Prop where
  | before (d : Nat) : Place none (outside d)
  | inside {level : Nat} {place : Nat → State} (inside : Inside level place) (d : Nat) {s : State}
      (here : s = place d) : Place (some level) s

theorem run_answer {s : State} {event : Markup.Event} {result : Except DecodeError Notification}
    (answers : s.step event = .answer result) (failure : Option Markup.Error)
    (rest : List Markup.Event) :
    s.run failure (event :: rest) = result := by
  rw [run, answers]

theorem run_entryEnd {s t : State} {event : Markup.Event} (ends : s.step event = .entryEnd t)
    (failure : Option Markup.Error) (rest : List Markup.Event) :
    s.run failure (event :: rest) = t.finish := by
  rw [run, ends]

theorem step_notice_tag (s : State) {tag : Markup.Tag} {event : Markup.Event}
    (notice : tag.localName = "deleted-entry".toList)
    (tagged : event = .start tag ∨ event = .empty tag) : s.step event = deletion tag := by
  rcases tagged with rfl | rfl
  · exact if_pos notice
  · exact if_pos notice

theorem run_notice_tag (s : State) {tag : Markup.Tag} {event : Markup.Event}
    (notice : tag.localName = "deleted-entry".toList)
    (tagged : event = .start tag ∨ event = .empty tag) (failure : Option Markup.Error)
    (rest : List Markup.Event) :
    s.run failure (event :: rest) = (Deletion.ofTag tag).map .deleted :=
  run_answer (s.step_notice_tag notice tagged) failure rest

theorem Inside.step {level : Nat} {place : Nat → State} (inside : Inside level place)
    (event : Markup.Event) :
    (∃ level' next, entryLevel (some level) event = some level' ∧ Inside level' next ∧
      ∀ d, (place d).step event = .more (next d)) ∨
    ∃ answer, ∀ d failure rest, (place d).run failure (event :: rest) = answer := by
  cases inside with
  | between draft =>
    cases event with
    | start tag =>
      by_cases notice : tag.localName = "deleted-entry".toList
      · exact .inr ⟨_, fun d => run_notice_tag _ notice (.inl rfl)⟩
      cases begun : childBegun draft tag with
      | error e =>
        refine .inr ⟨.error e, fun d => run_answer ?_⟩
        simp only [step_reading, if_neg notice, begun]
      | ok child =>
        refine .inl ⟨2, _, rfl, .within 0 child.1 child.2, fun d => ?_⟩
        simp only [step_reading, if_neg notice, begun]
    | empty tag =>
      by_cases notice : tag.localName = "deleted-entry".toList
      · exact .inr ⟨_, fun d => run_notice_tag _ notice (.inr rfl)⟩
      cases begun : childBegun draft tag with
      | error e =>
        refine .inr ⟨.error e, fun d => run_answer ?_⟩
        simp only [step_reading, if_neg notice, begun]
      | ok child =>
        refine .inl ⟨1, _, rfl, .between (childEnded child.1 child.2), fun d => ?_⟩
        simp only [step_reading, if_neg notice, begun]
    | close name =>
      refine .inr ⟨draft.toEntry.map .entry, fun d failure rest => ?_⟩
      exact run_entryEnd (step_reading d draft (.close name)) failure rest
    | _ => exact .inl ⟨1, _, rfl, .between draft, fun d => step_reading d draft _⟩
  | within n draft kept =>
    cases event with
    | start tag =>
      by_cases notice : tag.localName = "deleted-entry".toList
      · exact .inr ⟨_, fun d => run_notice_tag _ notice (.inl rfl)⟩
      · refine .inl ⟨n + 3, _, rfl, .within (n + 1) draft kept, fun d => ?_⟩
        simp only [step_inChild, if_neg notice]
    | empty tag =>
      by_cases notice : tag.localName = "deleted-entry".toList
      · exact .inr ⟨_, fun d => run_notice_tag _ notice (.inr rfl)⟩
      · refine .inl ⟨n + 2, _, rfl, .within n draft kept, fun d => ?_⟩
        simp only [step_inChild, if_neg notice]
    | close name =>
      cases n with
      | zero =>
        exact .inl ⟨1, _, rfl, .between (childEnded draft kept),
          fun d => step_inChild d 0 draft kept _⟩
      | succ n =>
        exact .inl ⟨n + 2, _, rfl, .within n draft kept,
          fun d => step_inChild d (n + 1) draft kept _⟩
    | text raw =>
      cases kept with
      | none =>
        exact .inl ⟨n + 2, _, rfl, .within n draft none, fun d => step_inChild d n draft _ _⟩
      | some k =>
        cases read : Markup.unescape raw with
        | error e =>
          refine .inr ⟨.error (.malformed e), fun d => run_answer ?_⟩
          simp only [step_inChild, read]
        | ok more =>
          refine .inl ⟨n + 2, _, rfl, .within n draft (some (k.1, k.2 ++ more)), fun d => ?_⟩
          simp only [step_inChild, read]
    | cdata more =>
      exact .inl ⟨n + 2, _, rfl, .within n draft _, fun d => step_inChild d n draft kept _⟩
    | aside =>
      exact .inl ⟨n + 2, _, rfl, .within n draft kept, fun d => step_inChild d n draft kept _⟩

theorem Place.step {level : Option Nat} {s : State} (place : Place level s) (event : Markup.Event) :
    (∃ t, Place (entryLevel level event) t ∧ s.step event = .more t) ∨
    ∃ answer, ∀ failure rest, s.run failure (event :: rest) = answer := by
  cases place with
  | before d =>
    cases event with
    | start tag =>
      by_cases notice : tag.localName = "deleted-entry".toList
      · exact .inr ⟨_, run_notice_tag _ notice (.inl rfl)⟩
      by_cases entry : tag.localName = "entry".toList
      · refine .inl ⟨reading d {}, ?_, ?_⟩
        · rw [entryLevel, if_pos entry]
          exact .inside (.between {}) d rfl
        · simp only [step_outside, if_neg notice, if_pos entry]
      · refine .inl ⟨outside (d + 1), ?_, ?_⟩
        · rw [entryLevel, if_neg entry]
          exact .before (d + 1)
        · simp only [step_outside, if_neg notice, if_neg entry]
    | empty tag =>
      by_cases notice : tag.localName = "deleted-entry".toList
      · exact .inr ⟨_, run_notice_tag _ notice (.inr rfl)⟩
      · refine .inl ⟨outside d, .before d, ?_⟩
        simp only [step_outside, if_neg notice]
    | _ => exact .inl ⟨_, .before _, step_outside d _⟩
  | inside inside d here =>
    subst here
    rcases inside.step event with ⟨level', next, deeper, inside', goes⟩ | ⟨answer, answers⟩
    · refine .inl ⟨next d, ?_, goes d⟩
      rw [deeper]
      exact .inside inside' d rfl
    · exact .inr ⟨answer, answers d⟩

theorem Place.run_append {level : Option Nat} {s : State} (place : Place level s)
    (events : List Markup.Event) :
    (∃ t, Place (events.foldl entryLevel level) t ∧
      ∀ failure more, s.run failure (events ++ more) = t.run failure more) ∨
    ∃ answer, ∀ failure more, s.run failure (events ++ more) = answer := by
  induction events generalizing level s with
  | nil => exact .inl ⟨s, place, fun _ _ => rfl⟩
  | cons event events ih =>
    rcases place.step event with ⟨t, there, goes⟩ | ⟨answer, answers⟩
    · simp only [List.cons_append, run_more goes, List.foldl_cons]
      exact ih there
    · exact .inr ⟨answer, fun failure more => answers failure (events ++ more)⟩

/-! ## From the text -/

/-- The answer to a text that goes on from a state, within elements that are open. -/
def scan (s : State) (opened : List (List Char)) (text : List Char) :
    Except DecodeError Notification :=
  s.run (Markup.eventsFrom opened text).failure (Markup.eventsFrom opened text).read

variable {s : State} {opened : List (List Char)} {text : List Char}

theorem scan_nil (s : State) (opened : List (List Char)) : s.scan opened [] = s.finish := by
  rw [scan, Markup.eventsFrom]
  rfl

theorem scan_of_mistake {e : Markup.Error} (begun : text ≠ [])
    (read : Markup.next opened text = .error e) : s.scan opened text = .error (.malformed e) := by
  rw [scan, Markup.eventsFrom_of_mistake begun read]
  rfl

theorem scan_of_next {t : Markup.Step} (begun : text ≠ [])
    (read : Markup.next opened text = .ok t) : s.scan opened text =
      s.run (Markup.eventsFrom t.opened t.rest).failure
        (t.event :: (Markup.eventsFrom t.opened t.rest).read) := by
  rw [scan, Markup.eventsFrom_of_next begun read]
  rfl

theorem scan_behind {inner : List (List Char)} {more : List Char} {events : List Markup.Event}
    (reads : Markup.eventsFrom opened text = (Markup.eventsFrom inner more).behind events) :
    s.scan opened text = s.run (Markup.eventsFrom inner more).failure
      (events ++ (Markup.eventsFrom inner more).read) := by
  rw [scan, reads]
  rfl

end State

theorem decode_eq_scan (text : List Char) :
    decode text = State.scan {} [] (Markup.withoutMark text) := rfl

theorem decode_of_endsText {text : List Char} (ends : EndsText text) :
    decode text = State.scan {} [] text := by
  have unmarked : Markup.withoutMark ([] ++ text) = text := Markup.withoutMark_append (.inr ends)
  rw [decode_eq_scan, ← List.nil_append text, unmarked, List.nil_append]

/-- Behind constructs the decoder goes on from a place, or it has its answer by then. -/
theorem decode_constructs {before : List Char} {events : List Markup.Event}
    (constructs : Constructs (Markup.withoutMark before) events []) :
    (∃ t inner, State.Place (events.foldl entryLevel none) t ∧
      ∀ more, EndsText more → decode (before ++ more) = t.scan inner more) ∨
    ∃ answer, ∀ more, EndsText more → decode (before ++ more) = answer := by
  obtain ⟨whole, cut, -, fares⟩ := constructs.read_on
  rw [List.append_nil] at cut
  have scanned {more : List Char} (ends : EndsText more) :
      decode (before ++ more) = State.scan {} [] (whole ++ more) := by
    rw [decode_eq_scan, Markup.withoutMark_append (.inr ends), cut]
  rcases fares [] with ⟨inner, goes⟩ | ⟨stopped, -, stops⟩
  · rcases (State.Place.before 0).run_append events with ⟨t, there, on⟩ | ⟨answer, answers⟩
    · refine .inl ⟨t, inner, there, fun more ends => ?_⟩
      rw [scanned ends, State.scan_behind (goes more (.inl ends))]
      exact on _ _
    · refine .inr ⟨answer, fun more ends => ?_⟩
      rw [scanned ends, State.scan_behind (goes more (.inl ends))]
      exact answers _ _
  · refine .inr ⟨State.run {} stopped.failure stopped.read, fun more ends => ?_⟩
    rw [scanned ends, State.scan, stops more (.inl ends)]

end WebSub.Feed
