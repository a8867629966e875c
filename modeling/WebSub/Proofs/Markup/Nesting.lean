import WebSub.Proofs.Markup.Locality

/-!
# Open elements

Which elements are open behind a row of events, and what has been read since their start tags. The
reader keeps the names of just these, so that every end tag it lets pass closes the innermost.
-/

namespace WebSub.Markup

/-- An element whose end tag has not come: its start tag and all events since. -/
structure OpenElement where
  tag : Tag
  since : List Event
deriving DecidableEq, Repr

def OpenElement.extend (e : OpenElement) (event : Event) : OpenElement :=
  { e with since := e.since ++ [event] }

/-- What an event leaves open, the outermost element first. -/
def nest (opened : List OpenElement) (event : Event) : List OpenElement :=
  let still := opened.map (·.extend event)
  match event with
  | .start tag => still ++ [⟨tag, []⟩]
  | .close _ => still.dropLast
  | _ => still

/-- The elements that are open behind these events, each at the number of those around it. -/
def openElements (events : List Event) : List OpenElement := events.foldl nest []

theorem openElements_concat (events : List Event) (event : Event) :
    openElements (events ++ [event]) = nest (openElements events) event :=
  List.foldl_concat ..

theorem openElements_concat_length (events : List Event) (event : Event) :
    (openElements (events ++ [event])).length = match event with
      | .start _ => (openElements events).length + 1
      | .close _ => (openElements events).length - 1
      | _ => (openElements events).length := by
  rw [openElements_concat]
  cases event <;> simp [nest]

/-! ## Since a start tag -/

variable {opened : List OpenElement} {event : Event} {e : OpenElement}

theorem nest_getElem? {i : Nat} (found : (nest opened event)[i]? = some e) :
    (∃ e', opened[i]? = some e' ∧ e = e'.extend event) ∨
      ∃ tag, event = .start tag ∧ e = ⟨tag, []⟩ ∧ i = opened.length := by
  have before (still : (opened.map (·.extend event))[i]? = some e) :
      ∃ e', opened[i]? = some e' ∧ e = e'.extend event := by
    rw [List.getElem?_map, Option.map_eq_some_iff] at still
    obtain ⟨e', was, rfl⟩ := still
    exact ⟨e', was, rfl⟩
  cases event with
  | start tag =>
    rcases Nat.lt_or_ge i opened.length with inside | last
    · rw [nest, List.getElem?_append_left (by simpa using inside)] at found
      exact .inl (before found)
    · rw [nest, List.getElem?_append_right (by simpa using last), List.length_map,
        List.getElem?_singleton] at found
      split at found
      case isTrue here =>
        cases found
        exact .inr ⟨tag, rfl, rfl, by omega⟩
      case isFalse => cases found
  | close name =>
    rw [nest, List.getElem?_dropLast] at found
    split at found
    case isTrue => exact .inl (before found)
    case isFalse => cases found
  | _ => exact .inl (before found)

theorem openElements_since {events : List Event} {i : Nat}
    (found : (openElements events)[i]? = some e) :
    ∃ lead, events = lead ++ .start e.tag :: e.since ∧ (openElements lead).length = i := by
  -- From the last event back: each one adds to all the elements that are open.
  induction events using List.reverseRecOn generalizing e with
  | nil => cases found
  | append_singleton events event ih =>
    rw [openElements_concat] at found
    rcases nest_getElem? found with ⟨e', was, rfl⟩ | ⟨tag, rfl, rfl, rfl⟩
    · obtain ⟨lead, rfl, around⟩ := ih was
      exact ⟨lead, by rw [List.append_assoc]; rfl, around⟩
    · exact ⟨events, rfl, rfl⟩

/-! ## The text among events -/

/-- The characters that an event adds to the text of the elements that it stands in. -/
def Event.chars : Event → Except Error (List Char)
  | .text raw => unescape raw
  | .cdata data => .ok data
  | _ => .ok []

/-- The text and the character data among events, with references resolved. -/
def textOf (events : List Event) : Except Error (List Char) :=
  (events.mapM Event.chars).map List.flatten

theorem textOf_concat {events : List Event} {text more : List Char}
    (told : textOf events = .ok text) (adds : event.chars = .ok more) :
    textOf (events ++ [event]) = .ok (text ++ more) := by
  rw [textOf] at told
  rw [textOf, List.mapM_append]
  cases parts : events.mapM Event.chars with
  | error e =>
    rw [parts] at told
    cases told
  | ok chars =>
    rw [parts] at told
    cases told
    have last : [event].mapM Event.chars = .ok [more] := by simp [adds]
    rw [last]
    exact congrArg Except.ok List.flatten_concat

/-! ## The reader's own account -/

/-- The names of open elements as the reader keeps them, innermost first. -/
def namesOf (opened : List OpenElement) : List (List Char) := (opened.map (·.tag.name)).reverse

theorem namesOf_extend (opened : List OpenElement) (event : Event) :
    namesOf (opened.map (·.extend event)) = namesOf opened := by
  rw [namesOf, List.map_map]
  rfl

theorem namesOf_nest {inner : List (List Char)}
    (enters : event.enter (namesOf opened) = .ok inner) : inner = namesOf (nest opened event) := by
  cases event with
  | start tag =>
    cases enters
    rw [← namesOf_extend opened (.start tag), nest, namesOf, namesOf, List.map_append,
      List.map_singleton, List.reverse_append, List.reverse_singleton, List.singleton_append]
  | close name =>
    have names := Event.enter_close enters
    rw [← namesOf_extend opened (.close name)] at names
    rw [nest, namesOf, List.map_dropLast, ← List.tail_reverse]
    exact (congrArg List.tail names).symm
  | _ => cases enters; exact (namesOf_extend opened _).symm

theorem eventsFrom_of_read_cons {names : List (List Char)} {text : List Char} {rest : List Event}
    (read : (eventsFrom names text).read = event :: rest) :
    ∃ inner more, event.enter names = .ok inner ∧
      eventsFrom names text = (eventsFrom inner more).behind [event] := by
  by_cases none : text = []
  · rw [none, eventsFrom] at read
    cases read
  cases step : next names text with
  | error e =>
    rw [eventsFrom_of_mistake none step] at read
    cases read
  | ok s =>
    have goes := eventsFrom_of_next none step
    rw [goes] at read
    obtain ⟨rfl, -⟩ := List.cons_eq_cons.mp read
    exact ⟨s.opened, s.rest, next_enters step, goes⟩

theorem eventsFrom_nested {before rest : List Event} {text : List Char}
    (read : (eventsFrom (namesOf opened) text).read = before ++ rest) :
    ∃ more, eventsFrom (namesOf opened) text =
      (eventsFrom (namesOf (before.foldl nest opened)) more).behind before := by
  induction before generalizing opened text with
  | nil => exact ⟨text, rfl⟩
  | cons event before ih =>
    obtain ⟨inner, more, enters, goes⟩ := eventsFrom_of_read_cons read
    rw [namesOf_nest enters] at goes
    rw [goes] at read
    obtain ⟨last, on⟩ := ih (List.cons_inj_right event |>.mp read)
    exact ⟨last, by rw [goes, on, Events.behind_behind]; rfl⟩

/-- Behind the events it has read, the reader has the names of the elements that are open. -/
theorem events_nested {text : List Char} {before rest : List Event}
    (read : (events text).read = before ++ rest) :
    ∃ more, events text = (eventsFrom (namesOf (openElements before)) more).behind before :=
  @eventsFrom_nested [] before rest (withoutMark text) read

theorem closes_innermost {text name : List Char} {before after : List Event}
    (read : (events text).read = before ++ .close name :: after) :
    ∃ e, (openElements before).getLast? = some e ∧ e.tag.name = name := by
  obtain ⟨more, goes⟩ := events_nested read
  rw [goes] at read
  obtain ⟨inner, -, enters, -⟩ := eventsFrom_of_read_cons (List.append_cancel_left read)
  have names := Event.enter_close enters
  have last := congrArg List.head? names
  rw [namesOf, List.head?_reverse, List.getLast?_map, List.head?_cons] at last
  exact Option.map_eq_some_iff.mp last

end WebSub.Markup
