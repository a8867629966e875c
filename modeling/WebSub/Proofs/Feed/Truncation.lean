import WebSub.Proofs.Feed.FirstEntry

/-!
# Feeds that are cut short

A video is only ever reported once its entry has ended, or where the text itself ends while the
entry is open: the end of a text counts as the end of its entry. What is reported of a feed that is
cut there is what the whole feed says, but perhaps for the address of the page.
-/

namespace WebSub.Markup

/-! ## The events of a front part -/

theorem constructs_of_read_append {opened : List (List Char)} {text : List Char} :
    ∀ {events others : List Event}, (eventsFrom opened text).read = events ++ others →
      ∃ rest, Constructs text events rest := by
  induction opened, text using eventsFrom.induct with
  | case1 opened =>
    intro events others read
    rw [eventsFrom] at read
    rw [(List.append_eq_nil_iff.mp read.symm).1]
    exact ⟨[], .nil []⟩
  | case2 opened c more e mistake =>
    intro events others read
    rw [eventsFrom_of_mistake (List.cons_ne_nil c more) mistake] at read
    rw [(List.append_eq_nil_iff.mp read.symm).1]
    exact ⟨_, .nil _⟩
  | case3 opened c more s step ih =>
    intro events others read
    have begun := List.cons_ne_nil c more
    rw [eventsFrom_of_next begun step] at read
    cases events with
    | nil => exact ⟨_, .nil _⟩
    | cons event events =>
      obtain ⟨rfl, tail⟩ := List.cons_eq_cons.mp read
      obtain ⟨rest, constructs⟩ := ih tail
      exact ⟨rest, .cons begun step constructs⟩

theorem exists_mark (text : List Char) : ∃ mark, text = mark ++ withoutMark text := by
  unfold withoutMark
  split
  · exact ⟨['\uFEFF'], rfl⟩
  · exact ⟨[], rfl⟩

theorem exists_settled (events : List Event) :
    ∃ front back, events = front ++ back ∧ (∀ raw, front.getLast? ≠ some (.text raw)) ∧
      ∀ event ∈ back, ∃ raw, event = .text raw := by
  induction events using List.reverseRecOn with
  | nil => exact ⟨[], [], rfl, fun raw => by simp, by simp⟩
  | append_singleton events event ih =>
    by_cases isText : ∃ raw, event = .text raw
    · obtain ⟨front, back, rfl, settled, texts⟩ := ih
      refine ⟨front, back ++ [event], List.append_assoc .., settled, fun e he => ?_⟩
      rcases List.mem_append.mp he with he | he
      · exact texts e he
      · rwa [List.mem_singleton.mp he]
    · refine ⟨events ++ [event], [], (List.append_nil _).symm, fun raw last => ?_, by simp⟩
      rw [List.getLast?_concat, Option.some_inj] at last
      exact isText ⟨raw, last⟩

theorem events_append {cut : List Char} (nonempty : cut ≠ [])
    (whole : (events cut).failure = none) (lost : List Char) :
    ∃ front back, ∃ more : Events, (events cut).read = front ++ back ∧
      (∀ event ∈ back, ∃ raw, event = .text raw) ∧ events (cut ++ lost) = more.behind front := by
  -- Only texts at the end can run on in what follows, so the events in front of them stay.
  obtain ⟨front, back, read, settled, texts⟩ := exists_settled (events cut).read
  obtain ⟨rest, constructs⟩ := constructs_of_read_append read
  obtain ⟨start, parts, -, fares⟩ := constructs.read_on
  have told (more : List Char) : EndBefore front more := .inr settled
  rcases fares [] with ⟨inner, goes⟩ | ⟨stopped, failed, stops⟩
  · refine ⟨front, back, eventsFrom inner (rest ++ lost), read, texts, ?_⟩
    rw [← goes _ (told _), ← List.append_assoc, ← parts]
    exact congrArg (eventsFrom []) (withoutMark_append (.inl nonempty))
  · have here := stops rest (told rest)
    rw [← parts] at here
    exact absurd (here ▸ whole) failed

end WebSub.Markup

namespace WebSub.Feed

open Markup (Content Element Head pending)

/-! ## Where an entry ends -/

/-- The first entry is there as a whole: an end tag is read that closes it. -/
def EntryEnds (text : List Char) : Prop :=
  ∃ before name after, (Markup.events text).read = before ++ .close name :: after ∧
    before.foldl entryLevel none = some 1

/-- The text is read to its end without a mistake, and that is within its first entry. -/
def EndsWithin (text : List Char) : Prop :=
  (Markup.events text).failure = none ∧
    ∃ n, (Markup.events text).read.foldl entryLevel none = some (n + 1)

theorem entryLevel_ended (events : List Markup.Event) :
    events.foldl entryLevel (some 0) = some 0 := by
  induction events with
  | nil => rfl
  | cons event events ih =>
    cases event <;> exact ih

theorem EndsWithin.not_entryEnds {text : List Char} (within : EndsWithin text) :
    ¬ EntryEnds text := by
  rintro ⟨before, name, after, read, level⟩
  obtain ⟨-, n, deep⟩ := within
  rw [read, List.foldl_append, List.foldl_cons, level] at deep
  exact absurd ((entryLevel_ended after).symm.trans deep) (by simp)

theorem EndsWithin.nonempty {text : List Char} (within : EndsWithin text) : text ≠ [] := by
  rintro rfl
  obtain ⟨-, n, deep⟩ := within
  change (Markup.eventsFrom [] []).read.foldl entryLevel none = some (n + 1) at deep
  rw [Markup.eventsFrom] at deep
  cases deep

/-! ## Drafts on their way -/

/-- Whatever one draft has, the other one has as well. -/
structure Draft.Extends (d d' : Draft) : Prop where
  fields : ∀ field value, d.get field = some value → d'.get field = some value
  link : ∀ address, d.link = some address → d'.link = some address

namespace Draft.Extends

variable {d d' d'' : Draft} {field : Field} {e e' : Entry}

theorem refl (d : Draft) : d.Extends d := ⟨fun _ _ => id, fun _ => id⟩

theorem trans (first : d.Extends d') (second : d'.Extends d'') : d.Extends d'' :=
  ⟨fun field value h => second.fields field value (first.fields field value h),
    fun address h => second.link address (first.link address h)⟩

theorem fill (d : Draft) (field : Field) (value : String) : d.Extends (d.fill field value) where
  fields := by
    intro other v h
    rw [get_fill, h, Option.some_or]
  link := by
    intro address h
    rw [← h]
    cases field <;> rfl

theorem takeLink {tag : Markup.Tag} (taken : d.takeLink tag = .ok d') : d.Extends d' := by
  unfold Draft.takeLink at taken
  split at taken
  case h_1 => cases taken
  case h_2 values read =>
    have kept (own : Bool) (address : Option String) :
        d.Extends (if own ∧ d.link = none then { d with link := address } else d) := by
      split
      case isTrue free =>
        constructor
        · intro field value h
          cases field <;> exact h
        · intro address h
          rw [free.2] at h
          cases h
      case isFalse => exact .refl d
    rw [Except.ok.injEq] at taken
    rw [← taken]
    exact kept _ _

theorem required {value : String} (kept : d.Extends d') (h : d.required field = .ok value) :
    d'.required field = .ok value := by
  unfold Draft.required at h ⊢
  cases found : (d.get field).filter (· ≠ "") with
  | none => rw [found] at h; cases h
  | some v =>
    rw [found] at h
    obtain ⟨given, some⟩ := Option.filter_eq_some_iff.mp found
    rw [kept.fields field v given, Option.filter_some, if_pos some]
    exact h

theorem timestamp {stamp : Stamp} (kept : d.Extends d') (h : d.timestamp field = .ok stamp) :
    d'.timestamp field = .ok stamp := by
  unfold Draft.timestamp at h ⊢
  cases required : d.required field with
  | error e => rw [required] at h; cases h
  | ok value =>
    rw [required] at h
    rw [kept.required required]
    exact h

end Draft.Extends

/-! ## What an event can do -/

namespace State

/-- An event leads on with all that has been read, is the end tag of the entry, or is answered; with
success only if it is a notice. -/
inductive Fares (s : State) (event : Markup.Event) : Outcome → Prop where
  | more {t : State} (kept : s.draft.Extends t.draft) : Fares s event (.more t)
  | ended {name : List Char} {d : Nat} (close : event = .close name)
      (around : s.entryDepth = some d) (depth : s.depth - 1 = d) :
      Fares s event (.entryEnd { s with depth := s.depth - 1 })
  | refused (error : DecodeError) : Fares s event (.answer (.error error))
  | noticed {n : Notification} (notice : Tagged "deleted-entry" event)
      (deleted : n.isDeletion = true) : Fares s event (.answer (.ok n))

variable {s t : State} {level : Option Nat} {event : Markup.Event} {n : Notification}
  {failure : Option Markup.Error} {events : List Markup.Event} {e : Entry}

theorem Fares.same (draft : t.draft = s.draft) : Fares s event (.more t) := .more (draft ▸ .refl _)

theorem fares_deletion {tag : Markup.Tag} (tagged : event = .start tag ∨ event = .empty tag)
    (named : tag.localName = "deleted-entry".toList) : Fares s event (deletion tag) := by
  rw [deletion]
  cases Deletion.ofTag tag with
  | error error => exact .refused error
  | ok d => exact .noticed ⟨tag, tagged, named⟩ rfl

theorem fares_takeLink (t : State) (tag : Markup.Tag) :
    Fares s event (t.withDraft (s.draft.takeLink tag)) := by
  cases taken : s.draft.takeLink tag with
  | error error => exact .refused error
  | ok draft => exact .more (.takeLink taken)

theorem step_fares (s : State) (event : Markup.Event) : Fares s event (s.step event) := by
  cases event with
  | start tag =>
    rw [step, onStart]
    split
    case isTrue named => exact fares_deletion (.inl rfl) named
    split
    · split <;> exact .same rfl
    · split
      · split
        · exact fares_takeLink _ tag
        · split <;> exact .same rfl
      · exact .same rfl
  | empty tag =>
    rw [step, onEmpty]
    split
    case isTrue named => exact fares_deletion (.inr rfl) named
    split
    · split
      · exact fares_takeLink s tag
      · split
        · exact .more (.fill ..)
        · exact .same rfl
    · exact .same rfl
  | close name =>
    rw [step, onClose]
    split
    case h_1 => exact .same rfl
    case h_2 d around =>
      split
      · split
        · exact .same rfl
        · exact .more (.fill ..)
      · split
        case isTrue depth => exact .ended rfl around depth
        case isFalse => exact .same rfl
  | text raw =>
    rw [step, onText]
    split
    · exact .same rfl
    · split
      · exact .refused _
      · exact .same rfl
  | cdata text =>
    rw [step, onCdata]
    split <;> exact .same rfl
  | aside => exact .same rfl

theorem Place.more (place : Place level s) (goes : s.step event = .more t) :
    Place (entryLevel level event) t := by
  rcases place.step event with ⟨t', there, goes'⟩ | ⟨answer, answers⟩
  · rw [goes] at goes'
    cases goes'
    exact there
  · -- From a place it goes on to, the decoder would tell two mistakes apart.
    have first := answers (some .unclosedTag) []
    have second := answers (some .unclosedCdata) []
    rw [run_more goes] at first second
    cases first.trans second.symm

theorem Place.last {d : Nat} (place : Place level s) (around : s.entryDepth = some d)
    (depth : s.depth - 1 = d) : level = some 1 := by
  cases place with
  | before => cases around
  | inside inside d' here =>
    subst here
    cases inside with
    | between => rfl
    | within n draft kept =>
      cases around
      simp only [inChild] at depth
      omega

/-- Where an answer with success comes from: a notice, the end tag of the entry, or the end of a
text that was read without a mistake, within the entry. -/
theorem Place.concluded (place : Place level s) (answers : s.run failure events = .ok n) :
    (∃ before last after, events = before ++ last :: after ∧
      (Tagged "deleted-entry" last ∧ n.isDeletion = true ∨
        (∃ name, last = .close name) ∧ before.foldl entryLevel level = some 1)) ∨
    failure = none ∧ ∃ k, events.foldl entryLevel level = some (k + 1) := by
  induction events generalizing level s with
  | nil =>
    cases failure with
    | some mistake => cases answers
    | none =>
      cases place with
      | before => cases answers
      | inside inside d here =>
        obtain ⟨k, rfl⟩ := Nat.exists_eq_succ_of_ne_zero inside.positive.ne'
        exact .inr ⟨rfl, k, rfl⟩
  | cons event events ih =>
    have fares := s.step_fares event
    cases stepped : s.step event with
    | more t =>
      rw [run_more stepped] at answers
      refine (ih (place.more stepped) answers).imp_left ?_
      rintro ⟨before, last, after, rfl, concludes⟩
      exact ⟨event :: before, last, after, rfl, concludes⟩
    | entryEnd t =>
      rw [stepped] at fares
      cases fares with
      | ended close around depth =>
        exact .inl ⟨[], event, events, rfl, .inr ⟨⟨_, close⟩, place.last around depth⟩⟩
    | answer result =>
      rw [run_answer stepped] at answers
      subst answers
      rw [stepped] at fares
      cases fares with
      | noticed notice deleted => exact .inl ⟨[], event, events, rfl, .inl ⟨notice, deleted⟩⟩

/-! ## What is reported -/

theorem finish_ok (told : s.finish = .ok n) : ∃ e, n = .entry e ∧ s.draft.toEntry = .ok e := by
  rw [finish] at told
  split at told
  case isFalse => cases told
  case isTrue =>
    cases read : s.draft.toEntry with
    | error error => rw [read] at told; cases told
    | ok e => rw [read] at told; cases told; exact ⟨e, rfl, rfl⟩

theorem run_extends (answers : s.run failure events = .ok (.entry e)) :
    ∃ d, s.draft.Extends d ∧ d.toEntry = .ok e := by
  induction events generalizing s with
  | nil =>
    cases failure with
    | some mistake => cases answers
    | none =>
      obtain ⟨e', same, read⟩ := finish_ok answers
      cases same
      exact ⟨s.draft, .refl _, read⟩
  | cons event events ih =>
    have fares := s.step_fares event
    cases stepped : s.step event with
    | more t =>
      rw [run_more stepped] at answers
      rw [stepped] at fares
      cases fares with
      | more kept =>
        obtain ⟨d, further, reported⟩ := ih answers
        exact ⟨d, kept.trans further, reported⟩
    | entryEnd t =>
      rw [run_entryEnd stepped] at answers
      rw [stepped] at fares
      cases fares with
      | ended =>
        obtain ⟨e', same, read⟩ := finish_ok answers
        cases same
        exact ⟨s.draft, .refl _, read⟩
    | answer result =>
      rw [run_answer stepped] at answers
      subst answers
      rw [stepped] at fares
      cases fares with
      | noticed notice deleted => cases deleted

theorem step_text (s : State) (raw : List Char) :
    (∃ text, s.step (.text raw) = .more { s with text }) ∨
      ∃ error, s.step (.text raw) = .answer (.error error) := by
  rw [step]
  rcases Option.eq_none_or_eq_some s.capture with unheard | ⟨field, heard⟩
  · have goes : s.onText raw = .more s := by rw [onText, unheard]
    exact .inl ⟨s.text, goes⟩
  · cases read : Markup.unescape raw with
    | ok text =>
      refine .inl ⟨s.text ++ text, ?_⟩
      rw [onText, heard, read]
    | error mistake =>
      refine .inr ⟨.malformed mistake, ?_⟩
      rw [onText, heard, read]

theorem run_texts (texts : ∀ event ∈ events, ∃ raw, event = .text raw)
    (answers : s.run none events = .ok n) : s.finish = .ok n := by
  induction events generalizing s with
  | nil => exact answers
  | cons event events ih =>
    obtain ⟨raw, rfl⟩ := texts event List.mem_cons_self
    have others := fun event mem => texts event (List.mem_cons_of_mem _ mem)
    rcases s.step_text raw with ⟨text, goes⟩ | ⟨error, refused⟩
    · rw [run_more goes] at answers
      have told := ih others answers
      exact told
    · rw [run_answer refused] at answers
      cases answers

end State

/-! ## Entries that agree -/

namespace Draft

variable {d d' : Draft} {e e' : Entry}

theorem toEntry_ok (told : d.toEntry = .ok e) :
    d.required .videoId = .ok e.videoId ∧ d.required .channelId = .ok e.channelId ∧
      d.required .title = .ok e.title ∧ d.timestamp .published = .ok e.publishedAt ∧
      d.timestamp .updated = .ok e.updatedAt ∧
      e.url = (d.link.filter (· ≠ "")).getD (watchUrl e.videoId) := by
  unfold toEntry at told
  cases videoId : d.required .videoId with
  | error error => rw [videoId] at told; cases told
  | ok v =>
  cases channelId : d.required .channelId with
  | error error => rw [videoId, channelId] at told; cases told
  | ok c =>
  cases title : d.required .title with
  | error error => rw [videoId, channelId, title] at told; cases told
  | ok t =>
  cases published : d.timestamp .published with
  | error error => rw [videoId, channelId, title, published] at told; cases told
  | ok p =>
  cases updated : d.timestamp .updated with
  | error error => rw [videoId, channelId, title, published, updated] at told; cases told
  | ok u =>
    rw [videoId, channelId, title, published, updated] at told
    cases told
    exact ⟨rfl, rfl, rfl, rfl, rfl, rfl⟩

theorem Extends.toEntry (kept : d.Extends d') (told : d.toEntry = .ok e)
    (told' : d'.toEntry = .ok e') :
    ∃ url, (url = e'.url ∨ url = watchUrl e'.videoId) ∧ e = { e' with url } := by
  obtain ⟨videoId, channelId, title, published, updated, url⟩ := toEntry_ok told
  obtain ⟨videoId', channelId', title', published', updated', url'⟩ := toEntry_ok told'
  rw [kept.required videoId, Except.ok.injEq] at videoId'
  rw [kept.required channelId, Except.ok.injEq] at channelId'
  rw [kept.required title, Except.ok.injEq] at title'
  rw [kept.timestamp published, Except.ok.injEq] at published'
  rw [kept.timestamp updated, Except.ok.injEq] at updated'
  refine ⟨e.url, ?_, ?_⟩
  · rw [← videoId', url]
    cases link : d.link with
    | none => exact .inr rfl
    | some address =>
      rw [url', kept.link address link, videoId']
      exact .inl rfl
  · rw [← videoId', ← channelId', ← title', ← published', ← updated']

end Draft

/-! ## Two readings of one entry -/

theorem decode_append_of_notice {cut : List Char} {before after : List Markup.Event}
    {last : Markup.Event} (read : (Markup.events cut).read = before ++ last :: after)
    (notice : Tagged "deleted-entry" last) (lost : List Char) :
    decode (cut ++ lost) = decode cut := by
  have front : (Markup.events cut).read = (before ++ [last]) ++ after := by
    rw [read, List.append_assoc, List.singleton_append]
  obtain ⟨rest, constructs⟩ := Markup.constructs_of_read_append front
  obtain ⟨whole, parts, -⟩ := constructs.read_on
  obtain ⟨mark, marked⟩ := Markup.exists_mark cut
  rw [parts, ← List.append_assoc] at marked
  have stops : StopsBetween (mark ++ whole) rest :=
    ⟨before, last, marked ▸ constructs, .inl notice⟩
  rw [marked, List.append_assoc, decode_stopped stops, decode_stopped stops]

theorem decode_concluded {text : List Char} {n : Notification}
    (told : decode text = .ok n) :
    (∃ before last after, (Markup.events text).read = before ++ last :: after ∧
      Tagged "deleted-entry" last ∧ n.isDeletion = true) ∨ EntryEnds text ∨ EndsWithin text := by
  rcases (State.Place.before 0).concluded told with
    ⟨before, last, after, read, notice | ⟨⟨name, rfl⟩, level⟩⟩ | within
  · exact .inl ⟨before, last, after, read, notice⟩
  · exact .inr (.inl ⟨before, name, after, read, level⟩)
  · exact .inr (.inr within)

theorem decode_of_endsWithin {cut lost : List Char} {n : Notification} {e : Entry}
    (within : EndsWithin cut) (here : decode cut = .ok n)
    (told : decode (cut ++ lost) = .ok (.entry e)) :
    ∃ url, (url = e.url ∨ url = watchUrl e.videoId) ∧ n = .entry { e with url } := by
  obtain ⟨front, back, more, read, texts, goes⟩ :=
    Markup.events_append within.nonempty within.1 lost
  rw [decode, read, within.1] at here
  rw [decode, goes] at told
  rcases (State.Place.before 0).run_append front with ⟨t, -, runs⟩ | ⟨answer, answers⟩
  · have finished := State.run_texts texts ((runs none back).symm.trans here)
    obtain ⟨e', rfl, less⟩ := State.finish_ok finished
    obtain ⟨d, kept, reported⟩ :=
      State.run_extends ((runs more.failure more.read).symm.trans told)
    obtain ⟨url, page, rfl⟩ := kept.toEntry less reported
    exact ⟨url, page, rfl⟩
  · have same := (answers none back).symm.trans here
    have entry := (answers more.failure more.read).symm.trans told
    rw [same, Except.ok.injEq] at entry
    exact ⟨e.url, .inl rfl, entry⟩

/-! ## Entries without an end tag -/

theorem foldl_entryLevel_events (c : Content) : ∀ (before : List Char) (n : Nat),
    (c.events before).foldl entryLevel (some (n + 1)) = some (n + 1) := by
  have text (chars : List Char) (n : Nat) :
      (pending chars).foldl entryLevel (some (n + 1)) = some (n + 1) := by
    unfold pending
    split <;> rfl
  induction c with
  | nil => exact text
  | text chars next ih => exact fun before => ih (before ++ chars)
  | element head inside next insideStays nextStays =>
    intro before n
    rw [Content.events, List.foldl_append, text, List.foldl_cons, List.foldl_append]
    have deeper : entryLevel (some (n + 1)) (.start head.tag) = some (n + 2) := rfl
    rw [deeper, insideStays [] (n + 1), List.foldl_cons]
    exact nextStays [] n
  | _ data next ih =>
    intro before n
    rw [Content.events, List.foldl_append, text, List.foldl_cons]
    exact ih [] n

theorem endsWithin_writeOpen {e : Element} (entry : e.named "entry" = true) :
    EndsWithin e.writeOpen := by
  have begins : entryLevel none (.start e.head.tag) = some 1 := by
    rw [entryLevel, Head.tag_localName, if_pos (Element.named_iff.mp entry)]
  refine ⟨by rw [Markup.events_writeOpen], 0, ?_⟩
  rw [Markup.events_writeOpen, List.foldl_cons, begins]
  exact foldl_entryLevel_events e.inside [] 0

theorem decode_writeOpen {e : Element} (entry : e.named "entry" = true) :
    decode e.writeOpen = decode e.write := by
  have opens := State.step_entry 0 (e.head.tag_localName.trans (Element.named_iff.mp entry))
  have ends (draft : Draft) : (State.reading 0 draft).run none [] = draft.toEntry.map .entry := rfl
  have unclosed : (State.outside 0).run none (.start e.head.tag :: (e.inside.events [] ++ [])) =
      unlessDeleted e.inside.elements ((entryOf e).map .entry) := by
    rw [State.run_more opens, State.run_reading, ends, Draft.toEntry_absorbed]
  have closed : (State.outside 0).run none
      (.start e.head.tag :: (e.inside.events [] ++ [.close e.head.name.write])) = _ :=
    State.run_entry 0 entry []
  rw [List.append_nil] at unclosed
  rw [decode, decode, Markup.events_writeOpen, Markup.events_write]
  exact unclosed.trans closed.symm

/-! ## Feeds cut short -/

/-- An entry that is reported ends in the text unless the text ends in it. A front part in which it
does not end fails, or ends in it and says what the whole text says, but perhaps for the address of
the page; and every written entry without its end tag is a text that ends in its entry. -/
theorem decode_truncated (text : List Char) :
    (∀ e, decode text = .ok (.entry e) → (EntryEnds text ↔ ¬ EndsWithin text) ∧
      ∀ cut lost, text = cut ++ lost → ¬ EntryEnds cut →
        (∃ error, decode cut = .error error) ∨
          EndsWithin cut ∧ ∃ url, (url = e.url ∨ url = watchUrl e.videoId) ∧
            decode cut = .ok (.entry { e with url })) ∧
    ∀ entry : Element, entry.named "entry" = true → text = entry.writeOpen →
      EndsWithin text ∧ decode text = decode entry.write := by
  refine ⟨fun e told => ⟨⟨fun ends within => within.not_entryEnds ends, fun closed => ?_⟩, ?_⟩, ?_⟩
  · rcases decode_concluded told with ⟨before, last, after, -, -, deleted⟩ | ends | within
    · cases deleted
    · exact ends
    · exact absurd within closed
  · rintro cut lost rfl unended
    cases here : decode cut with
    | error error => exact .inl ⟨error, rfl⟩
    | ok n =>
      right
      rcases decode_concluded here with ⟨before, last, after, read, notice, deleted⟩ | ends | within
      · rw [decode_append_of_notice read notice, here] at told
        cases told
        cases deleted
      · exact absurd ends unended
      · obtain ⟨url, page, rfl⟩ := decode_of_endsWithin within here told
        exact ⟨within, url, page, rfl⟩
  · rintro entry named rfl
    exact ⟨endsWithin_writeOpen named, decode_writeOpen named⟩

/-! ## A video without its end tag -/

theorem decode_truncated_sampleVideo :
    ∃ e, decode (sampleVideo.writeOpen ++ sampleVideo.head.writeEnd) = .ok (.entry e) ∧
      (EntryEnds (sampleVideo.writeOpen ++ sampleVideo.head.writeEnd) ↔
        ¬ EndsWithin (sampleVideo.writeOpen ++ sampleVideo.head.writeEnd)) ∧
      sampleVideo.named "entry" = true ∧ EndsWithin sampleVideo.writeOpen ∧
      ¬ EntryEnds sampleVideo.writeOpen ∧
      ((∃ error, decode sampleVideo.writeOpen = .error error) ∨
        EndsWithin sampleVideo.writeOpen ∧ ∃ url, (url = e.url ∨ url = watchUrl e.videoId) ∧
          decode sampleVideo.writeOpen = .ok (.entry { e with url })) := by
  obtain ⟨e, told⟩ := decode_sampleVideo
  have within := ((decode_truncated sampleVideo.writeOpen).2 sampleVideo named_sampleVideo rfl).1
  have ⟨ends, cuts⟩ := (decode_truncated _).1 e told
  exact ⟨e, told, ends, named_sampleVideo, within, within.not_entryEnds,
    cuts _ _ rfl within.not_entryEnds⟩

/-- A video is reported though the end tag of its entry has not come. -/
theorem reported_without_end_tag :
    ¬ ∀ text e, decode text = .ok (.entry e) → EntryEnds text := by
  intro claim
  obtain ⟨e, told⟩ := decode_sampleVideo
  have ends := claim sampleVideo.writeOpen e ((decode_writeOpen named_sampleVideo).trans told)
  exact (endsWithin_writeOpen named_sampleVideo).not_entryEnds ends

end WebSub.Feed
