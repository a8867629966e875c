import WebSub.Proofs.Feed.Scan

/-!
# The first entry alone

The answer to a feed is settled by the end of its first entry, or by a deletion notice before that,
and nothing in front of the entry has a part in it.
-/

namespace WebSub.Feed

open Markup (Constructs Content Element EndsText EndBefore Head pending)

/-- A tag with this local name, be it of a start or of an empty element. -/
def Tagged (name : String) (event : Markup.Event) : Prop :=
  ∃ tag, (event = .start tag ∨ event = .empty tag) ∧ tag.localName = name.toList

/-! ## Behind the entry -/

/-- What the decoder stops at: a deletion notice or the end tag of the first entry. -/
def Concludes (before : List Markup.Event) (last : Markup.Event) : Prop :=
  Tagged "deleted-entry" last ∨
    (∃ name, last = .close name) ∧ before.foldl entryLevel none = some 1

/-- The decoder comes to a stop in a text just where `rest` begins. -/
def StopsBetween (read rest : List Char) : Prop :=
  ∃ before last, Constructs (Markup.withoutMark (read ++ rest)) (before ++ [last]) rest ∧
    Concludes before last

theorem Concludes.not_text {before : List Markup.Event} {last : Markup.Event}
    (concludes : Concludes before last) (raw : List Char) : last ≠ .text raw := by
  rintro rfl
  rcases concludes with ⟨tag, tagged | tagged, -⟩ | ⟨⟨name, close⟩, -⟩
  · cases tagged
  · cases tagged
  · cases close

namespace State

theorem Place.settled {s : State} (place : Place none s) {before : List Markup.Event}
    {last : Markup.Event} (concludes : Concludes before last) :
    ∃ answer, ∀ failure more, s.run failure (before ++ last :: more) = answer := by
  rcases place.run_append before with ⟨t, there, goes⟩ | ⟨answer, answers⟩
  · simp only [goes]
    rcases concludes with ⟨tag, tagged, notice⟩ | ⟨⟨name, rfl⟩, atEntry⟩
    · exact ⟨_, t.run_notice_tag notice tagged⟩
    · rw [atEntry] at there
      cases there with
      | inside inside d here =>
        subst here
        rcases inside.step (.close name) with ⟨level', next, shallower, deep, -⟩ | ⟨answer, answers⟩
        · cases shallower
          cases deep
        · exact ⟨answer, answers d⟩
  · exact ⟨answer, fun failure more => answers failure (last :: more)⟩

end State

theorem decode_stopped {read rest : List Char} (stops : StopsBetween read rest)
    (other : List Char) : decode (read ++ other) = decode read := by
  obtain ⟨before, last, constructs, concludes⟩ := stops
  obtain ⟨whole, cut, blank, fares⟩ := constructs.read_on
  have unread : whole ≠ [] := mt blank.mp (by simp)
  have some : read ≠ [] := by
    rintro rfl
    have short := Markup.withoutMark_length rest
    have long := List.length_pos_iff.mpr unread
    have sizes := congrArg List.length cut
    simp only [List.nil_append, List.length_append] at sizes
    omega
  have front (more : List Char) : Markup.withoutMark (read ++ more) = whole ++ more := by
    rw [Markup.withoutMark_append (.inl some)] at cut ⊢
    rw [List.append_cancel_right cut]
  have told (more : List Char) : EndBefore (before ++ [last]) more :=
    .inr fun raw => by simpa using concludes.not_text raw
  obtain ⟨answer, settled⟩ := (State.Place.before 0).settled concludes
  have scanned : ∃ answer, ∀ more, State.scan {} [] (whole ++ more) = answer := by
    rcases fares [] with ⟨inner, goes⟩ | ⟨stopped, -, stops⟩
    · refine ⟨answer, fun more => ?_⟩
      rw [State.scan_behind (goes more (told more)), List.append_assoc]
      exact settled _ _
    · exact ⟨State.run {} stopped.failure stopped.read, fun more => by
        rw [State.scan, stops more (told more)]⟩
  obtain ⟨answer, scanned⟩ := scanned
  have whole_read := front []
  rw [List.append_nil] at whole_read
  rw [decode_eq_scan, decode_eq_scan, front, whole_read, scanned, scanned]

/-! ## In front of the entry -/

/-- A text that is read to its end without a mistake and holds neither an entry nor a notice. -/
structure Lead (text : List Char) : Prop where
  whole : (Markup.events text).failure = none
  clear : ∀ event ∈ (Markup.events text).read,
    ¬ Tagged "entry" event ∧ ¬ Tagged "deleted-entry" event

/-- A text that begins with the start tag of an entry. -/
def BeginsEntry (text : List Char) : Prop :=
  ∃ tag s, Markup.next [] text = .ok s ∧ s.event = .start tag ∧ tag.localName = "entry".toList

theorem entryLevel_enter {event : Markup.Event} {name : List Char} {inner opened : List (List Char)}
    (enters : event.enter (name :: inner) = .ok opened) :
    entryLevel (some (name :: inner).length) event = some opened.length := by
  cases event with
  | close found =>
    cases Markup.Event.enter_close enters
    rfl
  | _ => cases enters; rfl

namespace State

theorem Inside.positive {level : Nat} {place : Nat → State} (inside : Inside level place) :
    0 < level := by
  cases inside with
  | between => exact Nat.one_pos
  | within n => exact Nat.succ_pos _

theorem Inside.finish {level : Nat} {place : Nat → State} (inside : Inside level place)
    (d d' : Nat) : (place d).finish = (place d').finish := by
  cases inside with
  | between => rfl
  | within => rfl

theorem Inside.scan_beneath {level : Nat} {place : Nat → State} (inside : Inside level place)
    {inner : List (List Char)} (deep : inner.length = level) (text : List Char) (d d' : Nat)
    (outer outer' : List (List Char)) :
    (place d).scan (inner ++ outer) text = (place d').scan (inner ++ outer') text := by
  induction size : text.length using Nat.strongRecOn generalizing level place inner text with
  | _ n ih =>
    subst size
    by_cases none : text = []
    · subst none
      rw [scan_nil, scan_nil, inside.finish]
    obtain ⟨name, inner, rfl⟩ := List.exists_cons_of_length_pos (deep ▸ inside.positive)
    cases read : Markup.next (name :: inner) text with
    | error e =>
      have fails (outer : List (List Char)) :
          Markup.next (name :: inner ++ outer) text = .error e := by
        rw [Markup.next_beneath, read]
        rfl
      rw [scan_of_mistake none (fails outer), scan_of_mistake none (fails outer')]
    | ok s =>
      have reads (outer : List (List Char)) : Markup.next (name :: inner ++ outer) text =
          .ok { s with opened := s.opened ++ outer } := by
        rw [Markup.next_beneath, read]
        rfl
      rw [scan_of_next none (reads outer), scan_of_next none (reads outer')]
      rcases inside.step s.event with ⟨level', next, deeper, inside', goes⟩ | ⟨answer, answers⟩
      · rw [← deep, entryLevel_enter (Markup.next_enters read), Option.some_inj] at deeper
        obtain ⟨c, more, rfl⟩ := List.exists_cons_of_ne_nil none
        rw [run_more (goes d), run_more (goes d')]
        exact ih s.rest.length (Markup.next_rest read) inside' deeper s.rest rfl
      · rw [answers, answers]

theorem run_lead {events : List Markup.Event}
    (clear : ∀ event ∈ events, ¬ Tagged "entry" event ∧ ¬ Tagged "deleted-entry" event) (d : Nat) :
    ∃ d', ∀ failure more,
      (outside d).run failure (events ++ more) = (outside d').run failure more := by
  induction events generalizing d with
  | nil => exact ⟨d, fun _ _ => rfl⟩
  | cons event events ih =>
    have ⟨entry, notice⟩ := clear event List.mem_cons_self
    obtain ⟨d₁, goes⟩ : ∃ d₁, (outside d).step event = .more (outside d₁) := by
      cases event with
      | start tag =>
        have unnoticed : ¬ tag.localName = "deleted-entry".toList :=
          fun named => notice ⟨tag, .inl rfl, named⟩
        have other : ¬ tag.localName = "entry".toList := fun named => entry ⟨tag, .inl rfl, named⟩
        exact ⟨d + 1, by simp only [step_outside, if_neg unnoticed, if_neg other]⟩
      | empty tag =>
        have unnoticed : ¬ tag.localName = "deleted-entry".toList :=
          fun named => notice ⟨tag, .inr rfl, named⟩
        exact ⟨d, by simp only [step_outside, if_neg unnoticed]⟩
      | _ => exact ⟨_, step_outside d _⟩
    obtain ⟨d', rest⟩ := ih (fun e he => clear e (List.mem_cons_of_mem event he)) d₁
    exact ⟨d', fun failure more => by rw [List.cons_append, run_more goes, rest]⟩

end State

theorem BeginsEntry.scan {text : List Char} (entry : BeginsEntry text) :
    EndsText text ∧ ∃ name rest, ∀ d opened,
      (State.outside d).scan opened text = (State.reading d {}).scan (name :: opened) rest := by
  obtain ⟨tag, s, read, start, named⟩ := entry
  have begun : text ≠ [] := by
    rintro rfl
    cases read
    cases start
  obtain ⟨whole, cut, -, front | ⟨⟨raw, isText⟩, -⟩, reads⟩ := Markup.next_apart begun read
  · refine ⟨?_, tag.name, s.rest, fun d opened => ?_⟩
    · obtain ⟨more, rfl⟩ := List.head?_eq_some_iff.mp front
      exact .inr ⟨_, cut⟩
    · have again := reads s.rest (.inl front) opened
      rw [← cut, start] at again
      rw [State.scan_of_next begun again]
      exact State.run_more (State.step_entry d named) _
  · rw [start] at isText
    cases isText

theorem decode_behind_lead {lead text : List Char} (before : Lead lead) (entry : BeginsEntry text) :
    decode (lead ++ text) = decode text := by
  obtain ⟨ends, name, rest, begins⟩ := entry.scan
  obtain ⟨whole, cut, -, fares⟩ := (Markup.constructs_of_read before.whole).read_on
  rw [List.append_nil] at cut
  have told (more : List Char) (h : EndsText more) :
      EndBefore (Markup.eventsFrom [] (Markup.withoutMark lead)).read more := .inl h
  rw [decode_of_endsText ends, decode_eq_scan, Markup.withoutMark_append (.inr ends), cut]
  rcases fares [] with ⟨inner, goes⟩ | ⟨stopped, failed, stops⟩
  · obtain ⟨d, passes⟩ := State.run_lead before.clear 0
    have led : State.scan {} [] (whole ++ text) = (State.outside d).scan inner text := by
      rw [State.scan_behind (goes text (told text ends))]
      exact passes _ _
    rw [led, begins]
    refine Eq.trans ?_ (begins 0 []).symm
    have one : [name].length = 1 := rfl
    exact (State.Inside.between {}).scan_beneath one rest d 0 inner []
  · have stopped_here := stops [] (told [] (.inl rfl))
    rw [List.append_nil, ← cut] at stopped_here
    exact absurd (stopped_here ▸ before.whole) failed

/-! ## What leads up to an entry -/

theorem lead_nil : Lead [] := by
  have read : Markup.events [] = ⟨[], none⟩ := by
    rw [Markup.events, Markup.withoutMark, Markup.eventsFrom]
    simp
  exact ⟨by rw [read], by simp [read]⟩

theorem not_tagged_pending {name : String} {before : List Char} {event : Markup.Event}
    (mem : event ∈ pending before) : ¬ Tagged name event := by
  unfold pending at mem
  split at mem
  · cases mem
  · rw [List.mem_singleton] at mem
    subst mem
    rintro ⟨tag, start | empty, -⟩
    · cases start
    · cases empty

theorem named_of_tagged {name : String} {event : Markup.Event} (tagged : Tagged name event)
    (c : Content) : ∀ before, event ∈ c.events before → ∃ e ∈ c.elements, e.named name = true := by
  obtain ⟨tag, isTag, named⟩ := tagged
  induction c with
  | nil => exact fun before mem => absurd ⟨tag, isTag, named⟩ (not_tagged_pending mem)
  | text chars next ih => exact fun before mem => ih (before ++ chars) mem
  | element head inside next insideNamed nextNamed =>
    intro before mem
    rw [Content.events, List.mem_append, List.mem_cons, List.mem_append, List.mem_cons] at mem
    rcases mem with mem | rfl | mem | rfl | mem
    · exact absurd ⟨tag, isTag, named⟩ (not_tagged_pending mem)
    · refine ⟨⟨head, inside⟩, List.mem_cons_self, Element.named_iff.mpr ?_⟩
      rcases isTag with start | empty
      · cases start
        rw [← named, Head.tag_localName]
      · cases empty
    · obtain ⟨e, there, same⟩ := insideNamed [] mem
      exact ⟨e, List.mem_cons_of_mem _ (List.mem_append_left _ there), same⟩
    · rcases isTag with start | empty
      · cases start
      · cases empty
    · obtain ⟨e, there, same⟩ := nextNamed [] mem
      exact ⟨e, List.mem_cons_of_mem _ (List.mem_append_right _ there), same⟩
  | _ data next ih =>
    intro before mem
    rw [Content.events, List.mem_append, List.mem_cons] at mem
    rcases mem with mem | rfl | mem
    · exact absurd ⟨tag, isTag, named⟩ (not_tagged_pending mem)
    · rcases isTag with start | empty
      · cases start
      · cases empty
    · exact ih [] mem

theorem lead_writeOpen {e : Element} (clear : ∀ x ∈ e.elements,
    x.named "entry" = false ∧ x.named "deleted-entry" = false) : Lead e.writeOpen := by
  have unnamed {name : String} (none : ∀ x ∈ e.elements, x.named name = false) :
      ∀ event ∈ (Markup.events e.writeOpen).read, ¬ Tagged name event := by
    rw [Markup.events_writeOpen]
    intro event mem tagged
    have whole : event ∈ (Content.element e.head e.inside .nil).events [] := by
      rw [Content.events]
      rcases List.mem_cons.mp mem with rfl | mem
      · simp
      · simp [mem]
    obtain ⟨x, there, named⟩ := named_of_tagged tagged _ [] whole
    rw [Content.elements, Content.elements, List.append_nil] at there
    rw [none x there] at named
    cases named
  refine ⟨by rw [Markup.events_writeOpen], fun event mem => ⟨?_, ?_⟩⟩
  · exact unnamed (fun x hx => (clear x hx).1) event mem
  · exact unnamed (fun x hx => (clear x hx).2) event mem

/-! ## The whole -/

/-- Whatever follows the first entry, or a notice that is met before its end, and whatever stands in
front of it, the decoder's answer is the same. -/
theorem decode_first_entry_alone :
    (∀ read rest, StopsBetween read rest → ∀ other, decode (read ++ other) = decode read) ∧
    ∀ lead lead' text, Lead lead → Lead lead' → BeginsEntry text →
      decode (lead ++ text) = decode (lead' ++ text) := by
  refine ⟨fun read rest stops other => decode_stopped stops other,
    fun lead lead' text before before' entry => ?_⟩
  rw [decode_behind_lead before entry, decode_behind_lead before' entry]

/-! ## A feed with a title of its own -/

/-- The head of an element with a plain name and no attributes. -/
def plainHead (name : String) (nonempty : name.toList ≠ [])
    (plain : (name.toList.all fun c => Markup.isNameChar c && c != ':') = true) : Head where
  name := ⟨none, name.toList, nonempty, fun c mem => by
    simpa using List.all_eq_true.mp plain c mem⟩
  attributes := []
  distinct := .nil

def sampleVideo : Element where
  head := plainHead "entry" (by decide) (by decide)
  inside :=
    .element (plainHead "videoId" (by decide) (by decide)) (.text "v".toList .nil) <|
    .element (plainHead "channelId" (by decide) (by decide)) (.text "c".toList .nil) <|
    .element (plainHead "title" (by decide) (by decide)) (.text "t".toList .nil) <|
    .element (plainHead "published" (by decide) (by decide))
      (.text "2026-01-01T00:00:00Z".toList .nil) <|
    .element (plainHead "updated" (by decide) (by decide))
      (.text "2026-01-01T00:00:00Z".toList .nil) .nil

theorem named_sampleVideo : sampleVideo.named "entry" = true := rfl

theorem decode_sampleVideo : ∃ e, decode sampleVideo.write = .ok (.entry e) := by
  rw [decode, Markup.events_write, State.run_document]
  exact ⟨_, rfl⟩

/-- A feed with a title and a page of its own, and whatever comes behind them. -/
def sampleNews (next : Content) : Element where
  head := plainHead "feed" (by decide) (by decide)
  inside :=
    .element (plainHead "title" (by decide) (by decide)) (.text "News".toList .nil) <|
    .element
      { plainHead "link" (by decide) (by decide) with
        attributes :=
          [((plainHead "href" (by decide) (by decide)).name, "https://news.example/".toList)]
        distinct := by decide }
      .nil next

def sampleIssue : Element := sampleNews (.element sampleVideo.head sampleVideo.inside .nil)

theorem lead_sampleNews : Lead (sampleNews .nil).writeOpen := lead_writeOpen (by decide)

theorem write_sampleIssue :
    (sampleNews .nil).writeOpen ++ sampleVideo.write = sampleIssue.writeOpen := by
  decide +kernel

theorem stopsBetween_sample :
    StopsBetween ((sampleNews .nil).writeOpen ++ sampleVideo.write) [] := by
  have read := Markup.events_writeOpen sampleIssue
  have whole : (Markup.events sampleIssue.writeOpen).failure = none := by rw [read]
  have constructs := Markup.constructs_of_read whole
  rw [write_sampleIssue]
  refine ⟨(Markup.events sampleIssue.writeOpen).read.dropLast, .close "entry".toList, ?_,
    .inr ⟨⟨_, rfl⟩, ?_⟩⟩
  · have last : (Markup.events sampleIssue.writeOpen).read =
        (Markup.events sampleIssue.writeOpen).read.dropLast ++ [.close "entry".toList] := by
      rw [read]
      rfl
    rw [List.append_nil, ← last]
    exact constructs
  · rw [read]
    rfl

theorem beginsEntry_sampleVideo : BeginsEntry sampleVideo.write := ⟨_, _, rfl, rfl, rfl⟩

/-- Neither the feed's own title and page nor the mistake behind the entry have a part in it. -/
theorem decode_sample_entry_alone :
    StopsBetween ((sampleNews .nil).writeOpen ++ sampleVideo.write) [] ∧ Lead [] ∧
    Lead (sampleNews .nil).writeOpen ∧ BeginsEntry sampleVideo.write ∧
    ∃ e, e.title = "t" ∧ e.url = watchUrl "v" ∧
      decode ([] ++ sampleVideo.write) = .ok (.entry e) ∧
      decode ((sampleNews .nil).writeOpen ++ sampleVideo.write) = .ok (.entry e) ∧
      decode ((sampleNews .nil).writeOpen ++ sampleVideo.write ++ "<entry></title>".toList) =
        .ok (.entry e) := by
  have alone : ∃ e, decode ([] ++ sampleVideo.write) = .ok (.entry e) ∧ e.title = "t" ∧
      e.url = watchUrl "v" := by
    rw [List.nil_append, decode, Markup.events_write, State.run_document]
    exact ⟨_, rfl, rfl, rfl⟩
  obtain ⟨e, alone, title, url⟩ := alone
  have led := decode_first_entry_alone.2 _ _ _ lead_nil lead_sampleNews beginsEntry_sampleVideo
  have behind := decode_first_entry_alone.1 _ _ stopsBetween_sample "<entry></title>".toList
  exact ⟨stopsBetween_sample, lead_nil, lead_sampleNews, beginsEntry_sampleVideo, e, title, url,
    alone, led.symm.trans alone, behind.trans (led.symm.trans alone)⟩

end WebSub.Feed
