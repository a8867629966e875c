import WebSub.Feed.Notification
import WebSub.Markup.Attribute
import WebSub.Markup.Reader
import WebSub.Text.Utf8
import WebSub.Topic

/-!
# Decoding feeds

A feed is read event by event up to the end of its first entry, or up to a deletion notice if one
comes first. Only direct children of the entry are its fields, and the first of a kind counts.
-/

namespace WebSub.Feed

/-- The fields of an entry that hold text. -/
inductive Field where
  | videoId
  | channelId
  | title
  | published
  | updated
deriving DecidableEq, Repr

namespace Field

def name : Field → String
  | .videoId => "videoId"
  | .channelId => "channelId"
  | .title => "title"
  | .published => "published"
  | .updated => "updated"

/-- The field that an element of this local name holds. -/
def ofLocalName? (name : List Char) : Option Field :=
  [videoId, channelId, title, published, updated].find? (·.name.toList == name)

end Field

/-! ## Errors -/

inductive DecodeError where
  | invalidEncoding
  | malformed (cause : Markup.Error)
  | noEntry
  | missing (field : Field)
  | invalidTimestamp (field : Field) (value : String)
deriving DecidableEq, Repr

namespace DecodeError

def message : DecodeError → String
  | .invalidEncoding => "payload is not valid UTF-8"
  | .malformed cause => "malformed XML: " ++ cause.message
  | .noEntry => "feed contains no entry"
  | .missing field => "entry is missing " ++ field.name
  | .invalidTimestamp field value =>
    "entry has invalid " ++ field.name ++ " timestamp: " ++ value

def field? : DecodeError → Option Field
  | .missing field => some field
  | .invalidTimestamp field _ => some field
  | _ => none

end DecodeError

/-! ## What has been read of an entry -/

/-- The texts of an entry's fields so far and the address of its page. -/
structure Draft where
  videoId : Option String := none
  channelId : Option String := none
  title : Option String := none
  published : Option String := none
  updated : Option String := none
  link : Option String := none
deriving DecidableEq, Repr

namespace Draft

def get (d : Draft) : Field → Option String
  | .videoId => d.videoId
  | .channelId => d.channelId
  | .title => d.title
  | .published => d.published
  | .updated => d.updated

def fill (d : Draft) (field : Field) (value : String) : Draft :=
  match field with
  | .videoId => { d with videoId := d.videoId.or (some value) }
  | .channelId => { d with channelId := d.channelId.or (some value) }
  | .title => { d with title := d.title.or (some value) }
  | .published => { d with published := d.published.or (some value) }
  | .updated => { d with updated := d.updated.or (some value) }

def required (d : Draft) (field : Field) : Except DecodeError String :=
  match (d.get field).filter (· ≠ "") with
  | some value => .ok value
  | none => .error (.missing field)

def timestamp (d : Draft) (field : Field) : Except DecodeError Stamp := do
  let value ← d.required field
  match Stamp.ofText? value.toList with
  | some stamp => .ok stamp
  | none => .error (.invalidTimestamp field value)

/-- The finished entry; without an address of its own it is given the video's page. -/
def toEntry (d : Draft) : Except DecodeError Entry := do
  let videoId ← d.required .videoId
  let channelId ← d.required .channelId
  let title ← d.required .title
  let publishedAt ← d.timestamp .published
  let updatedAt ← d.timestamp .updated
  let url := (d.link.filter (· ≠ "")).getD (watchUrl videoId)
  return { videoId, channelId, title, url, publishedAt, updatedAt }

/-- Takes the address of a link to the entry's own page; the first one that counts stays. -/
def takeLink (d : Draft) (tag : Markup.Tag) : Except DecodeError Draft :=
  match tag.values with
  | .error e => .error (.malformed e)
  | .ok values =>
    let own : Bool := match Markup.lastValue? "rel" values with
      | none => true
      | some rel => rel == "alternate"
    .ok (if own ∧ d.link = none then { d with link := Markup.lastValue? "href" values } else d)

end Draft

def Deletion.ofTag (tag : Markup.Tag) : Except DecodeError Deletion :=
  match tag.values with
  | .error e => .error (.malformed e)
  | .ok values => .ok ⟨Markup.lastValue? "ref" values, Markup.lastValue? "when" values⟩

/-! ## The decoder -/

/-- Where the decoder stands between two events. -/
structure State where
  /-- The number of open elements. -/
  depth : Nat := 0
  /-- The number of elements around the entry, once it has begun. -/
  entryDepth : Option Nat := none
  entrySeen : Bool := false
  draft : Draft := {}
  /-- The field that is being read. -/
  capture : Option Field := none
  /-- The text read for that field. -/
  text : List Char := []
deriving DecidableEq, Repr

/-- The outcome of an event: go on, stop at the end of the entry, or answer at once. -/
inductive Outcome where
  | more (state : State)
  | entryEnd (state : State)
  | answer (result : Except DecodeError Notification)

namespace State

/-- Whether a tag met now belongs to a direct child of the entry. -/
def atField (s : State) : Bool := s.entryDepth.any (s.depth == · + 1)

/-- Carries a change of the draft on, or stops with its error. -/
def withDraft (s : State) : Except DecodeError Draft → Outcome
  | .ok draft => .more { s with draft }
  | .error e => .answer (.error e)

def deletion (tag : Markup.Tag) : Outcome :=
  .answer ((Deletion.ofTag tag).map .deleted)

def onStart (s : State) (tag : Markup.Tag) : Outcome :=
  let name := tag.localName
  let inside := { s with depth := s.depth + 1 }
  if name = "deleted-entry".toList then deletion tag
  else match s.entryDepth with
    | none =>
      if name = "entry".toList ∧ s.entrySeen = false then
        .more { inside with entryDepth := some s.depth, entrySeen := true }
      else .more inside
    | some _ =>
      if s.atField then
        if name = "link".toList then inside.withDraft (s.draft.takeLink tag)
        else match Field.ofLocalName? name with
          | some field => .more { inside with capture := some field, text := [] }
          | none => .more inside
      else .more inside

def onEmpty (s : State) (tag : Markup.Tag) : Outcome :=
  let name := tag.localName
  if name = "deleted-entry".toList then deletion tag
  else if s.atField then
    if name = "link".toList then s.withDraft (s.draft.takeLink tag)
    else match Field.ofLocalName? name with
      | some field => .more { s with draft := s.draft.fill field "" }
      | none => .more s
  else .more s

/-- Text counts only while a field is being read. -/
def onText (s : State) (raw : List Char) : Outcome :=
  match s.capture with
  | none => .more s
  | some _ =>
    match Markup.unescape raw with
    | .error e => .answer (.error (.malformed e))
    | .ok text => .more { s with text := s.text ++ text }

def onCdata (s : State) (text : List Char) : Outcome :=
  match s.capture with
  | none => .more s
  | some _ => .more { s with text := s.text ++ text }

def onClose (s : State) : Outcome :=
  let s := { s with depth := s.depth - 1 }
  match s.entryDepth with
  | none => .more s
  | some d =>
    if s.depth = d + 1 then
      match s.capture with
      | none => .more s
      | some field =>
        .more { s with
          draft := s.draft.fill field (String.ofList s.text), capture := none, text := [] }
    else if s.depth = d then .entryEnd s
    else .more s

def step (s : State) : Markup.Event → Outcome
  | .start tag => s.onStart tag
  | .empty tag => s.onEmpty tag
  | .close _ => s.onClose
  | .text raw => s.onText raw
  | .cdata text => s.onCdata text
  | .aside => .more s

def finish (s : State) : Except DecodeError Notification :=
  if s.entrySeen then s.draft.toEntry.map .entry else .error .noEntry

/-- Takes in events until one of them settles the answer. -/
def run (s : State) (failure : Option Markup.Error) :
    List Markup.Event → Except DecodeError Notification
  | [] =>
    match failure with
    | some e => .error (.malformed e)
    | none => s.finish
  | event :: rest =>
    match s.step event with
    | .more s => s.run failure rest
    | .entryEnd s => s.finish
    | .answer result => result

end State

def decode (text : List Char) : Except DecodeError Notification :=
  let events := Markup.events text
  State.run {} events.failure events.read

def decodeBytes (body : List UInt8) : Except DecodeError Notification :=
  match Utf8.decode? body with
  | none => .error .invalidEncoding
  | some text => decode text

end WebSub.Feed
