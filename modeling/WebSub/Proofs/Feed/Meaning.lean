import WebSub.Feed.Decoder
import WebSub.Proofs.Markup.Document

/-!
# What a feed says

The notification that a document stands for, read off its tree and not event by event.
-/

namespace WebSub.Feed

open Markup (Element)

/-! ## Fields -/

/-- The text below the entry's first direct child with the field's local name. -/
def fieldText? (entry : Element) (field : Field) : Option String :=
  (entry.inside.children.find? (·.named field.name)).map fun child =>
    String.ofList child.inside.allText

/-- The address in a link to the entry's own page, which is one without a relation or the
alternate. -/
def ownLink? (child : Element) : Option String :=
  if child.named "link" ∧ (child.head.last? "rel").getD "alternate" = "alternate" then
    child.head.last? "href"
  else none

/-- The address of the first direct link that has one to the entry's own page. -/
def linkOf? (entry : Element) : Option String := entry.inside.children.findSome? ownLink?

/-! ## Notifications -/

def requiredText (entry : Element) (field : Field) : Except DecodeError String :=
  match fieldText? entry field with
  | none => .error (.missing field)
  | some text => if text = "" then .error (.missing field) else .ok text

def stampOf (entry : Element) (field : Field) : Except DecodeError Stamp := do
  let text ← requiredText entry field
  match Stamp.ofText? text.toList with
  | none => .error (.invalidTimestamp field text)
  | some stamp => .ok stamp

def pageOf (entry : Element) (videoId : String) : String :=
  match linkOf? entry with
  | none => watchUrl videoId
  | some link => if link = "" then watchUrl videoId else link

/-- The entry that an element describes, or the first thing that is wrong with it. -/
def entryOf (entry : Element) : Except DecodeError Entry := do
  let videoId ← requiredText entry .videoId
  let channelId ← requiredText entry .channelId
  let title ← requiredText entry .title
  let publishedAt ← stampOf entry .published
  let updatedAt ← stampOf entry .updated
  return { videoId, channelId, title, url := pageOf entry videoId, publishedAt, updatedAt }

def deletionOf (notice : Element) : Deletion :=
  ⟨notice.head.last? "ref", notice.head.last? "when"⟩

/-- The elements that start before the first entry has ended, or all if there is no entry. -/
def started (elements : List Element) : List Element :=
  match elements.find? (·.named "entry") with
  | none => elements
  | some entry => elements.takeWhile (!·.named "entry") ++ entry.elements

def meaning (root : Element) : Except DecodeError Notification :=
  match (started root.elements).find? (·.named "deleted-entry") with
  | some notice => .ok (.deleted (deletionOf notice))
  | none =>
    match root.elements.find? (·.named "entry") with
    | some entry => (entryOf entry).map .entry
    | none => .error .noEntry

/-! ## Drafts -/

theorem Field.ofLocalName?_eq_some_iff {name : List Char} {field : Field} :
    Field.ofLocalName? name = some field ↔ field.name.toList = name := by
  constructor
  · intro found
    simpa using List.find?_some found
  · rintro rfl
    cases field <;> decide

theorem Field.ofLocalName?_eq_none {name : List Char} (found : Field.ofLocalName? name = none)
    (field : Field) : field.name.toList ≠ name := by
  intro same
  rw [Field.ofLocalName?_eq_some_iff.mpr same] at found
  cases found

namespace Draft

theorem get_fill (d : Draft) (field other : Field) (value : String) :
    (d.fill field value).get other =
      (d.get other).or (if field = other then some value else none) := by
  cases field <;> cases other <;> simp [fill, get]

/-- Takes in a direct child of the entry. -/
def absorb (d : Draft) (child : Element) : Draft :=
  if child.named "link" then { d with link := d.link.or (ownLink? child) }
  else match Field.ofLocalName? child.head.name.base.text with
    | some field => d.fill field (String.ofList child.inside.allText)
    | none => d

theorem get_absorb (d : Draft) (child : Element) (field : Field) :
    (d.absorb child).get field = (d.get field).or
      (if child.named field.name then some (String.ofList child.inside.allText) else none) := by
  have named : child.named field.name = true ↔ field.name.toList = child.head.name.base.text :=
    Element.named_iff.trans eq_comm
  unfold absorb
  split
  case isTrue link =>
    have other : ¬ child.named field.name = true := by
      rw [named, Element.named_iff.mp link]
      cases field <;> decide
    rw [if_neg other, Option.or_none]
    cases field <;> rfl
  case isFalse =>
    cases found : Field.ofLocalName? child.head.name.base.text with
    | none =>
      have other := mt named.mp (Field.ofLocalName?_eq_none found field)
      rw [if_neg other, Option.or_none]
    | some first =>
      have same : first = field ↔ child.named field.name = true := by
        rw [named, ← Field.ofLocalName?_eq_some_iff, found, Option.some_inj]
      simp only [get_fill, same]

theorem link_absorb (d : Draft) (child : Element) :
    (d.absorb child).link = d.link.or (ownLink? child) := by
  unfold absorb
  split
  case isTrue => rfl
  case isFalse other =>
    rw [ownLink?, if_neg (fun h => other h.1), Option.or_none]
    cases Field.ofLocalName? child.head.name.base.text with
    | none => rfl
    | some field => cases field <;> rfl

theorem get_absorbed (children : List Element) (field : Field) : ∀ d : Draft,
    (children.foldl absorb d).get field = (d.get field).or
      ((children.find? (·.named field.name)).map fun child =>
        String.ofList child.inside.allText) := by
  induction children with
  | nil => intro d; simp
  | cons child rest ih =>
    intro d
    rw [List.foldl_cons, ih, get_absorb, List.find?_cons, Option.or_assoc]
    cases child.named field.name <;> rfl

theorem link_absorbed (children : List Element) : ∀ d : Draft,
    (children.foldl absorb d).link = d.link.or (children.findSome? ownLink?) := by
  induction children with
  | nil => intro d; simp
  | cons child rest ih =>
    intro d
    rw [List.foldl_cons, ih, link_absorb, List.findSome?_cons, Option.or_assoc]
    cases ownLink? child <;> rfl

variable (entry : Element)

theorem required_absorbed (field : Field) :
    (entry.inside.children.foldl absorb {}).required field = requiredText entry field := by
  have empty : ({} : Draft).get field = none := by cases field <;> rfl
  have read : (entry.inside.children.foldl absorb {}).get field = fieldText? entry field := by
    rw [get_absorbed, empty, Option.none_or, fieldText?]
  rw [required, read, requiredText]
  cases fieldText? entry field with
  | none => rfl
  | some text => by_cases blank : text = "" <;> simp [Option.filter, blank]

theorem timestamp_absorbed (field : Field) :
    (entry.inside.children.foldl absorb {}).timestamp field = stampOf entry field := by
  rw [timestamp, required_absorbed, stampOf]
  congr 1
  funext text
  cases Stamp.ofText? text.toList <;> rfl

theorem page_absorbed (videoId : String) :
    ((entry.inside.children.foldl absorb {}).link.filter (· ≠ "")).getD (watchUrl videoId) =
      pageOf entry videoId := by
  have read : (entry.inside.children.foldl absorb {}).link = linkOf? entry := by
    rw [link_absorbed, Option.none_or, linkOf?]
  rw [read, pageOf]
  cases linkOf? entry with
  | none => rfl
  | some link => by_cases blank : link = "" <;> simp [Option.filter, blank]

theorem toEntry_absorbed :
    (entry.inside.children.foldl absorb {}).toEntry = entryOf entry := by
  simp only [toEntry, entryOf, required_absorbed, timestamp_absorbed, page_absorbed]

end Draft

end WebSub.Feed
