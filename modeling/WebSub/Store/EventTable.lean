import WebSub.Store.Call

/-!
# The table of events

The append-only table of deliveries. Triggers look at each row that a statement touches: a deletion
is refused, and so is an update that would change what was received. A refused statement changes no
row at all.
-/

namespace WebSub.Store

namespace EventTable

/-- A row as a statement gives it, with the defaults of the columns that it leaves out; a column
without a value is null. -/
structure Draft where
  id : Option Uuid
  rawBody : Option (List UInt8)
  contentHash : Option String
  receivedAt : Option Instant
  processed : Option Bool
  processingError : Option String
  videoId : Option String
  channelId : Option String
  createdAt : Option Instant
deriving DecidableEq, Repr

/-- The row that is stored; there is none if a column is null that may not be. -/
def Draft.row? (d : Draft) : Option Event := do
  return { id := ← d.id, rawBody := ← d.rawBody, contentHash := ← d.contentHash,
           receivedAt := ← d.receivedAt, processed := ← d.processed,
           processingError := d.processingError, videoId := d.videoId, channelId := d.channelId,
           createdAt := ← d.createdAt }

def Draft.ofEvent (e : Event) : Draft where
  id := e.id
  rawBody := e.rawBody
  contentHash := e.contentHash
  receivedAt := e.receivedAt
  processed := e.processed
  processingError := e.processingError
  videoId := e.videoId
  channelId := e.channelId
  createdAt := e.createdAt

/-- What an update writes to a column: a value, or null, that may depend on the row. -/
abbrev Expression (α : Type) : Type := Event → Option α

/-- The columns that an update sets; the others stay as they are. -/
structure Assignments where
  id : Option (Expression Uuid) := none
  rawBody : Option (Expression (List UInt8)) := none
  contentHash : Option (Expression String) := none
  receivedAt : Option (Expression Instant) := none
  processed : Option (Expression Bool) := none
  processingError : Option (Expression String) := none
  videoId : Option (Expression String) := none
  channelId : Option (Expression String) := none
  createdAt : Option (Expression Instant) := none

namespace Assignments

def value {α : Type} (set : Option (Expression α)) (old : Event) (stored : Option α) : Option α :=
  match set with
  | some expression => expression old
  | none => stored

/-- All expressions look at the row as it was. -/
def write (set : Assignments) (old : Event) : Draft where
  id := value set.id old old.id
  rawBody := value set.rawBody old old.rawBody
  contentHash := value set.contentHash old old.contentHash
  receivedAt := value set.receivedAt old old.receivedAt
  processed := value set.processed old old.processed
  processingError := value set.processingError old old.processingError
  videoId := value set.videoId old old.videoId
  channelId := value set.channelId old old.channelId
  createdAt := value set.createdAt old old.createdAt

end Assignments

/-- A statement; its condition picks the rows that it is about. -/
inductive Statement where
  | insert (rows : List Draft)
  | update (condition : Event → Bool) (set : Assignments)
  | delete (condition : Event → Bool)

/-- Why a statement was refused. -/
inductive Refusal where
  | deleted
  | changedReceipt
  | missingValue
  | notUnique
deriving DecidableEq, Repr

def Refusal.message : Refusal → String
  | .deleted => "webhook_events is append-only: delete rejected"
  | .changedReceipt => "webhook_events is append-only: stored fields are immutable"
  | .missingValue => "NOT NULL constraint failed"
  | .notUnique => "UNIQUE constraint failed"

/-- What was received is the same in both rows. Null differs from every value. -/
def sameReceipt (old : Event) (new : Draft) : Bool :=
  new.rawBody == some old.rawBody && new.contentHash == some old.contentHash &&
    new.receivedAt == some old.receivedAt && new.createdAt == some old.createdAt

/-- No other row may have the identity or the hash. -/
def clash (a b : Event) : Bool := a.id == b.id || a.contentHash == b.contentHash

/-- The row that is stored beside the others: it must be complete and differ from all of them. -/
def place (others : List Event) (draft : Draft) : Except Refusal Event :=
  match draft.row? with
  | none => .error .missingValue
  | some new => if others.any (clash new) then .error .notUnique else .ok new

/-- Appends rows one by one. -/
def extend (rows : List Event) : List Draft → Except Refusal (List Event)
  | [] => .ok rows
  | draft :: rest => do extend (rows ++ [← place rows draft]) rest

/-- The trigger sees the row before it is written. -/
def rewrite (set : Assignments) (others : List Event) (old : Event) : Except Refusal Event :=
  let draft := set.write old
  if sameReceipt old draft then place others draft else .error .changedReceipt

/-- Changes the matching rows one by one. `settled` holds the rows that were passed, latest
first. -/
def revise (condition : Event → Bool) (set : Assignments) (settled : List Event) :
    List Event → Except Refusal (List Event)
  | [] => .ok settled.reverse
  | old :: rest =>
    if condition old then do
      revise condition set ((← rewrite set (settled ++ rest) old) :: settled) rest
    else revise condition set (old :: settled) rest

end EventTable

structure EventTable where
  rows : List Event := []
deriving DecidableEq, Repr

namespace EventTable

/-- Runs a statement, and counts the rows that it was about. -/
def execute (t : EventTable) : Statement → Except Refusal Nat × EventTable
  | .insert drafts =>
    match extend t.rows drafts with
    | .ok rows => (.ok drafts.length, ⟨rows⟩)
    | .error refusal => (.error refusal, t)
  | .update condition set =>
    match revise condition set [] t.rows with
    | .ok rows => (.ok (t.rows.countP condition), ⟨rows⟩)
    | .error refusal => (.error refusal, t)
  | .delete condition =>
    if t.rows.any condition then (.error .deleted, t) else (.ok 0, t)

def outcomeColumns (o : Event.Outcome) : Assignments where
  processed := some fun _ => o.processed
  processingError := some fun _ => o.error
  videoId := some fun _ => o.videoId
  channelId := some fun _ => o.channelId

def refused : Refusal → Error
  | .notUnique => .duplicate
  | refusal => .database refusal.message

def answer (t : EventTable) : (c : EventCall) → c.Answer × EventTable
  | .insertNew e =>
    match t.execute (.insert [.ofEvent e]) with
    | (.ok _, t) => (.ok e, t)
    | (.error refusal, t) => (.error (refused refusal), t)
  | .find id => (.ok (t.rows.find? (·.id == id)), t)
  | .findByHash contentHash => (.ok (t.rows.find? (·.contentHash == contentHash)), t)
  | .recordOutcome id outcome =>
    match t.execute (.update (·.id == id) (outcomeColumns outcome)) with
    | (.ok n, t) => (if n = 0 then .error .notFound else .ok (), t)
    | (.error refusal, t) => (.error (refused refusal), t)

end EventTable

end WebSub.Store
