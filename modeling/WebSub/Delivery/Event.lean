import WebSub.Feed.Notification
import WebSub.Text.Uuid
import WebSub.Time.Instant

/-!
# Events

The record of a delivery: the body as it was received, which never changes, and what became of it,
which is filled in once.
-/

namespace WebSub

structure Event where
  id : Uuid
  rawBody : List UInt8
  /-- The body's fingerprint; no two records share one. -/
  contentHash : String
  receivedAt : Instant
  /-- Nothing is left to be done about it. -/
  processed : Bool
  processingError : Option String
  videoId : Option String
  channelId : Option String
  createdAt : Instant
deriving DecidableEq, Repr

namespace Event

/-- A record as it is first stored: nothing has become of the body yet. -/
def received (id : Uuid) (rawBody : List UInt8) (contentHash : String)
    (receivedAt createdAt : Instant) : Event :=
  { id, rawBody, contentHash, receivedAt, processed := false, processingError := none,
    videoId := none, channelId := none, createdAt }

/-- What became of a body: the only part of a record that is written after its receipt. -/
structure Outcome where
  processed : Bool
  error : Option String
  videoId : Option String
  channelId : Option String
deriving DecidableEq, Repr

namespace Outcome

def succeeded (videoId channelId : Option String) : Outcome := ⟨true, none, videoId, channelId⟩

def rejected (error : String) : Outcome := ⟨true, some error, none, none⟩

/-- Readable but not handed on, so that it may be tried again. -/
def failed (error : String) (videoId channelId : Option String) : Outcome :=
  ⟨false, some error, videoId, channelId⟩

end Outcome

def withOutcome (e : Event) (o : Outcome) : Event :=
  { e with
    processed := o.processed, processingError := o.error, videoId := o.videoId,
    channelId := o.channelId }

end Event

end WebSub
