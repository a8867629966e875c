import WebSub.Time.Stamp

/-!
# Feed notifications

What a hub's delivery says: a video was published or changed, or an entry was deleted.
-/

namespace WebSub.Feed

/-- A published or changed video. -/
structure Entry where
  videoId : String
  channelId : String
  title : String
  url : String
  publishedAt : Stamp
  updatedAt : Stamp
deriving DecidableEq, Repr

/-- A deleted entry, as far as the notice names it. -/
structure Deletion where
  entryRef : Option String
  deletedAt : Option String
deriving DecidableEq, Repr

inductive Notification where
  | entry (entry : Entry)
  | deleted (deletion : Deletion)
deriving DecidableEq, Repr

namespace Notification

def isDeletion : Notification → Bool
  | .entry _ => false
  | .deleted _ => true

def entry? : Notification → Option Entry
  | .entry e => some e
  | .deleted _ => none

def videoId? (n : Notification) : Option String := n.entry?.map (·.videoId)

def channelId? (n : Notification) : Option String := n.entry?.map (·.channelId)

end Notification

end WebSub.Feed
