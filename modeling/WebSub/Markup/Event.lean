/-!
# Markup events

The pieces that a document is read as: tags, text and character data.
-/

namespace WebSub.Markup

/-- Blanks separate a tag's name from its attributes. -/
def isBlank (c : Char) : Bool := c == ' ' || c == '\t' || c == '\n' || c == '\r'

/-- What follows the first colon of a name, or the whole name. -/
def localPart (name : List Char) : List Char :=
  match name.dropWhile (· != ':') with
  | [] => name
  | _ :: rest => rest

/-- A tag's content: its name and whatever follows it up to the closing bracket. -/
structure Tag where
  content : List Char
deriving DecidableEq, Repr

namespace Tag

def name (t : Tag) : List Char := t.content.takeWhile (!isBlank ·)

def localName (t : Tag) : List Char := localPart t.name

end Tag

inductive Event where
  | start (tag : Tag)
  /-- A tag that opens and closes an element at once. -/
  | empty (tag : Tag)
  | close (name : List Char)
  /-- Text with its references unresolved. -/
  | text (raw : List Char)
  | cdata (text : List Char)
  /-- A comment, a processing instruction or a document type. -/
  | aside
deriving DecidableEq, Repr

def byteLength (text : List Char) : Nat := text.foldl (fun n c => n + c.utf8Size) 0

end WebSub.Markup
