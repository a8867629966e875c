import WebSub.Settings.Node

/-!
# Paths into a configuration tree

A key such as `server.port` or `hubs[0].url` leads to a node, and makes what is missing on the
way.
-/

namespace WebSub.Settings

/-- One step down a tree; an index below zero counts from the end. -/
inductive Step where
  | name (s : String)
  | index (i : Int)
deriving DecidableEq, Repr

abbrev Path := List Step

namespace Path

/-! ## Reading -/

def isNameChar (c : Char) : Bool := c.isAlphanum || c == '_' || c == '-'

def isBlank (c : Char) : Bool := c == ' ' || c == '\t'

/-- No array is made longer than this for the sake of an index. -/
def maxIndex : Int := 1000000

/-- A name of at least one character, and the text after it. -/
def nameFrom? (text : List Char) : Option (String × List Char) :=
  let name := text.takeWhile isNameChar
  if name = [] then none else some (String.ofList name, text.dropWhile isNameChar)

def indexFrom? (text : List Char) : Option (Int × List Char) :=
  let body := text.dropWhile isBlank
  let (sign, digits) : Int × List Char := match body with
    | '-' :: rest => (-1, rest)
    | rest => (1, rest)
  match Decimal.natural? (digits.takeWhile Char.isDigit),
      (digits.dropWhile Char.isDigit).dropWhile isBlank with
  | some n, ']' :: rest => if n ≤ maxIndex then some (sign * n, rest) else none
  | _, _ => none

/-- The steps after the first; each takes at least one character. -/
def stepsFrom? : Nat → List Char → Option Path
  | _, [] => some []
  | 0, _ => none
  | fuel + 1, '.' :: text =>
    (nameFrom? text).bind fun (s, rest) => (stepsFrom? fuel rest).map (.name s :: ·)
  | fuel + 1, '[' :: text =>
    (indexFrom? text).bind fun (i, rest) => (stepsFrom? fuel rest).map (.index i :: ·)
  | _, _ => none

/-- A name, then names after dots and indices in brackets. -/
def ofText? (text : List Char) : Option Path :=
  (nameFrom? text).bind fun (s, rest) => (stepsFrom? rest.length rest).map (.name s :: ·)

/-- The path of a key; a key that is no path is a name as a whole. -/
def ofKey (key : String) : Path := (ofText? key.toList).getD [.name key]

end Path

namespace Node

/-- The items of an array; anything else has none. -/
def items : Node → List Node
  | .array _ items => items
  | _ => []

/-- The origin of an array; what is numbered below anything else starts afresh. -/
def arrayOrigin : Node → Option String
  | .array origin _ => origin
  | _ => none

/-- Items with one more place at the index, and that place: the array grows at its end, or at its
front for an index from the end. -/
def reach (items : List Node) (i : Int) : List Node × Nat :=
  if 0 ≤ i then (items ++ List.replicate (i.toNat + 1 - items.length) nil, i.toNat)
  else
    let back := i.natAbs
    if back ≤ items.length then (items, items.length - back)
    else (List.replicate (back - items.length) nil ++ items, 0)

/-- Changes the node at a path. What is on the way becomes a table or an array if it is not. -/
def changeAt (f : Node → Node) : Path → Node → Node
  | [], n => f n
  | .name s :: path, n =>
    .table n.tableOrigin (put n.entries s (changeAt f path (child n.entries s)))
  | .index i :: path, n =>
    let (items, place) := reach n.items i
    .array n.arrayOrigin (items.modify place (changeAt f path))

def set (root : Node) (path : Path) (n : Node) : Node := changeAt (·.overlay n) path root

end Node

end WebSub.Settings
