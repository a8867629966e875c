/-!
# TOML values

A document is a table of tables. Every table remembers how it was made, because that decides what
later lines may still add to it.
-/

namespace WebSub.Toml

/-- How a table came into a document. -/
inductive Making where
  /-- It has a header of its own. -/
  | header
  /-- It lies on the way of a longer header. -/
  | passing
  /-- It lies on the way of a dotted key. -/
  | dotted
  /-- It is written between braces. -/
  | inline
deriving DecidableEq, Repr

inductive Value where
  /-- Strings, and dates and times in their written form. -/
  | text (s : String)
  | integer (n : Int)
  | real (x : Float)
  | flag (b : Bool)
  /-- Values between brackets. -/
  | items (values : List Value)
  /-- Tables that share a header with double brackets; the last one is open. -/
  | rows (tables : List Value)
  | table (making : Making) (entries : List (String × Value))

namespace Value

/-- Puts a value in place of the one with its name, or else at the end. -/
def put (entries : List (String × Value)) (name : String) (v : Value) : List (String × Value) :=
  if entries.any (·.1 == name) then entries.map fun e => if e.1 == name then (name, v) else e
  else entries ++ [(name, v)]

/-! ## Headers -/

/-- Changes the table that the path of a header leads to. Missing tables on the way are made; of
tables in rows the last one is meant; a table in braces is closed. -/
def alongHeader (f : Value → Option Value) : List String → Value → Option Value
  | [], v => f v
  | name :: path, .table making entries =>
    let changed (v : Value) : Value := .table making (put entries name v)
    match entries.lookup name with
    | none => (alongHeader f path (.table .passing [])).map changed
    | some (.table .inline _) => none
    | some (.rows tables) =>
      match tables.getLast? with
      | none => none
      | some last =>
        (alongHeader f path last).map fun v => changed (.rows (tables.dropLast ++ [v]))
    | some inner => (alongHeader f path inner).map changed
  | _ :: _, _ => none

/-- Opens a table by its own header, once only; one that was only passed before is taken over. -/
def openTable (name : String) : Value → Option Value
  | .table making entries =>
    match entries.lookup name with
    | none => some (.table making (put entries name (.table .header [])))
    | some (.table .passing inner) => some (.table making (put entries name (.table .header inner)))
    | some _ => none
  | _ => none

def openRow (name : String) : Value → Option Value
  | .table making entries =>
    let row : Value := .table .header []
    match entries.lookup name with
    | none => some (.table making (put entries name (.rows [row])))
    | some (.rows tables) => some (.table making (put entries name (.rows (tables ++ [row]))))
    | some _ => none
  | _ => none

/-! ## Entries -/

/-- Adds an entry under a dotted key. No name is given twice, and the table right around the entry
must itself be made by dotted keys. -/
def addEntry (v : Value) : List String → Value → Option Value
  | [name], .table making entries =>
    if entries.any (·.1 == name) then none else some (.table making (entries ++ [(name, v)]))
  | name :: path, .table making entries =>
    let inner? : Option Value := match entries.lookup name with
      | none => some (.table .dotted [])
      | some (.table .dotted inner) => some (.table .dotted inner)
      | some (.table .passing inner) =>
        if path.length = 1 then none else some (.table .passing inner)
      | some _ => none
    inner?.bind fun inner => (addEntry v path inner).map fun changed =>
      .table making (put entries name changed)
  | _, _ => none

end Value

end WebSub.Toml
