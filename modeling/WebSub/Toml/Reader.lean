import WebSub.Toml.Lexer

/-!
# Reading TOML

Values, which may nest, and the lines of a document: headers, and entries of the table whose header
came last.
-/

namespace WebSub.Toml

/-! ## Values -/

mutual

def valueFrom (fuel : Nat) (text : List Char) : Token Value :=
  match fuel with
  | 0 => none
  | fuel + 1 =>
    match text with
    | [] => none
    | c :: rest =>
      if c = '"' ∨ c = '\'' then (stringToken true text).map fun (s, after) => (.text s, after)
      else if c = '[' then itemsFrom fuel [] rest
      else if c = '\x7b' then entriesFrom fuel (.table .inline []) rest
      else
        let (word, after) := wordToken text
        (wordValue? word).map (·, after)

/-- Reads the rest of an array; a comma may follow the last item. -/
def itemsFrom (fuel : Nat) (read : List Value) (text : List Char) : Token Value :=
  match fuel with
  | 0 => none
  | fuel + 1 =>
    match skipGap false text with
    | none => none
    | some (']' :: after) => some (.items read.reverse, after)
    | some body =>
      match valueFrom fuel body with
      | none => none
      | some (v, after) =>
        match skipGap false after with
        | some (',' :: more) => itemsFrom fuel (v :: read) more
        | some (']' :: after) => some (.items (v :: read).reverse, after)
        | _ => none

/-- Reads the rest of a table in braces; a comma may follow the last entry. -/
def entriesFrom (fuel : Nat) (read : Value) (text : List Char) : Token Value :=
  match fuel with
  | 0 => none
  | fuel + 1 =>
    match skipGap false text with
    | none => none
    | some ('\x7d' :: after) => some (read, after)
    | some body =>
      match keyToken body with
      | some (names, '=' :: rest) =>
        match valueFrom fuel (skipBlanks rest) with
        | none => none
        | some (v, after) =>
          match Value.addEntry v names read with
          | none => none
          | some read =>
            match skipGap false after with
            | some (',' :: more) => entriesFrom fuel read more
            | some ('\x7d' :: after) => some (read, after)
            | _ => none
      | _ => none

end

/-! ## Lines -/

/-- A document that has been read in part. -/
structure Document where
  root : Value := .table .header []
  /-- The path of the table that entries go to. -/
  current : List String := []

namespace Document

/-- Adds what a header says to the table around the one it names. -/
def openAt (d : Document) (add : String → Value → Option Value) (names : List String) :
    Option Document :=
  match names.getLast? with
  | none => none
  | some name => (d.root.alongHeader (add name) names.dropLast).map fun root => ⟨root, names⟩

/-- Reads a header, after its brackets have been opened, up to the text behind it. -/
def header (d : Document) (add : String → Value → Option Value) (closing text : List Char) :
    Option (Document × List Char) := do
  let (names, rest) ← keyToken text
  let rest ← closing.isPrefixOf? rest
  return (← d.openAt add names, rest)

def entry (d : Document) (text : List Char) : Option (Document × List Char) :=
  match keyToken text with
  | some (names, '=' :: rest) =>
    let body := skipBlanks rest
    match valueFrom (2 * body.length + 2) body with
    | some (v, after) =>
      (d.root.alongHeader (Value.addEntry v names) d.current).map fun root =>
        (⟨root, d.current⟩, after)
    | none => none
  | _ => none

def line (d : Document) (text : List Char) : Option (Document × List Char) :=
  match text with
  | '[' :: '[' :: rest => d.header Value.openRow [']', ']'] rest
  | '[' :: rest => d.header Value.openTable [']'] rest
  | _ => d.entry text

/-- Reads at most `fuel` lines. -/
def lines : Nat → Document → List Char → Option Document
  | 0, _, _ => none
  | fuel + 1, d, text =>
    match skipGap false text with
    | none => none
    | some [] => some d
    | some body =>
      match d.line body with
      | none => none
      | some (d, rest) => (endLine rest).bind (lines fuel d)

end Document

def read? (text : List Char) : Option (List (String × Value)) :=
  match ({} : Document).lines (text.length + 1) text with
  | some ⟨.table _ entries, _⟩ => some entries
  | _ => none

end WebSub.Toml
