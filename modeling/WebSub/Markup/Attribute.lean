import WebSub.Markup.Reference

/-!
# Attributes

The attributes of a tag, in order. Reading stops at the first mistake, which is met only after the
attributes before it.
-/

namespace WebSub.Markup

structure Attribute where
  name : List Char
  /-- The value between its quotes, with references unresolved. -/
  raw : List Char
deriving DecidableEq, Repr

/-- The attributes before the first mistake, and that mistake. -/
structure Attributes where
  read : List Attribute
  failure : Option Error

/-- Reads attributes from byte `position` of a tag's content; `seen` are the names so far with the
positions of their starts. -/
def attributesFrom (seen : List (List Char × Nat)) (position : Nat) (text : List Char) :
    Attributes :=
  let keyAt := position + byteLength (text.takeWhile isBlank)
  match _h1 : text.dropWhile isBlank with
  | [] => ⟨[], none⟩
  | c :: more =>
    let key := c :: more.takeWhile fun d => d != '=' && !isBlank d
    let tail := more.dropWhile fun d => d != '=' && !isBlank d
    let equalsAt := keyAt + byteLength key + byteLength (tail.takeWhile isBlank)
    match _h2 : tail.dropWhile isBlank with
    | '=' :: value =>
      match seen.find? (·.1 == key) with
      | some (_, previous) => ⟨[], some (.duplicatedAttribute keyAt previous)⟩
      | none =>
        let valueAt := equalsAt + 1 + byteLength (value.takeWhile isBlank)
        match _h3 : value.dropWhile isBlank with
        | [] => ⟨[], some (.expectedValue valueAt)⟩
        | quote :: inside =>
          if quote = '"' ∨ quote = '\'' then
            let raw := inside.takeWhile (· != quote)
            let next := valueAt + 1 + byteLength raw
            match _h4 : inside.dropWhile (· != quote) with
            | [] => ⟨[], some (.expectedQuote next quote)⟩
            | _ :: rest =>
              let others := attributesFrom ((key, keyAt) :: seen) (next + 1) rest
              ⟨⟨key, raw⟩ :: others.read, others.failure⟩
          else ⟨[], some (.unquotedValue valueAt)⟩
    | _ => ⟨[], some (.expectedEquals equalsAt)⟩
termination_by text.length
decreasing_by
  have e1 := congrArg List.length _h1
  have e2 := congrArg List.length _h2
  have e3 := congrArg List.length _h3
  have e4 := congrArg List.length _h4
  have l1 := (List.dropWhile_sublist isBlank (l := text)).length_le
  have l2 : tail.length ≤ more.length := (List.dropWhile_sublist _).length_le
  have l3 := (List.dropWhile_sublist isBlank (l := tail)).length_le
  have l4 := (List.dropWhile_sublist isBlank (l := value)).length_le
  have l5 := (List.dropWhile_sublist (fun d => d != quote) (l := inside)).length_le
  simp only [List.length_cons] at e1 e2 e3 e4
  omega

def Tag.attributes (t : Tag) : Attributes :=
  attributesFrom [] (byteLength t.name) (t.content.drop t.name.length)

/-- The local names and values of attributes, each value resolved in its turn. -/
def values : List Attribute → Except Error (List (List Char × List Char))
  | [] => .ok []
  | a :: rest =>
    match unescape a.raw with
    | .error e => .error e
    | .ok value =>
      match values rest with
      | .error e => .error e
      | .ok others => .ok ((localPart a.name, value) :: others)

/-- All attribute values of a tag, or the first mistake in it. -/
def Tag.values (t : Tag) : Except Error (List (List Char × List Char)) :=
  match Markup.values t.attributes.read with
  | .error e => .error e
  | .ok vs =>
    match t.attributes.failure with
    | some e => .error e
    | none => .ok vs

/-- The value of the last attribute with a local name. -/
def lastValue? (name : String) (values : List (List Char × List Char)) : Option String :=
  ((values.reverse.find? (·.1 == name.toList)).map fun v => String.ofList v.2)

end WebSub.Markup
