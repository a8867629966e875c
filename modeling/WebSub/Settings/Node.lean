import WebSub.Json.Basic
import WebSub.Text.Decimal
import WebSub.Toml.Value

/-!
# Configuration trees

What files and variables say, before it is read as settings. A later tree is laid over an earlier
one key by key; everything remembers the place that it came from.
-/

namespace WebSub.Settings

inductive Scalar where
  | nil
  | flag (b : Bool)
  | integer (n : Int)
  | real (x : Float)
  | text (s : String)

/-- A tree of named and numbered values. The origin is the file, or the environment, that gave the
value; a table that was put together from several places has none. -/
inductive Node where
  | scalar (origin : Option String) (v : Scalar)
  | array (origin : Option String) (items : List Node)
  | table (origin : Option String) (entries : List (String × Node))

namespace Node

def empty : Node := .table none []

def nil : Node := .scalar none .nil

/-! ## Tables as maps -/

/-- The entries of a table; anything else has none. -/
def entries : Node → List (String × Node)
  | .table _ es => es
  | _ => []

/-- The origin of a table; what is laid over anything else starts afresh. -/
def tableOrigin : Node → Option String
  | .table origin _ => origin
  | _ => none

/-- Puts a node in place of the one with its name, or else at the end. -/
def put : List (String × Node) → String → Node → List (String × Node)
  | [], name, n => [(name, n)]
  | (key, m) :: rest, name, n =>
    if key = name then (name, n) :: rest else (key, m) :: put rest name n

theorem lookup_put (es : List (String × Node)) (name other : String) (n : Node) :
    (put es name n).lookup other = if other = name then some n else es.lookup other := by
  induction es with
  | nil => by_cases h : other = name <;> simp [put, h]
  | cons e rest ih =>
    obtain ⟨key, m⟩ := e
    by_cases ho : other = key
    · by_cases hk : key = name <;> simp_all [put]
    · have apart : (other == key) = false := by simp [ho]
      by_cases hk : key = name
      · subst hk
        simp [put, List.lookup_cons, apart, ho]
      · simp [put, List.lookup_cons, apart, hk, ih]

def child (es : List (String × Node)) (name : String) : Node := (es.lookup name).getD nil

def get? (n : Node) : List String → Option Node
  | [] => some n
  | name :: path => (n.entries.lookup name).bind (·.get? path)

/-! ## Laying one tree over another -/

mutual

/-- A table is laid over what was there entry by entry; anything else replaces it. -/
def overlay (base : Node) : Node → Node
  | .table _ es => .table base.tableOrigin (overlayEntries base.entries es)
  | .scalar origin v => .scalar origin v
  | .array origin items => .array origin items

def overlayEntries (base : List (String × Node)) :
    List (String × Node) → List (String × Node)
  | [] => base
  | (name, n) :: rest => overlayEntries (put base name (overlay (child base name) n)) rest

end

/-! ## Trees of documents -/

mutual

/-- The tree of a JSON value. Integers beyond 64 bits with a sign become floating point. -/
def ofJson (origin : String) : Json → Node
  | .null => .scalar origin .nil
  | .bool b => .scalar origin (.flag b)
  | .number (.integer n) =>
    .scalar origin <|
      if n ≤ Decimal.int64Max then .integer n else .real (Float.ofInt n)
  | .number (.real x) => .scalar origin (.real x)
  | .str s => .scalar origin (.text s)
  | .array items => .array origin (ofJsonItems origin items)
  | .object members => .table origin (ofJsonMembers origin members)

def ofJsonItems (origin : String) : List Json → List Node
  | [] => []
  | v :: rest => ofJson origin v :: ofJsonItems origin rest

def ofJsonMembers (origin : String) : List (String × Json) → List (String × Node)
  | [] => []
  | (name, v) :: rest => (name, ofJson origin v) :: ofJsonMembers origin rest

end

mutual

def ofToml (origin : String) : Toml.Value → Node
  | .text s => .scalar origin (.text s)
  | .integer n => .scalar origin (.integer n)
  | .real x => .scalar origin (.real x)
  | .flag b => .scalar origin (.flag b)
  | .items values => .array origin (ofTomlItems origin values)
  | .rows tables => .array origin (ofTomlItems origin tables)
  | .table _ es => .table origin (ofTomlEntries origin es)

def ofTomlItems (origin : String) : List Toml.Value → List Node
  | [] => []
  | v :: rest => ofToml origin v :: ofTomlItems origin rest

def ofTomlEntries (origin : String) : List (String × Toml.Value) → List (String × Node)
  | [] => []
  | (name, v) :: rest => (name, ofToml origin v) :: ofTomlEntries origin rest

end

end Node

end WebSub.Settings
