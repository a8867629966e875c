import WebSub.Json.Reader
import WebSub.Settings.Path
import WebSub.Text.Lowercase
import WebSub.Toml.Reader

/-!
# Configuration sources

Files of a directory and variables of the environment, each a list of keys with what they are set
to. Sources are applied in order, so that the last one to set a key decides.
-/

namespace WebSub.Settings

abbrev Source := List (String × Node)

namespace Source

def applyTo (root : Node) (source : Source) : Node :=
  source.foldl (fun root (key, n) => root.set (Path.ofKey key) n) root

/-- What several sources come to; later ones lie above earlier ones. -/
def combined (sources : List Source) : Node := sources.foldl applyTo .empty

end Source

/-! ## Formats -/

/-- A format of files: how the names of its files end, and what is read of a text that is written in
it. The text is known by where it is from, and its top must be a table. -/
structure FileFormat where
  suffixes : List String
  read? : String → List Char → Option Source

namespace FileFormat

def toml : FileFormat where
  suffixes := ["toml"]
  read? uri text := (Toml.read? text).map (Node.ofTomlEntries uri)

def json : FileFormat where
  suffixes := ["json"]
  read? uri text :=
    match Json.read? (Utf8.encode text) with
    | some (.object members) => some (Node.ofJsonMembers uri members)
    | _ => none

/-- The formats whose readers are spelled out. There may be others, from a library: they come
wherever the library tries them. -/
def known : List FileFormat := [toml, json]

/-- The format of a file by the end of its name, after the last dot but the first character. -/
def ofName? (formats : List FileFormat) (name : String) : Option FileFormat :=
  match name.toList.splitOn '.' with
  | [] | [_] | [[], _] => none
  | parts => formats.find? fun f => parts.getLast?.any (f.suffixes.contains <| String.ofList ·)

end FileFormat

/-! ## Files -/

/-- The files of the configuration directory by their names in it. Those around it have names that
lead there. -/
abbrev Directory := List (String × List UInt8)

/-- A file that was found for a name. -/
structure Document where
  format : FileFormat
  uri : String
  content : List UInt8

namespace Directory

def parts (name : String) : List String := (name.toList.splitOn '/').map String.ofList

/-- The steps of a name but those that stay where they are. -/
def steps (name : String) : List String := (parts name).filter fun step => step ≠ "" ∧ step ≠ "."

/-- The file of exactly this name. One that ends in a slash or a dot is a directory's. -/
def named? (d : Directory) (name : String) : Option (List UInt8) :=
  if (parts name).getLast? ∈ [some "", some ".", some ".."] then none
  else d.lookup ("/".intercalate (steps name))

/-- The first file of a name that has a suffix added to it. A suffix to the directory's own name
leads beside it, and one to the name of what is above it leads nowhere. -/
def extended? (d : Directory) (formats : List FileFormat) (name : String) : Option Document :=
  let steps := steps name
  let whole := "/".intercalate steps
  let search (uri place : String) : Option Document :=
    formats.findSome? fun f => f.suffixes.findSome? fun suffix =>
      (d.lookup (place ++ "." ++ suffix)).map (⟨f, uri ++ "." ++ suffix, ·⟩)
  match steps.getLast? with
  | none => search "config" "../config"
  | some ".." => none
  | some _ => search ("config/" ++ whole) whole

/-- The file of exactly this name, or else the first with a suffix added. -/
def find? (d : Directory) (formats : List FileFormat) (name : String) : Option Document :=
  match d.named? name with
  | some content =>
    (FileFormat.ofName? formats ((steps name).getLastD "")).map
      (⟨·, "config/" ++ "/".intercalate (steps name), content⟩)
  | none => d.extended? formats name

end Directory

/-- The text of a file, without a byte order mark; bytes that are no text are made visible. -/
def textOfFile (content : List UInt8) : List Char :=
  match Utf8.decodeLossy content with
  | '\uFEFF' :: text => text
  | text => text

/-- The entries of a document whose top is a table. -/
def Document.source? (d : Document) : Option Source := d.format.read? d.uri (textOfFile d.content)

/-! ## The environment -/

abbrev Environment := List (String × String)

namespace Environment

/-- Variables that set something start with this, in any case. -/
def marker : List Char := "ytpush__".toList

def origin : String := "the environment"

def dotted : List Char → List Char
  | '_' :: '_' :: rest => '.' :: dotted rest
  | c :: rest => c :: dotted rest
  | [] => []

def key? (name : String) : Option String :=
  (marker.isPrefixOf? (Lowercase.ofText name.toList)).map fun rest => String.ofList (dotted rest)

/-- What the variables set; every value is text. -/
def source (vars : Environment) : Source :=
  vars.filterMap fun (name, v) =>
    (key? name).map fun key => (key, .scalar (some origin) (.text v))

end Environment

end WebSub.Settings
