import WebSub.Http.MediaType
import WebSub.Text.Charset

/-!
# Answers of a server

What a client receives: a status, headers, and a body that may be cut short.
-/

namespace WebSub.Http

structure Answer where
  status : Nat
  headers : List (String × String)
  body : List UInt8
  /-- The length that is announced, where it is not that of the body. -/
  declaredLength : Option Nat

/-- What a server does with a request. -/
inductive Reply where
  | answer (a : Answer)
  /-- The connection is dropped. -/
  | closed

namespace Answer

def isPadding (c : Char) : Bool := c == ' ' || c == '\t'

/-- The first header of a name, whose case does not matter, without the blanks and tabs at its
ends. -/
def header? (a : Answer) (name : String) : Option String :=
  (a.headers.find? fun (n, _) => n.toLower == name.toLower).map fun (_, v) =>
    String.ofList ((v.toList.dropWhile isPadding).reverse.dropWhile isPadding).reverse

/-- Visible characters, blanks and tabs. -/
def isPlainChar (c : Char) : Bool := c == '\t' || 0x20 ≤ c.toNat && c.toNat < 0x7F

def isSuccess (a : Answer) : Bool := 200 ≤ a.status && a.status ≤ 299

def allowsBody (a : Answer) : Bool := a.status != 101 && a.status != 204 && a.status != 304

/-- The body as it arrives, unless the connection ends before the announced length. -/
def received? (a : Answer) : Option (List UInt8) :=
  if a.allowsBody = false then some []
  else
    match a.declaredLength with
    | none => some a.body
    | some n => if n ≤ a.body.length then some (a.body.take n) else none

/-- The character set that is announced, if it is known. -/
def charset (library : Charset.Library) (a : Answer) : Charset :=
  let named := do
    let type ← a.header? "content-type"
    guard (type.toList.all isPlainChar)
    let m ← MediaType.ofText? type.toList
    Charset.ofName? library (← m.parameters.lookup "charset")
  named.getD .utf8

/-- The text of the body; one that does not arrive is empty. -/
def text (library : Charset.Library) (a : Answer) : List Char :=
  match a.received? with
  | none => []
  | some body => (a.charset library).decode body

end Answer

end WebSub.Http
