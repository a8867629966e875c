import WebSub.Http.MediaType
import WebSub.Json.Basic
import WebSub.Text.Form
import WebSub.Text.Utf8

/-!
# Requests and responses

HTTP messages as far as the service looks at them.
-/

namespace WebSub.Http

structure Request where
  method : String
  /-- The path and the query, as sent. -/
  target : String
  headers : List (String × List UInt8)
  body : List UInt8

namespace Request

/-- The first header of a name, whose case does not matter. -/
def header? (r : Request) (name : String) : Option (List UInt8) :=
  (r.headers.find? fun (n, _) => n.toLower == name.toLower).map (·.2)

def address (r : Request) : List Char := r.target.toList.takeWhile (· != '#')

def path (r : Request) : List Char := r.address.takeWhile (· != '?')

def query (r : Request) : List (String × String) :=
  Form.read (Utf8.encode ((r.address.dropWhile (· != '?')).drop 1))

def isJson (r : Request) : Bool :=
  match (r.header? "content-type").bind Utf8.decode? with
  | some text => ((MediaType.ofText? text).map (·.isJson)).getD false
  | none => false

end Request

inductive Body where
  | empty
  | text (s : String)
  | json (v : Json)
  /-- Words to a client that sent something unreadable; they are for people only. -/
  | complaint

structure Response where
  status : Nat
  contentType : Option String
  body : Body

namespace Response

def plainText : String := "text/plain; charset=utf-8"

def empty (status : Nat) : Response := ⟨status, none, .empty⟩

def text (status : Nat) (s : String) : Response := ⟨status, some plainText, .text s⟩

def json (status : Nat) (v : Json) : Response := ⟨status, some "application/json", .json v⟩

/-- The answer to a request that cannot be read. -/
def complaint (status : Nat) : Response := ⟨status, some plainText, .complaint⟩

def problem (status : Nat) (message : String) : Response :=
  json status (.object [("error", .str message)])

def headOnly (r : Response) : Response := { r with body := .empty }

end Response

end WebSub.Http
