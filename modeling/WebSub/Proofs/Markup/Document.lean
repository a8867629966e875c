import Mathlib.Data.List.Infix
import WebSub.Markup.Event
import WebSub.Proofs.Markup.Escape

/-!
# Documents

Well-formed documents as trees: names that hold nothing by which markup is told apart, attributes
with distinct names, and character data, comments and instructions that cannot end early.
-/

namespace WebSub.Markup

/-! ## Names -/

def isNameChar (c : Char) : Bool := !isBlank c && !"<>/=\"'&!?".toList.contains c

theorem isNameChar_spec {c : Char} (h : isNameChar c = true) :
    isBlank c = false ∧ c ≠ '<' ∧ c ≠ '>' ∧ c ≠ '/' ∧ c ≠ '=' ∧ c ≠ '"' ∧ c ≠ '\'' ∧ c ≠ '&' ∧
      c ≠ '!' ∧ c ≠ '?' := by
  simpa [isNameChar] using h

structure NamePart where
  text : List Char
  nonempty : text ≠ []
  named : ∀ c ∈ text, isNameChar c = true ∧ c ≠ ':'

/-- A name, with the name space it is given in. -/
structure Name where
  space : Option NamePart
  base : NamePart

namespace Name

def write (n : Name) : List Char :=
  match n.space with
  | none => n.base.text
  | some space => space.text ++ ':' :: n.base.text

theorem write_ne_nil (n : Name) : n.write ≠ [] := by
  unfold write
  cases n.space with
  | none => exact n.base.nonempty
  | some space => simp

theorem isNameChar_write (n : Name) : ∀ c ∈ n.write, isNameChar c = true := by
  intro c hc
  unfold write at hc
  cases found : n.space with
  | none =>
    rw [found] at hc
    exact (n.base.named c hc).1
  | some space =>
    rw [found] at hc
    rcases List.mem_append.mp hc with hc | hc
    · exact (space.named c hc).1
    · rcases List.mem_cons.mp hc with rfl | hc
      · decide
      · exact (n.base.named c hc).1

theorem localPart_write (n : Name) : localPart n.write = n.base.text := by
  have plain (p : NamePart) : ∀ c ∈ p.text, (c != ':') = true := by
    intro c hc
    simpa using (p.named c hc).2
  unfold localPart write
  cases n.space with
  | none =>
    have all : n.base.text.dropWhile (· != ':') = [] :=
      List.dropWhile_eq_nil_iff.mpr (plain n.base)
    simp only [all]
  | some space =>
    simp only [dropWhile_upto (plain space) (c := ':') (by decide)]

end Name

/-! ## Trees -/

/-- The name of an element and its attributes, in order. -/
structure Head where
  name : Name
  attributes : List (Name × List Char)
  distinct : (attributes.map (·.1.write)).Nodup

/-- A text that, after what leads up to it, does not hold its ending. -/
structure Enclosed (lead ending : String) where
  text : List Char
  unended : ¬ ending.toList <:+: lead.toList ++ text

/-- What an element holds: a first piece and whatever follows it. -/
inductive Content where
  | nil
  | text (chars : List Char) (next : Content)
  | cdata (data : Enclosed "" "]]>") (next : Content)
  | comment (data : Enclosed "" "-->") (next : Content)
  | instruction (data : Enclosed "?" "?>") (next : Content)
  | element (head : Head) (inside next : Content)

structure Element where
  head : Head
  inside : Content

/-! ## Writing -/

namespace Head

def writeAttributes : List (Name × List Char) → List Char
  | [] => []
  | (name, value) :: rest =>
    ' ' :: (name.write ++ '=' :: '"' :: (escape value ++ '"' :: writeAttributes rest))

/-- What a start tag holds between its brackets. -/
def content (h : Head) : List Char := h.name.write ++ writeAttributes h.attributes

def writeStart (h : Head) : List Char := '<' :: (h.content ++ ['>'])

def writeEnd (h : Head) : List Char := '<' :: '/' :: (h.name.write ++ ['>'])

end Head

def Enclosed.write {lead ending : String} (opening : String) (e : Enclosed lead ending) :
    List Char :=
  '<' :: (opening.toList ++ e.text ++ ending.toList)

def Content.write : Content → List Char
  | nil => []
  | text chars next => escape chars ++ next.write
  | cdata data next => data.write "![CDATA[" ++ next.write
  | comment data next => data.write "!--" ++ next.write
  | instruction data next => data.write "?" ++ next.write
  | element head inside next => head.writeStart ++ inside.write ++ head.writeEnd ++ next.write

/-! ## Reading off a tree -/

/-- The value of the last attribute with a local name. -/
def Head.last? (h : Head) (name : String) : Option String :=
  (h.attributes.reverse.find? (·.1.base.text == name.toList)).map (String.ofList ·.2)

namespace Content

/-- The text and character data of a whole subtree. -/
def allText : Content → List Char
  | nil => []
  | text chars next => chars ++ next.allText
  | cdata data next => data.text ++ next.allText
  | comment _ next => next.allText
  | instruction _ next => next.allText
  | element _ inside next => inside.allText ++ next.allText

def children : Content → List Element
  | nil => []
  | text _ next => next.children
  | cdata _ next => next.children
  | comment _ next => next.children
  | instruction _ next => next.children
  | element head inside next => ⟨head, inside⟩ :: next.children

/-- The elements at any depth, in document order. -/
def elements : Content → List Element
  | nil => []
  | text _ next => next.elements
  | cdata _ next => next.elements
  | comment _ next => next.elements
  | instruction _ next => next.elements
  | element head inside next => ⟨head, inside⟩ :: (inside.elements ++ next.elements)

end Content

namespace Element

def write (e : Element) : List Char := e.head.writeStart ++ e.inside.write ++ e.head.writeEnd

/-- Whether an element has a local name. -/
def named (name : String) (e : Element) : Bool := e.head.name.base.text == name.toList

theorem named_iff {name : String} {e : Element} :
    e.named name = true ↔ e.head.name.base.text = name.toList := beq_iff_eq

/-- An element and those inside it, in document order. -/
def elements (e : Element) : List Element := e :: e.inside.elements

end Element

end WebSub.Markup
