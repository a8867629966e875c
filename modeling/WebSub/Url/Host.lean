import WebSub.Text.Lowercase
import WebSub.Text.Percent
import WebSub.Text.Utf8
import WebSub.Url.Punycode

/-!
# Hosts

Names and addresses as they stand in a URL. A name is in lower case and in ASCII; an address has
one form however it was written.
-/

namespace WebSub

inductive Host where
  | name (text : String)
  | ipv4 (address : Nat)
  /-- Eight pieces of 16 bits. -/
  | ipv6 (pieces : List Nat)
deriving DecidableEq, Repr

namespace Host

/-! ## Numbers -/

/-- The number of a row of digits; an empty row is zero. -/
def number? (radix : Nat) (row : List Char) : Option Nat :=
  (row.mapM fun c => (Hex.value? c).filter (· < radix)).map fun ds =>
    ds.foldl (fun n d => radix * n + d) 0

/-! ## IPv4 -/

/-- One number of an address: hexadecimal, octal or decimal, as its start says. -/
def part? (text : List Char) : Option Nat :=
  match text with
  | [] => none
  | '0' :: 'x' :: row => number? 16 row
  | '0' :: 'X' :: row => number? 16 row
  | '0' :: d :: row => number? 8 (d :: row)
  | row => number? 10 row

/-- The labels of a name, without the empty one after a final dot. -/
def labels (name : List Char) : List (List Char) :=
  let parts := name.splitOn '.'
  if 1 < parts.length ∧ parts.getLast? = some [] then parts.dropLast else parts

/-- Whether a name must be an address: its last label is a number. -/
def endsInNumber (name : List Char) : Bool :=
  match (labels name).getLast? with
  | none => false
  | some last =>
    let isHex := last.take 2 = ['0', 'x'] ∨ last.take 2 = ['0', 'X']
    (last ≠ [] ∧ last.all Char.isDigit) || (isHex && (part? last).isSome)

/-- The address of up to four numbers, of which the last one fills what is left. -/
def ipv4? (name : List Char) : Option Nat := do
  let parts ← (labels name).mapM part?
  let last ← parts.getLast?
  let leading := parts.dropLast
  if 4 < parts.length ∨ leading.any (255 < ·) then none
  else
    let room := Nat.pow 256 (5 - parts.length)
    if room ≤ last then none
    else some (leading.foldl (fun n p => 256 * n + p) 0 * room + last)

def ipv4Text (address : Nat) : String :=
  ".".intercalate ([16777216, 65536, 256, 1].map fun unit => toString (address / unit % 256))

/-! ## IPv6 -/

def piece? (text : List Char) : Option Nat :=
  if 1 ≤ text.length ∧ text.length ≤ 4 then number? 16 text else none

/-- A decimal number below 256 without needless zeros. -/
def octet? (text : List Char) : Option Nat :=
  if text = [] ∨ (text.head? = some '0' ∧ 1 < text.length) then none
  else (number? 10 text).filter (· < 256)

def dottedPieces? (text : List Char) : Option (List Nat) :=
  match (text.splitOn '.').mapM octet? with
  | some [a, b, c, d] => some [256 * a + b, 256 * c + d]
  | _ => none

/-- Pieces with colons between them; the last two may be written as octets. -/
def pieces? (text : List Char) : Option (List Nat) :=
  if text = [] then some []
  else
    let parts := text.splitOn ':'
    match parts.getLast? with
    | none => none
    | some last =>
      if last.contains '.' then do
        return (← parts.dropLast.mapM piece?) ++ (← dottedPieces? last)
      else parts.mapM piece?

def splitGap : List Char → Option (List Char × List Char)
  | ':' :: ':' :: rest => some ([], rest)
  | c :: rest => (splitGap rest).map fun (before, after) => (c :: before, after)
  | [] => none

/-- Eight pieces, or fewer with a gap of zeros. -/
def ipv6? (text : List Char) : Option (List Nat) :=
  match splitGap text with
  | none => (pieces? text).filter (·.length = 8)
  | some (before, after) => do
    if before.contains '.' then none
    else
      let front ← pieces? before
      let back ← pieces? after
      if front.length + back.length ≤ 7 then
        some (front ++ List.replicate (8 - front.length - back.length) 0 ++ back)
      else none

/-- The length of the row of zeros at the front. -/
def zeros (pieces : List Nat) : Nat := (pieces.takeWhile (· == 0)).length

/-- Where the longest row of zeros starts and how long it is; the first one of several. -/
def longestZeros (pieces : List Nat) : Nat × Nat :=
  (List.range pieces.length).foldl (fun (start, length) i =>
    let here := zeros (pieces.drop i)
    if length < here then (i, here) else (start, length)) (0, 0)

def pieceText (n : Nat) : String := String.ofList (Nat.toDigits 16 n)

/-- The pieces in hexadecimal; two or more zeros in a row give way to a gap. -/
def ipv6Text (pieces : List Nat) : String :=
  let join (ps : List Nat) : String := ":".intercalate (ps.map pieceText)
  let (start, length) := longestZeros pieces
  if length < 2 then join pieces
  else join (pieces.take start) ++ "::" ++ join (pieces.drop (start + length))

/-! ## Names -/

def isIgnored (c : Char) : Bool := c.toNat ∈ [0xAD, 0x200B, 0x2060, 0xFEFF]

/-- A character in the form that names use: narrow, with the plain dot. -/
def narrow (c : Char) : Char :=
  if c.toNat ∈ [0x3002, 0xFF0E, 0xFF61] then '.'
  else if 0xFF01 ≤ c.toNat ∧ c.toNat ≤ 0xFF5E then Char.ofNat (c.toNat - 0xFEE0)
  else c

def asciiLabel (label : List Char) : List Char :=
  if label.all (·.toNat < 128) then label else "xn--".toList ++ Punycode.encode label

def asciiName (text : List Char) : List Char :=
  let lowered := Lowercase.ofText ((text.filter (!isIgnored ·)).map narrow)
  ['.'].intercalate ((lowered.splitOn '.').map asciiLabel)

def isForbidden (c : Char) : Bool :=
  c.toNat ≤ 0x20 || c.toNat == 0x7F || "#/:<>?@[\\]^|%".toList.contains c

/-- The host of a URL whose scheme has names and addresses. -/
def ofText? (text : List Char) : Option Host :=
  match text with
  | '[' :: rest =>
    match rest.getLast? with
    | some ']' => (ipv6? rest.dropLast).map .ipv6
    | _ => none
  | _ => do
    let name := asciiName (← Utf8.decode? (Percent.decode (Utf8.encode text)))
    if name = [] ∨ name.any isForbidden then none
    else if endsInNumber name then (ipv4? name).map .ipv4
    else some (.name (String.ofList name))

/-- The host of any other URL: an address in brackets, or a name that is left as it is. -/
def ofPlainText? (text : List Char) : Option Host :=
  match text with
  | '[' :: rest =>
    match rest.getLast? with
    | some ']' => (ipv6? rest.dropLast).map .ipv6
    | _ => none
  | _ =>
    if text.any fun c => c != '%' && isForbidden c && c.toNat != 0x7F then none
    else
      let escaped (b : UInt8) : List Char :=
        if 0x20 ≤ b.toNat ∧ b.toNat < 0x7F then [Char.ofNat b.toNat] else Percent.escape b
      some (.name (String.ofList ((Utf8.encode text).flatMap escaped)))

def toText : Host → String
  | name text => text
  | ipv4 address => ipv4Text address
  | ipv6 pieces => "[" ++ ipv6Text pieces ++ "]"

end Host

end WebSub
