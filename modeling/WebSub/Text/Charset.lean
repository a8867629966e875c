import WebSub.Text.Utf8

/-!
# Character sets

Text from bytes, by the name of its character set. A byte order mark says more than the name does.
The character sets that are spelled out here are those of Unicode and the usual Latin one. All
others come from a library, which may have any number of them.
-/

namespace WebSub

inductive Charset where
  | utf8
  /-- Latin letters, one byte each. -/
  | western
  /-- Units of two bytes, the low one first or the high one. -/
  | utf16 (lowFirst : Bool)
  /-- One of a library, as what it makes of bytes. -/
  | further (read : List UInt8 → List Char)

namespace Charset

/-- Further character sets, by their names in lower case. -/
abbrev Library := String → Option (List UInt8 → List Char)

def utf8Names : List String :=
  ["unicode-1-1-utf-8", "unicode11utf8", "unicode20utf8", "utf-8", "utf8", "x-unicode20utf8"]

def westernNames : List String :=
  ["ansi_x3.4-1968", "ascii", "cp1252", "cp819", "csisolatin1", "ibm819", "iso-8859-1",
    "iso-ir-100", "iso8859-1", "iso88591", "iso_8859-1", "iso_8859-1:1987", "l1", "latin1",
    "us-ascii", "windows-1252", "x-cp1252"]

def utf16LowNames : List String :=
  ["csunicode", "iso-10646-ucs-2", "ucs-2", "unicode", "unicodefeff", "utf-16", "utf-16le"]

def utf16HighNames : List String := ["unicodefffe", "utf-16be"]

/-- A character set by one of its names, in any case. -/
def ofName? (library : Library) (name : String) : Option Charset :=
  let name := name.trimAscii.toString.toLower
  if name ∈ utf8Names then some utf8
  else if name ∈ westernNames then some western
  else if name ∈ utf16LowNames then some (utf16 true)
  else if name ∈ utf16HighNames then some (utf16 false)
  else (library name).map further

/-! ## Reading -/

/-- The characters of the bytes from 128 to 159 in the western set. -/
def westernRow : List Nat :=
  [0x20AC, 0x81, 0x201A, 0x0192, 0x201E, 0x2026, 0x2020, 0x2021, 0x02C6, 0x2030, 0x0160, 0x2039,
    0x0152, 0x8D, 0x017D, 0x8F, 0x90, 0x2018, 0x2019, 0x201C, 0x201D, 0x2022, 0x2013, 0x2014,
    0x02DC, 0x2122, 0x0161, 0x203A, 0x0153, 0x9D, 0x017E, 0x0178]

def westernChar (b : UInt8) : Char :=
  let n := b.toNat
  Char.ofNat (if 0x80 ≤ n ∧ n < 0xA0 then westernRow.getD (n - 0x80) n else n)

/-- The units of two bytes each; a byte alone at the end is none. -/
def units (lowFirst : Bool) : List UInt8 → List (Option Nat)
  | a :: b :: rest =>
    some (if lowFirst then a.toNat + 256 * b.toNat else 256 * a.toNat + b.toNat) ::
      units lowFirst rest
  | [_] => [none]
  | [] => []

/-- The characters of units; two halves of a pair make one, and what makes none is shown. A first
half and a byte alone at the end are shown as one. -/
def ofUnits : List (Option Nat) → List Char
  | some n :: some m :: rest =>
    if 0xD800 ≤ n ∧ n < 0xDC00 ∧ 0xDC00 ≤ m ∧ m < 0xE000 then
      Char.ofNat (0x10000 + (n - 0xD800) * 0x400 + (m - 0xDC00)) :: ofUnits rest
    else lone n :: ofUnits (some m :: rest)
  | [some n, none] => if 0xD800 ≤ n ∧ n < 0xDC00 then ['\uFFFD'] else [lone n, '\uFFFD']
  | some n :: rest => lone n :: ofUnits rest
  | none :: rest => '\uFFFD' :: ofUnits rest
  | [] => []
where
  /-- The character of a unit by itself. -/
  lone (n : Nat) : Char := if 0xD800 ≤ n ∧ n < 0xE000 then '\uFFFD' else Char.ofNat n

def read (c : Charset) (bytes : List UInt8) : List Char :=
  match c with
  | utf8 => Utf8.decodeLossy bytes
  | western => bytes.map westernChar
  | utf16 lowFirst => ofUnits (units lowFirst bytes)
  | further read => read bytes

/-- The text of bytes without their byte order mark, which decides over the character set. -/
def decode (c : Charset) (bytes : List UInt8) : List Char :=
  match bytes with
  | 0xEF :: 0xBB :: 0xBF :: rest => utf8.read rest
  | 0xFF :: 0xFE :: rest => (utf16 true).read rest
  | 0xFE :: 0xFF :: rest => (utf16 false).read rest
  | bytes => c.read bytes

end Charset

end WebSub
