/-!
# UTF-8

Characters as bytes and back. The reader is a machine that takes one byte at a time; where the
bytes are not UTF-8 it reports a gap, so one reading serves the strict and the lenient decoder.
-/

namespace WebSub.Utf8

/-! ## Writing -/

def encodeChar (c : Char) : List UInt8 :=
  let n := c.toNat
  if n < 0x80 then [UInt8.ofNat n]
  else if n < 0x800 then [UInt8.ofNat (0xC0 + n / 64), UInt8.ofNat (0x80 + n % 64)]
  else if n < 0x10000 then
    [UInt8.ofNat (0xE0 + n / 4096), UInt8.ofNat (0x80 + n / 64 % 64), UInt8.ofNat (0x80 + n % 64)]
  else
    [UInt8.ofNat (0xF0 + n / 262144), UInt8.ofNat (0x80 + n / 4096 % 64),
      UInt8.ofNat (0x80 + n / 64 % 64), UInt8.ofNat (0x80 + n % 64)]

def encode (text : List Char) : List UInt8 := text.flatMap encodeChar

/-! ## Reading -/

/-- Where the reader stands: between characters, or inside one that still owes bytes. -/
inductive State where
  | between
  /-- The next byte must lie in `low ≤ b ≤ high`; `code` is what the bytes so far spell. -/
  | inside (owed code low high : Nat)
deriving DecidableEq, Repr

/-- What a byte read between characters yields: `none` marks a gap. -/
def first (b : UInt8) : List (Option Char) × State :=
  let n := b.toNat
  if n < 0x80 then ([some (Char.ofNat n)], .between)
  else if n < 0xC2 then ([none], .between)
  else if n < 0xE0 then ([], .inside 1 (n - 0xC0) 0x80 0xBF)
  else if n < 0xF0 then
    ([], .inside 2 (n - 0xE0) (if n = 0xE0 then 0xA0 else 0x80) (if n = 0xED then 0x9F else 0xBF))
  else if n < 0xF5 then
    ([], .inside 3 (n - 0xF0) (if n = 0xF0 then 0x90 else 0x80) (if n = 0xF4 then 0x8F else 0xBF))
  else ([none], .between)

/-- A byte that cannot continue a character closes it with a gap and is read afresh. -/
def step : State → UInt8 → List (Option Char) × State
  | .between, b => first b
  | .inside owed code low high, b =>
    let n := b.toNat
    if low ≤ n ∧ n ≤ high then
      let code := 64 * code + (n - 0x80)
      if owed ≤ 1 then ([some (Char.ofNat code)], .between)
      else ([], .inside (owed - 1) code 0x80 0xBF)
    else
      let (out, state) := first b
      (none :: out, state)

/-- The reader with what it has read, newest first. -/
structure Reader where
  read : List (Option Char) := []
  state : State := .between

def Reader.push (r : Reader) (b : UInt8) : Reader :=
  let (out, state) := step r.state b
  ⟨out.reverse ++ r.read, state⟩

/-- A character cut short by the end of the bytes is a gap. -/
def Reader.finish (r : Reader) : List (Option Char) :=
  match r.state with
  | .between => r.read.reverse
  | .inside .. => (none :: r.read).reverse

/-- The characters and gaps of a byte sequence, in order. -/
def pieces (bytes : List UInt8) : List (Option Char) :=
  (bytes.foldl Reader.push {}).finish

def decode? (bytes : List UInt8) : Option (List Char) :=
  let ps := pieces bytes
  if ps.all Option.isSome then some (ps.filterMap id) else none

def decodeLossy (bytes : List UInt8) : List Char :=
  (pieces bytes).map (·.getD '\uFFFD')

end WebSub.Utf8
