/-!
# SHA-1

The 160-bit digest of a byte message.
-/

namespace WebSub.Sha1

/-- The five words of the running digest. -/
structure State where
  a : UInt32 := 0x67452301
  b : UInt32 := 0xEFCDAB89
  c : UInt32 := 0x98BADCFE
  d : UInt32 := 0x10325476
  e : UInt32 := 0xC3D2E1F0

def rotateLeft (x : UInt32) (n : UInt32) : UInt32 := (x <<< n) ||| (x >>> (32 - n))

/-- The bytes of a word, most significant first. -/
def wordBytes (w : UInt32) : List UInt8 :=
  [(w >>> 24).toUInt8, (w >>> 16).toUInt8, (w >>> 8).toUInt8, w.toUInt8]

/-- The words of a block, four bytes each, most significant first. -/
def words : List UInt8 → List UInt32
  | a :: b :: c :: d :: rest =>
    (a.toUInt32 <<< 24 ||| b.toUInt32 <<< 16 ||| c.toUInt32 <<< 8 ||| d.toUInt32) :: words rest
  | _ => []

/-- The eighty words that a block is spread to. -/
def schedule (block : List UInt8) : Array UInt32 :=
  (List.range 64).foldl
    (fun w i =>
      let at' (k : Nat) := w.getD (i + 16 - k) 0
      w.push (rotateLeft (at' 3 ^^^ at' 8 ^^^ at' 14 ^^^ at' 16) 1))
    (words block).toArray

/-- Round `i` mixes word `w` into the state. -/
def round (s : State) (i : Nat) (w : UInt32) : State :=
  let (f, k) : UInt32 × UInt32 :=
    if i < 20 then ((s.b &&& s.c) ||| ((~~~ s.b) &&& s.d), 0x5A827999)
    else if i < 40 then (s.b ^^^ s.c ^^^ s.d, 0x6ED9EBA1)
    else if i < 60 then ((s.b &&& s.c) ||| (s.b &&& s.d) ||| (s.c &&& s.d), 0x8F1BBCDC)
    else (s.b ^^^ s.c ^^^ s.d, 0xCA62C1D6)
  ⟨rotateLeft s.a 5 + f + s.e + k + w, s.a, rotateLeft s.b 30, s.c, s.d⟩

def compress (s : State) (block : List UInt8) : State :=
  let w := schedule block
  let t := (List.range 80).foldl (fun t i => round t i (w.getD i 0)) s
  ⟨s.a + t.a, s.b + t.b, s.c + t.c, s.d + t.d, s.e + t.e⟩

/-- The message, a one bit, zeros, and its length in bits: a whole number of 64-byte blocks. -/
def pad (message : List UInt8) : List UInt8 :=
  let n := message.length
  let bits := 8 * n
  message ++ 0x80 :: List.replicate ((119 - n % 64) % 64) 0 ++
    (List.range 8).map fun i => UInt8.ofNat (bits / Nat.pow 256 (7 - i))

def absorb (s : State) (bytes : List UInt8) : State :=
  match bytes with
  | [] => s
  | b :: rest => absorb (compress s ((b :: rest).take 64)) ((b :: rest).drop 64)
termination_by bytes.length
decreasing_by simp only [List.length_drop, List.length_cons]; omega

def State.bytes (s : State) : List UInt8 :=
  wordBytes s.a ++ wordBytes s.b ++ wordBytes s.c ++ wordBytes s.d ++ wordBytes s.e

def digest (message : List UInt8) : List UInt8 := (absorb {} (pad message)).bytes

theorem length_digest (message : List UInt8) : (digest message).length = 20 := rfl

end WebSub.Sha1
