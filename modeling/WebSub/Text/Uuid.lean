import WebSub.Text.Hex

/-!
# UUIDs

128-bit row identities, written with hyphens in lower case and read in every usual notation.
-/

namespace WebSub

structure Uuid where
  bits : BitVec 128
deriving DecidableEq, Repr, Inhabited

namespace Uuid

def nil : Uuid := ⟨0⟩

/-- The identity that the `n`-th draw yields, laid out as a random one: version 4, variant 1. -/
def drawn (n : Nat) : Uuid :=
  ⟨BitVec.ofNat 128 (0x6d1f0c52a7b34e09a3c5000000000000 + n)⟩

/-- The thirty-two digits, most significant first. -/
def digits (u : Uuid) : List Char :=
  (List.range 32).map fun i => Hex.digit (u.bits.toNat / Nat.pow 16 (31 - i) % 16)

def toText (u : Uuid) : String :=
  let d := u.digits
  let group (start size : Nat) := (d.drop start).take size
  String.ofList
    (group 0 8 ++ '-' :: group 8 4 ++ '-' :: group 12 4 ++ '-' :: group 16 4 ++ '-' :: group 20 12)

def ofDigits? (text : List Char) : Option Uuid :=
  if text.length = 32 then
    (text.mapM Hex.value?).map fun ds => ⟨BitVec.ofNat 128 (ds.foldl (fun n d => 16 * n + d) 0)⟩
  else none

/-- The grouped notation: thirty-six characters with hyphens in their places. -/
def ofGroups? (text : List Char) : Option Uuid :=
  if text.length = 36 ∧ [8, 13, 18, 23].all (fun i => text[i]? == some '-') then
    ofDigits? (text.take 8 ++ (text.drop 9).take 4 ++ (text.drop 14).take 4 ++
      (text.drop 19).take 4 ++ text.drop 24)
  else none

def urnHead : List Char := "urn:uuid:".toList

/-- Plain digits, grouped digits, grouped digits in braces, or a URN. -/
def ofText? (text : List Char) : Option Uuid :=
  match ofDigits? text, ofGroups? text with
  | some u, _ => some u
  | none, some u => some u
  | none, none =>
    match text with
    | '{' :: rest =>
      if rest.getLast? = some '}' then ofGroups? rest.dropLast else none
    | _ => (urnHead.isPrefixOf? text).bind ofGroups?

end Uuid

end WebSub
