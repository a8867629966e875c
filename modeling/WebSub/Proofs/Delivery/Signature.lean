import Mathlib.Data.List.TakeDrop
import Mathlib.Data.List.TakeWhile
import Mathlib.Tactic.ByContra
import WebSub.Proofs.Text.Hex
import WebSub.Proofs.Text.Utf8
import WebSub.Signature

/-!
# Which headers a verifier accepts

Exactly the headers that name a digest and spell the whole of it, and each other header is refused
for a definite reason.
-/

namespace WebSub

namespace Hmac

def Algorithm.name : Algorithm → String
  | .sha1 => "sha1"
  | .sha256 => "sha256"

/-- The length of a digest in bytes. -/
def Algorithm.size : Algorithm → Nat
  | .sha1 => 20
  | .sha256 => 32

theorem length_code (a : Algorithm) (key message : List UInt8) :
    (code a key message).length = a.size := by
  cases a with
  | sha1 => exact Sha1.length_digest _
  | sha256 => exact Sha256.length_digest _

end Hmac

namespace Verifier

open Hmac (Algorithm)

/-! ## What is said of headers -/

def bytesOf (text : String) : List UInt8 := text.toUTF8.data.toList

/-- A header that signs a body: a digest's name, `=`, and its digits in either case, all of them. -/
def Signs (secret : String) (body header : List UInt8) : Prop :=
  ∃ (a : Algorithm) (digits : String), header = bytesOf (a.name ++ "=" ++ digits) ∧
    digits.toList.map Char.toLower = Hex.encode (Hmac.code a (bytesOf secret) body)

/-- A header that is no text, that has no `=`, or whose first one stands before something else than
hexadecimal or after something else than the name of a digest. -/
inductive Malformed (header : List UInt8) : Prop
  | encoding (foreign : ∀ text, header ≠ bytesOf text)
  | undivided {text : String} (same : header = bytesOf text) (whole : '=' ∉ text.toList)
  | digits {name digits : String} (same : header = bytesOf (name ++ "=" ++ digits))
      (first : '=' ∉ name.toList) (odd : ¬ Hex.IsHex digits.toList)
  | algorithm {name digits : String} (same : header = bytesOf (name ++ "=" ++ digits))
      (first : '=' ∉ name.toList) (unknown : ∀ a : Algorithm, name ≠ a.name)

/-! ## The check of a text -/

theorem algorithm?_eq_some_iff {name : List Char} {a : Algorithm} :
    algorithm? name = some a ↔ name = a.name.toList := by
  unfold algorithm?
  cases a <;> split_ifs <;> simp_all [Algorithm.name]

theorem algorithm?_name (a : Algorithm) : algorithm? a.name.toList = some a :=
  algorithm?_eq_some_iff.mpr rfl

theorem algorithm?_eq_none {name : String} (unknown : ∀ a : Algorithm, name ≠ a.name) :
    algorithm? name.toList = none := by
  rw [Option.eq_none_iff_forall_ne_some]
  intro a known
  exact unknown a (String.toList_inj.mp (algorithm?_eq_some_iff.mp known))

variable {key body : List UInt8}

theorem verify_undivided {text : List Char} (nonempty : text ≠ []) (whole : '=' ∉ text) :
    verify ⟨some key⟩ body (some text) = .error .malformed := by
  have all : ∀ c ∈ text, (c != '=') = true := by
    intro c hc
    rw [bne_iff_ne]
    exact fun same => whole (same ▸ hc)
  cases text with
  | nil => exact absurd rfl nonempty
  | cons c text =>
    simp only [verify, List.span_eq_takeWhile_dropWhile]
    rw [List.dropWhile_eq_nil_iff.mpr all]

theorem verify_divided {name digits : List Char} (first : '=' ∉ name) :
    verify ⟨some key⟩ body (some (name ++ '=' :: digits)) =
      match Hex.decode? digits, algorithm? name with
      | some expected, some a =>
        if expected = Hmac.code a key body then .ok () else .error .mismatch
      | _, _ => .error .malformed := by
  have all : ∀ c ∈ name, (c != '=') = true := by
    intro c hc
    rw [bne_iff_ne]
    exact fun same => first (same ▸ hc)
  obtain ⟨c, rest, cons⟩ : ∃ c rest, name ++ '=' :: digits = c :: rest := by
    cases name <;> exact ⟨_, _, rfl⟩
  have kept : (name ++ '=' :: digits).takeWhile (· != '=') = name := by
    rw [List.takeWhile_append_of_pos all]
    simp
  have left : (name ++ '=' :: digits).dropWhile (· != '=') = '=' :: digits := by
    rw [List.dropWhile_append_of_pos all]
    simp
  rw [cons] at kept left ⊢
  simp only [verify, List.span_eq_takeWhile_dropWhile, left]
  exact kept ▸ rfl

/-! ## The check of bytes -/

theorem verifyHeader_bytesOf (v : Verifier) (text : String) :
    v.verifyHeader body (some (bytesOf text)) = v.verify body (some text.toList) := by
  have decoded : Utf8.decode? (bytesOf text) = some text.toList :=
    Utf8.decode?_eq_some_iff.mpr (Utf8.encode_toList text).symm
  unfold verifyHeader
  simp only [decoded]
  split_ifs with disabled
  · unfold verify
    rw [Option.isNone_iff_eq_none.mp disabled]
  · rfl

theorem verifyHeader_foreign {header : List UInt8} (foreign : ∀ text, header ≠ bytesOf text) :
    verifyHeader ⟨some key⟩ body (some header) = .error .malformed := by
  have undecodable : Utf8.decode? header = none := by
    rw [Option.eq_none_iff_forall_ne_some]
    intro text decoded
    apply foreign (String.ofList text)
    unfold bytesOf
    rw [← Utf8.encode_toList, String.toList_ofList]
    exact Utf8.decode?_eq_some_iff.mp decoded
  simp [verifyHeader, isDisabled, undecodable]

theorem toList_divided (name digits : String) :
    (name ++ "=" ++ digits).toList = name.toList ++ '=' :: digits.toList := by
  simp

theorem name_whole (a : Algorithm) : '=' ∉ a.name.toList := by
  cases a <;> decide

variable {secret : String} {header : List UInt8}

theorem ofSecret_eq (given : secret ≠ "") : ofSecret secret = ⟨some (bytesOf secret)⟩ := by
  unfold ofSecret bytesOf
  rw [if_neg, Utf8.encode_toList]
  exact fun empty => given (String.toList_eq_nil_iff.mp empty)

/-! ## Each kind of header -/

theorem verifyHeader_of_signs (signs : Signs secret body header) :
    verifyHeader ⟨some (bytesOf secret)⟩ body (some header) = .ok () := by
  obtain ⟨a, digits, rfl, spelled⟩ := signs
  rw [verifyHeader_bytesOf, toList_divided, verify_divided (name_whole a),
    Hex.decode?_eq_some_iff.mpr spelled, algorithm?_name]
  simp

theorem verifyHeader_of_malformed (nonempty : header ≠ []) (malformed : Malformed header) :
    verifyHeader ⟨some key⟩ body (some header) = .error .malformed := by
  cases malformed with
  | encoding foreign => exact verifyHeader_foreign foreign
  | undivided same whole =>
    subst same
    rw [verifyHeader_bytesOf]
    apply verify_undivided _ whole
    intro empty
    apply nonempty
    rw [String.toList_eq_nil_iff.mp empty]
    rfl
  | digits same first odd =>
    subst same
    have unread : Hex.decode? _ = none :=
      Option.not_isSome_iff_eq_none.mp (odd ∘ Hex.isSome_decode?.mp)
    rw [verifyHeader_bytesOf, toList_divided, verify_divided first, unread]
  | algorithm same first unknown =>
    subst same
    rw [verifyHeader_bytesOf, toList_divided, verify_divided first, algorithm?_eq_none unknown]
    split
    case h_1 _ _ known => cases known
    case h_2 => rfl

theorem verifyHeader_of_wellFormed (wellFormed : ¬ Malformed header)
    (other : ¬ Signs secret body header) :
    verifyHeader ⟨some (bytesOf secret)⟩ body (some header) = .error .mismatch := by
  have text : ∃ text, header = bytesOf text := by
    by_contra foreign
    exact wellFormed (.encoding fun text same => foreign ⟨text, same⟩)
  obtain ⟨text, rfl⟩ := text
  have divided : '=' ∈ text.toList := by
    by_contra whole
    exact wellFormed (.undivided rfl whole)
  obtain ⟨name, digits, split, first⟩ := List.eq_append_cons_of_mem divided
  have same : text = String.ofList name ++ "=" ++ String.ofList digits := by
    rw [← String.toList_inj, toList_divided, String.toList_ofList, String.toList_ofList, split]
  have known : ∃ a : Algorithm, name = a.name.toList := by
    by_contra unknown
    refine wellFormed (.algorithm (by rw [← same]) (by rwa [String.toList_ofList]) ?_)
    intro a named
    exact unknown ⟨a, by rw [← named, String.toList_ofList]⟩
  have hex : Hex.IsHex digits := by
    by_contra odd
    exact wellFormed (.digits (by rw [← same]) (by rwa [String.toList_ofList])
      (by rwa [String.toList_ofList]))
  obtain ⟨a, rfl⟩ := known
  obtain ⟨expected, read⟩ := Option.isSome_iff_exists.mp (Hex.isSome_decode?.mpr hex)
  rw [verifyHeader_bytesOf, split, verify_divided first, read, algorithm?_name]
  simp only
  rw [if_neg]
  rintro rfl
  refine other ⟨a, String.ofList digits, ?_, ?_⟩
  · rw [same, String.ofList_toList]
  · rw [String.toList_ofList]
    exact Hex.decode?_eq_some_iff.mp read

theorem verifyHeader_of_absent {header : Option (List UInt8)}
    (absent : header = none ∨ header = some []) :
    verifyHeader ⟨some key⟩ body header = .error .missing := by
  rcases absent with rfl | rfl <;> rfl

/-! ## All headers -/

/-- What a header comes to if a secret is set, and why. -/
inductive Verdict (secret : String) (body : List UInt8) (header : Option (List UInt8)) :
    Except SignatureError Unit → Prop
  | missing (absent : header = none ∨ header = some []) :
      Verdict secret body header (.error .missing)
  | malformed {h : List UInt8} (given : h ∈ header) (nonempty : h ≠ []) (malformed : Malformed h) :
      Verdict secret body header (.error .malformed)
  | accepted {h : List UInt8} (given : h ∈ header) (signs : Signs secret body h) :
      Verdict secret body header (.ok ())
  | mismatch {h : List UInt8} (given : h ∈ header) (wellFormed : ¬ Malformed h)
      (other : ¬ Signs secret body h) : Verdict secret body header (.error .mismatch)

theorem verifyHeader_verdict (secret : String) (body : List UInt8) (header : Option (List UInt8)) :
    Verdict secret body header (verifyHeader ⟨some (bytesOf secret)⟩ body header) := by
  by_cases absent : header = none ∨ header = some []
  · rw [verifyHeader_of_absent absent]
    exact .missing absent
  obtain ⟨h, rfl⟩ := Option.ne_none_iff_exists'.mp (not_or.mp absent).1
  have nonempty : h ≠ [] := fun empty => absent (Or.inr (by rw [empty]))
  by_cases malformed : Malformed h
  · rw [verifyHeader_of_malformed nonempty malformed]
    exact .malformed rfl nonempty malformed
  by_cases signs : Signs secret body h
  · rw [verifyHeader_of_signs signs]
    exact .accepted rfl signs
  · rw [verifyHeader_of_wellFormed malformed signs]
    exact .mismatch rfl malformed signs

theorem verify_signSha1 (secret : String) (body : List UInt8) :
    (ofSecret secret).verify body (some (signSha1 (bytesOf secret) body).toList) = .ok () := by
  by_cases given : secret = ""
  · rw [given]
    rfl
  · rw [ofSecret_eq given, ← verifyHeader_bytesOf]
    refine verifyHeader_of_signs ⟨.sha1, _, rfl, ?_⟩
    rw [String.toList_ofList]
    exact Hex.map_toLower_encode _

theorem verifyHeader_map_bytesOf (v : Verifier) (text : Option String) :
    v.verifyHeader body (text.map bytesOf) = v.verify body (text.map (·.toList)) := by
  cases text with
  | none =>
    unfold verifyHeader
    split_ifs with disabled
    · unfold verify
      rw [Option.isNone_iff_eq_none.mp disabled]
    · rfl
  | some text => exact verifyHeader_bytesOf v text

/-- The verifier of a secret accepts exactly the headers that sign the body, or all if the secret is
empty, and each other header is refused for the one reason that applies. What is signed is accepted,
and a header that is text is checked as that text. -/
theorem verifyHeader_exact (secret : String) (body : List UInt8) (header : Option (List UInt8)) :
    ((ofSecret secret).verifyHeader body header = .ok () ↔
      secret = "" ∨ ∃ h ∈ header, Signs secret body h) ∧
    ((ofSecret secret).verifyHeader body header = .error .missing ↔
      secret ≠ "" ∧ (header = none ∨ header = some [])) ∧
    ((ofSecret secret).verifyHeader body header = .error .malformed ↔
      secret ≠ "" ∧ ∃ h ∈ header, h ≠ [] ∧ Malformed h) ∧
    ((ofSecret secret).verifyHeader body header = .error .mismatch ↔
      secret ≠ "" ∧ ∃ h ∈ header, ¬ Malformed h ∧ ¬ Signs secret body h) ∧
    (ofSecret secret).verify body (some (signSha1 (bytesOf secret) body).toList) = .ok () ∧
    (∀ text : Option String, (ofSecret secret).verifyHeader body (text.map bytesOf) =
      (ofSecret secret).verify body (text.map (·.toList))) ∧
    ∀ a, (Hmac.code a (bytesOf secret) body).length = a.size := by
  by_cases given : secret = ""
  · have accepted : (ofSecret secret).verifyHeader body header = .ok () := by
      rw [given]
      rfl
    refine ⟨iff_of_true accepted (Or.inl given), ?_, ?_, ?_, verify_signSha1 secret body,
      verifyHeader_map_bytesOf _, fun a => Hmac.length_code a _ body⟩
    · exact iff_of_false (by simp [accepted]) fun h => h.1 given
    · exact iff_of_false (by simp [accepted]) fun h => h.1 given
    · exact iff_of_false (by simp [accepted]) fun h => h.1 given
  · have verdict := verifyHeader_verdict secret body header
    rw [← ofSecret_eq given] at verdict
    refine ⟨⟨?_, ?_⟩, ⟨?_, ?_⟩, ⟨?_, ?_⟩, ⟨?_, ?_⟩, verify_signSha1 secret body,
      verifyHeader_map_bytesOf _, fun a => Hmac.length_code a _ body⟩
    · intro accepted
      rw [accepted] at verdict
      cases verdict with
      | accepted mem signs => exact Or.inr ⟨_, mem, signs⟩
    · rintro (empty | ⟨h, rfl, signs⟩)
      · exact absurd empty given
      · rw [ofSecret_eq given, verifyHeader_of_signs signs]
    · intro missing
      rw [missing] at verdict
      cases verdict with
      | missing absent => exact ⟨given, absent⟩
    · rintro ⟨-, absent⟩
      rw [ofSecret_eq given, verifyHeader_of_absent absent]
    · intro malformed
      rw [malformed] at verdict
      cases verdict with
      | malformed mem nonempty why => exact ⟨given, _, mem, nonempty, why⟩
    · rintro ⟨-, h, rfl, nonempty, why⟩
      rw [ofSecret_eq given, verifyHeader_of_malformed nonempty why]
    · intro mismatch
      rw [mismatch] at verdict
      cases verdict with
      | mismatch mem wellFormed other => exact ⟨given, _, mem, wellFormed, other⟩
    · rintro ⟨-, h, rfl, wellFormed, other⟩
      rw [ofSecret_eq given, verifyHeader_of_wellFormed wellFormed other]

end Verifier

end WebSub
