import WebSub.Markup.Attribute
import WebSub.Proofs.Markup.Document

/-!
# Written tags

A start tag is read as the name and the attributes that it was written from.
-/

namespace WebSub.Markup

/-! ## Attributes -/

theorem attributesFrom_of_quoted {seen : List (List Char × Nat)}
    {text more value inside rest : List Char} {c q : Char}
    (atKey : text.dropWhile isBlank = c :: more)
    (atEquals : (more.dropWhile fun d => d != '=' && !isBlank d).dropWhile isBlank = '=' :: value)
    (new : seen.find? (·.1 == c :: more.takeWhile fun d => d != '=' && !isBlank d) = none)
    (atQuote : value.dropWhile isBlank = '"' :: inside)
    (atEnd : inside.dropWhile (· != '"') = q :: rest) (position : Nat) :
    ∃ keyAt next, attributesFrom seen position text =
      let key := c :: more.takeWhile fun d => d != '=' && !isBlank d
      let others := attributesFrom ((key, keyAt) :: seen) next rest
      ⟨⟨key, inside.takeWhile (· != '"')⟩ :: others.read, others.failure⟩ := by
  rw [attributesFrom]
  split
  case h_1 h => simp [h] at atKey
  case h_2 c' more' h =>
    obtain ⟨rfl, rfl⟩ : c' = c ∧ more' = more := by simpa [h] using atKey
    simp only [new]
    split
    case h_2 other => exact absurd atEquals (other _)
    case h_1 value' h =>
      obtain rfl : value' = value := by simpa [h] using atEquals
      split
      case h_1 h => simp [h] at atQuote
      case h_2 quote inside' h =>
        obtain ⟨rfl, rfl⟩ : quote = '"' ∧ inside' = inside := by simpa [h] using atQuote
        rw [if_pos (Or.inl rfl)]
        split
        case h_1 h => simp [h] at atEnd
        case h_2 q' rest' h =>
          obtain ⟨rfl, rfl⟩ : q' = q ∧ rest' = rest := by simpa [h] using atEnd
          exact ⟨_, _, rfl⟩

theorem attributesFrom_cons {seen : List (List Char × Nat)} {name : Name}
    (new : ∀ s ∈ seen, s.1 ≠ name.write) (position : Nat) (value rest : List Char) :
    ∃ keyAt next, attributesFrom seen position
        (' ' :: (name.write ++ '=' :: '"' :: (escape value ++ '"' :: rest))) =
      ⟨⟨name.write, escape value⟩ :: (attributesFrom ((name.write, keyAt) :: seen) next rest).read,
        (attributesFrom ((name.write, keyAt) :: seen) next rest).failure⟩ := by
  have chars := name.isNameChar_write
  obtain ⟨c, more, cut⟩ := List.exists_cons_of_ne_nil name.write_ne_nil
  rw [cut] at chars new ⊢
  have inName : ∀ d ∈ more, (d != '=' && !isBlank d) = true := by
    intro d hd
    have h := isNameChar_spec (chars d (List.mem_cons_of_mem _ hd))
    simp [h]
  have inValue : ∀ d ∈ escape value, (d != '"') = true := by
    intro d hd
    have h := isMarkup_escape d hd
    simp only [isMarkup, Bool.or_eq_false_iff] at h
    simp [bne, h]
  have key := takeWhile_upto inName (c := '=') (by decide) ('"' :: (escape value ++ '"' :: rest))
  have left := dropWhile_upto inName (c := '=') (by decide) ('"' :: (escape value ++ '"' :: rest))
  have raw := takeWhile_upto inValue (c := '"') (by decide) rest
  have atKey : (' ' :: (c :: more ++ '=' :: '"' :: (escape value ++ '"' :: rest))).dropWhile isBlank
      = c :: (more ++ '=' :: '"' :: (escape value ++ '"' :: rest)) := by
    have unblank := (isNameChar_spec (chars c List.mem_cons_self)).1
    rw [List.dropWhile_cons_of_pos (by decide), List.cons_append,
      List.dropWhile_cons_of_neg (by simp [unblank])]
  obtain ⟨keyAt, next, step⟩ := attributesFrom_of_quoted atKey (by rw [left]; rfl)
    (by rw [key]; simpa using new) rfl (dropWhile_upto inValue (by decide) rest) position
  exact ⟨keyAt, next, by simpa only [key, raw] using step⟩

theorem attributesFrom_write (attributes : List (Name × List Char)) :
    ∀ seen position, (attributes.map (·.1.write)).Nodup →
      (∀ a ∈ attributes, ∀ s ∈ seen, s.1 ≠ a.1.write) →
      attributesFrom seen position (Head.writeAttributes attributes) =
        ⟨attributes.map fun a => ⟨a.1.write, escape a.2⟩, none⟩ := by
  induction attributes with
  | nil =>
    intro seen position _ _
    rw [Head.writeAttributes, attributesFrom]
    rfl
  | cons a rest ih =>
    obtain ⟨name, value⟩ := a
    intro seen position distinct new
    rw [List.map_cons, List.nodup_cons] at distinct
    obtain ⟨keyAt, next, step⟩ := attributesFrom_cons (new (name, value) List.mem_cons_self)
      position value (Head.writeAttributes rest)
    have others := ih ((name.write, keyAt) :: seen) next distinct.2 (by
      intro a ha s hs
      rcases List.mem_cons.mp hs with rfl | hs
      · intro same
        exact distinct.1 (List.mem_map.mpr ⟨a, ha, same.symm⟩)
      · exact new a (List.mem_cons_of_mem _ ha) s hs)
    rw [Head.writeAttributes, step, others]
    rfl

theorem values_write (attributes : List (Name × List Char)) :
    values (attributes.map fun a => ⟨a.1.write, escape a.2⟩) =
      .ok (attributes.map fun a => (a.1.base.text, a.2)) := by
  induction attributes with
  | nil => rfl
  | cons a rest ih =>
    simp only [List.map_cons, values, unescape_escape, ih, Name.localPart_write]

/-! ## Tags -/

namespace Head

/-- The tag that a written start tag is read as. -/
def tag (h : Head) : Tag := ⟨h.content⟩

@[simp] theorem tag_name (h : Head) : h.tag.name = h.name.write := by
  have unblank : ∀ c ∈ h.name.write, (!isBlank c) = true := by
    intro c hc
    simp [isNameChar_spec (h.name.isNameChar_write c hc)]
  show (h.name.write ++ writeAttributes h.attributes).takeWhile (!isBlank ·) = h.name.write
  cases h.attributes with
  | nil =>
    rw [writeAttributes, List.append_nil]
    exact List.takeWhile_eq_self_iff.mpr unblank
  | cons a rest => exact takeWhile_upto unblank (by decide) _

@[simp] theorem tag_localName (h : Head) : h.tag.localName = h.name.base.text := by
  rw [Tag.localName, tag_name, Name.localPart_write]

theorem tag_attributes (h : Head) :
    h.tag.attributes = ⟨h.attributes.map fun a => ⟨a.1.write, escape a.2⟩, none⟩ := by
  have after : h.tag.content.drop h.tag.name.length = writeAttributes h.attributes := by
    rw [tag_name]
    exact List.drop_left
  rw [Tag.attributes, after]
  exact attributesFrom_write h.attributes [] _ h.distinct (by simp)

theorem tag_values (h : Head) :
    h.tag.values = .ok (h.attributes.map fun a => (a.1.base.text, a.2)) := by
  rw [Tag.values, tag_attributes, values_write]

theorem lastValue?_attributes (h : Head) (name : String) :
    lastValue? name (h.attributes.map fun a => (a.1.base.text, a.2)) = h.last? name := by
  unfold lastValue? last?
  rw [← List.map_reverse, List.find?_map, Option.map_map]
  rfl

end Head

end WebSub.Markup
