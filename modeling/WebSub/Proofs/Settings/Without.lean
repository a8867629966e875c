import WebSub.Proofs.Settings.Overlay

/-!
# Sources without one key

A source that sets one key of a section differently does the same to everything else.
-/

namespace WebSub.Settings

namespace Node

variable {s f : String} {z z' z'' : Node} {l l' es : List (String × Node)}

/-- The same but for one key of a section. -/
structure SameBut (s f : String) (z z' : Node) : Prop where
  sections : ∀ g, g ≠ s → z.entries.lookup g = z'.entries.lookup g
  keys : ∀ g, g ≠ f → z.get? [s, g] = z'.get? [s, g]

theorem SameBut.refl (s f : String) (z : Node) : SameBut s f z z := ⟨fun _ _ => rfl, fun _ _ => rfl⟩

theorem SameBut.symm (h : SameBut s f z z') : SameBut s f z' z :=
  ⟨fun g other => (h.sections g other).symm, fun g other => (h.keys g other).symm⟩

theorem SameBut.trans (h : SameBut s f z z') (h' : SameBut s f z' z'') : SameBut s f z z'' :=
  ⟨fun g other => (h.sections g other).trans (h'.sections g other),
    fun g other => (h.keys g other).trans (h'.keys g other)⟩

theorem child_congr {g : String} (same : l.lookup g = l'.lookup g) : child l g = child l' g := by
  rw [child, child, same]

/-! ## The same entry is set -/

theorem lookup_overlayEntries_filter (same : ∀ g, g ≠ f → l.lookup g = l'.lookup g) :
    ∀ g, g ≠ f → (overlayEntries l es).lookup g =
      (overlayEntries l' (es.filter (·.1 ≠ f))).lookup g := by
  induction es generalizing l l' with
  | nil => exact same
  | cons e es ih =>
    obtain ⟨name, n⟩ := e
    rw [overlayEntries]
    by_cases its : name = f
    · subst its
      rw [List.filter_cons_of_neg (by simp)]
      refine ih fun g other => ?_
      rw [lookup_put, if_neg other]
      exact same g other
    · rw [List.filter_cons_of_pos (by simpa using its), overlayEntries]
      refine ih fun g other => ?_
      rw [lookup_put, lookup_put, child_congr (same name its)]
      split
      case isTrue => rfl
      case isFalse => exact same g other

theorem SameBut.set_apart (h : SameBut s f z z') {s' : String} (apart : s ≠ s') (rest : Path)
    (n : Node) : SameBut s f (z.set (.name s' :: rest) n) (z'.set (.name s' :: rest) n) where
  sections g other := by
    show (put _ _ _).lookup g = (put _ _ _).lookup g
    rw [lookup_put, lookup_put, child_congr (h.sections s' apart.symm)]
    split
    case isTrue => rfl
    case isFalse => exact h.sections g other
  keys g other := by
    rw [get?_set, get?_set, if_neg apart, if_neg apart]
    exact h.keys g other

theorem SameBut.set_own (h : SameBut s f z z') {rest rest' : Path} {n n' : Node}
    (keys : ∀ x x' : Node, (∀ g, g ≠ f → x.entries.lookup g = x'.entries.lookup g) → ∀ g, g ≠ f →
      (changeAt (·.overlay n) rest x).entries.lookup g =
        (changeAt (·.overlay n') rest' x').entries.lookup g) :
    SameBut s f (z.set (.name s :: rest) n) (z'.set (.name s :: rest') n') where
  sections g other := by
    show (put _ _ _).lookup g = (put _ _ _).lookup g
    rw [lookup_put, lookup_put, if_neg other, if_neg other]
    exact h.sections g other
  keys g other := by
    rw [get?_set, get?_set, if_pos rfl, if_pos rfl]
    refine keys _ _ (fun g other => ?_) g other
    have same := h.keys g other
    rwa [get?_pair, get?_pair] at same

theorem SameBut.set_table (h : SameBut s f z z') (origin : Option String)
    (es : List (String × Node)) :
    SameBut s f (z.set [.name s] (.table origin es))
      (z'.set [.name s] (.table origin (es.filter (·.1 ≠ f)))) :=
  h.set_own fun _ _ same => lookup_overlayEntries_filter same

theorem SameBut.set (h : SameBut s f z z') (s' : String) (rest : Path) (n : Node) :
    SameBut s f (z.set (.name s' :: rest) n) (z'.set (.name s' :: rest) n) := by
  by_cases its : s = s'
  case neg => exact h.set_apart its rest n
  subst its
  match rest with
  | [] =>
    cases n with
    | scalar origin v => exact h.set_own fun _ _ _ _ _ => rfl
    | array origin items => exact h.set_own fun _ _ _ _ _ => rfl
    | table origin es =>
      -- With the key left out, the same table is set in both trees.
      exact (h.set_table origin es).trans ((SameBut.refl s f z').set_table origin es).symm
  | .index i :: rest => exact h.set_own fun _ _ _ _ _ => rfl
  | .name name :: rest =>
    refine h.set_own fun x x' same g other => ?_
    rw [entries_changeAt, entries_changeAt, lookup_put, lookup_put]
    split
    case isFalse => exact same g other
    case isTrue this =>
      subst this
      rw [child_congr (same g other)]

/-! ## The key is set -/

theorem sameBut_set (s f : String) (z : Node) (rest : Path) (n : Node) :
    SameBut s f z (z.set (.name s :: .name f :: rest) n) where
  sections g other := by
    show _ = (put _ _ _).lookup g
    rw [lookup_put, if_neg other]
  keys g other := by
    rw [get?_set, if_pos rfl, entries_changeAt, lookup_put, if_neg other, get?_pair]

theorem sameBut_set_nothing (s f : String) (z : Node) (origin : Option String) :
    SameBut s f z (z.set [.name s] (.table origin [])) where
  sections g other := by
    show _ = (put _ _ _).lookup g
    rw [lookup_put, if_neg other]
  keys g other := by
    rw [get?_set, if_pos rfl, get?_pair]
    rfl

end Node

/-! ## Sources -/

namespace Source

variable {s f : String} {root root' : Node}

/-- An entry without one key of a section, if anything is left. -/
def entryWithout (s f : String) : Path → Node → Option Node
  | [.name s'], .table origin es =>
    if s' = s then
      match es.filter (·.1 ≠ f) with
      | [] => none
      | rest => some (.table origin rest)
    else some (.table origin es)
  | .name s' :: .name f' :: _, n => if s' = s ∧ f' = f then none else some n
  | _, n => some n

/-- The source without one key of a section. -/
def without (s f : String) (src : Source) : Source :=
  src.filterMap fun e => (entryWithout s f (Path.ofKey e.1) e.2).map (e.1, ·)

theorem without_cons {key : String} {n : Node} {src : Source} : without s f ((key, n) :: src) =
    match entryWithout s f (Path.ofKey key) n with
    | some n' => (key, n') :: src.without s f
    | none => src.without s f := by
  rw [without, List.filterMap_cons]
  cases entryWithout s f (Path.ofKey key) n <;> rfl

theorem sameBut_entry (h : Node.SameBut s f root root') (s' : String) (rest : Path) (n : Node) :
    Node.SameBut s f (root.set (.name s' :: rest) n)
      (match entryWithout s f (.name s' :: rest) n with
        | some n' => root'.set (.name s' :: rest) n'
        | none => root') := by
  match rest, n with
  | [], .scalar origin v => exact h.set ..
  | [], .array origin items => exact h.set ..
  | [], .table origin es =>
    by_cases its : s' = s
    case neg =>
      rw [entryWithout, if_neg its]
      exact h.set ..
    subst its
    rw [entryWithout, if_pos rfl]
    have same := h.set_table origin es
    cases left : es.filter (·.1 ≠ f) with
    | nil =>
      rw [left] at same
      exact same.trans (Node.sameBut_set_nothing s' f root' origin).symm
    | cons e rest =>
      rw [left] at same
      exact same
  | .index i :: rest, n => exact h.set ..
  | .name f' :: rest, n =>
    rw [entryWithout]
    by_cases its : s' = s ∧ f' = f
    · obtain ⟨rfl, rfl⟩ := its
      rw [if_pos ⟨rfl, rfl⟩]
      exact (Node.sameBut_set s' f' root rest n).symm.trans h
    · rw [if_neg its]
      exact h.set ..

theorem sameBut_without (src : Source) (h : Node.SameBut s f root root') :
    Node.SameBut s f (applyTo root src) (applyTo root' (src.without s f)) := by
  induction src generalizing root root' with
  | nil => exact h
  | cons e src ih =>
    obtain ⟨key, n⟩ := e
    obtain ⟨s', rest, path⟩ := Path.ofKey_shape key
    have same := sameBut_entry h s' rest n
    rw [← path] at same
    rw [applyTo_cons, without_cons]
    cases left : entryWithout s f (Path.ofKey key) n with
    | none =>
      rw [left] at same
      exact ih same
    | some n' =>
      rw [left] at same
      exact ih same

theorem sameBut_applyTo {src src' : Source} (h : Node.SameBut s f root root')
    (same : src'.without s f = src.without s f) :
    Node.SameBut s f (applyTo root src) (applyTo root' src') := by
  -- Both do what is left without the key.
  have reduced := sameBut_without src h
  rw [← same] at reduced
  exact reduced.trans (sameBut_without src' (.refl s f root')).symm

theorem sameBut_foldl {sources sources' : List Source}
    (same : sources'.map (without s f) = sources.map (without s f))
    (h : Node.SameBut s f root root') :
    Node.SameBut s f (sources.foldl applyTo root) (sources'.foldl applyTo root') := by
  induction sources generalizing sources' root root' with
  | nil =>
    cases List.map_eq_nil_iff.mp same
    exact h
  | cons t sources ih =>
    cases sources' with
    | nil => cases same
    | cons t' sources' =>
      rw [List.map_cons, List.map_cons] at same
      obtain ⟨head, tail⟩ := List.cons.inj same
      rw [List.foldl_cons, List.foldl_cons]
      exact ih tail (sameBut_applyTo h head)

end Source

end WebSub.Settings
