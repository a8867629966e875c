import WebSub.Settings.Source

/-!
# What a source makes of a tree

What a source comes to by itself is found again in what it makes of any other tree. Where it says
nothing, it leaves the tree as it was.
-/

namespace WebSub.Settings

namespace Node

/-! ## One tree under another -/

/-- The same value, or both arrays, or both tables. -/
def Alike : Node → Node → Prop
  | scalar origin v, n => n = scalar origin v
  | array .., n => ∃ origin items, n = array origin items
  | table .., n => ∃ origin es, n = table origin es

/-- Wherever the first tree has something, the second one has something like it. -/
def Under (n n' : Node) : Prop :=
  ∀ path m, n.get? path = some m → ∃ m', n'.get? path = some m' ∧ Alike m m'

def EntriesUnder (es es' : List (String × Node)) : Prop :=
  ∀ name c, es.lookup name = some c → ∃ c', es'.lookup name = some c' ∧ c.Under c'

variable {n n' : Node} {es es' : List (String × Node)}

theorem under_table {origin origin' : Option String} (h : EntriesUnder es es') :
    (table origin es).Under (table origin' es') := by
  intro path m found
  cases path with
  | nil =>
    cases found
    exact ⟨_, rfl, _, _, rfl⟩
  | cons name path =>
    obtain ⟨c, entry, below⟩ := Option.bind_eq_some_iff.mp found
    obtain ⟨c', entry', under⟩ := h name c entry
    obtain ⟨m', below', alike⟩ := under path m below
    exact ⟨m', Option.bind_eq_some_iff.mpr ⟨c', entry', below'⟩, alike⟩

theorem under_of_alike (none : n.entries = []) (alike : Alike n n') : n.Under n' := by
  intro path m found
  cases path with
  | nil =>
    cases found
    exact ⟨n', rfl, alike⟩
  | cons name path =>
    rw [get?, none] at found
    cases found

theorem Under.alike (h : n.Under n') : Alike n n' := by
  obtain ⟨m, found, alike⟩ := h [] n rfl
  cases found
  exact alike

theorem get?_single (n : Node) (name : String) : n.get? [name] = n.entries.lookup name :=
  Option.bind_fun_some _

theorem Under.entries (h : n.Under n') : EntriesUnder n.entries n'.entries := by
  intro name c entry
  obtain ⟨c', entry', -⟩ := h [name] c ((get?_single n name).trans entry)
  rw [get?_single] at entry'
  refine ⟨c', entry', fun path m found => ?_⟩
  obtain ⟨m', found', alike⟩ := h (name :: path) m (by rw [get?, entry]; exact found)
  rw [get?, entry'] at found'
  exact ⟨m', found', alike⟩

theorem entriesUnder_nil : EntriesUnder [] es' := fun _ _ found => nomatch found

theorem EntriesUnder.child (h : EntriesUnder es es') (name : String) :
    EntriesUnder (child es name).entries (child es' name).entries := by
  unfold Node.child
  cases found : es.lookup name with
  | none => exact entriesUnder_nil
  | some c =>
    obtain ⟨c', found', under⟩ := h name c found
    rw [found']
    exact under.entries

theorem EntriesUnder.put (h : EntriesUnder es es') (name : String) (under : n.Under n') :
    EntriesUnder (put es name n) (put es' name n') := by
  intro other c found
  rw [lookup_put] at found ⊢
  split at found
  case isTrue this =>
    cases found
    rw [if_pos this]
    exact ⟨n', rfl, under⟩
  case isFalse apart =>
    rw [if_neg apart]
    exact h other c found

/-! ## A tree is laid over both -/

mutual

theorem overlay_under {b b' : Node} (h : EntriesUnder b.entries b'.entries) :
    (n : Node) → (b.overlay n).Under (b'.overlay n)
  | .scalar _ _ => under_of_alike rfl rfl
  | .array _ _ => under_of_alike rfl ⟨_, _, rfl⟩
  | .table _ es => under_table (overlayEntries_under h es)

theorem overlayEntries_under {b b' : List (String × Node)} (h : EntriesUnder b b') :
    (es : List (String × Node)) → EntriesUnder (overlayEntries b es) (overlayEntries b' es)
  | [] => h
  | (name, n) :: rest =>
    overlayEntries_under (h.put name (overlay_under (h.child name) n)) rest

end

theorem changeAt_under {f : Node → Node}
    (keeps : ∀ b b', EntriesUnder b.entries b'.entries → (f b).Under (f b')) (path : Path) :
    ∀ {b b' : Node}, EntriesUnder b.entries b'.entries →
      (changeAt f path b).Under (changeAt f path b') := by
  induction path with
  | nil => exact fun h => keeps _ _ h
  | cons step path ih =>
    intro b b' h
    cases step with
    | name s => exact under_table (h.put s (ih (h.child s)))
    | index i => exact under_of_alike rfl ⟨_, _, rfl⟩

/-! ## What one entry says -/

/-- A table that holds nothing, which adds nothing to what it is laid over. -/
def IsHollow (n : Node) : Prop := ∃ origin, n = .table origin []

/-- The entry gives the key of a section a value. -/
inductive Says (s f : String) : Path → Node → Prop
  | among {origin : Option String} {es : List (String × Node)} {c : Node} (entry : (f, c) ∈ es)
      (full : ¬ c.IsHollow) : Says s f [.name s] (.table origin es)
  | itself {n : Node} (full : ¬ n.IsHollow) : Says s f [.name s, .name f] n
  | within {step : Step} {rest : Path} {n : Node} : Says s f (.name s :: .name f :: step :: rest) n

/-- The entry puts something else in the place of the section's table. -/
inductive Replaces (s : String) : Path → Node → Prop
  | value {n : Node} (other : ∀ origin es, n ≠ .table origin es) : Replaces s [.name s] n
  | place {i : Int} {rest : Path} {n : Node} : Replaces s (.name s :: .index i :: rest) n

/-- What there was is still there; at most it has become a table, with its own entries. -/
def Kept (before after : Option Node) : Prop :=
  after = before ∨ ∃ origin, after = some (.table origin (before.getD nil).entries)

theorem Kept.trans {a b c : Option Node} (first : Kept a b) (second : Kept b c) : Kept a c := by
  rcases first with rfl | ⟨o, rfl⟩
  · exact second
  · rcases second with rfl | ⟨o', rfl⟩
    · exact Or.inr ⟨o, rfl⟩
    · exact Or.inr ⟨o', rfl⟩

/-- Both have something; if the first one has no entries, then neither has the second. -/
def Settled (x y : Option Node) : Prop :=
  ∃ c c', x = some c ∧ y = some c' ∧ (c.entries = [] → c'.entries = [])

theorem Kept.exists_some {c : Node} {b : Option Node} (h : Kept (some c) b) :
    ∃ c', b = some c' ∧ c'.entries = c.entries := by
  rcases h with rfl | ⟨o, rfl⟩
  · exact ⟨c, rfl, rfl⟩
  · exact ⟨_, rfl, rfl⟩

theorem Settled.kept {a a' b b' : Option Node} (h : Settled a b) (first : Kept a a')
    (second : Kept b b') : Settled a' b' := by
  obtain ⟨c, c', rfl, rfl, bare⟩ := h
  obtain ⟨d, rfl, same⟩ := first.exists_some
  obtain ⟨d', rfl, same'⟩ := second.exists_some
  exact ⟨d, d', rfl, rfl, by rwa [same, same']⟩

theorem IsHollow.kept {m final : Node} (hollow : n.IsHollow) (under : n.Under m)
    (bare : m.entries = []) (kept : Kept (some m) (some final)) : final.IsHollow := by
  obtain ⟨origin, rfl⟩ := hollow
  obtain ⟨origin', es, rfl⟩ := under.alike
  cases bare
  rcases kept with same | ⟨origin'', table⟩
  · cases same
    exact ⟨origin', rfl⟩
  · cases table
    exact ⟨origin'', rfl⟩

theorem kept_hollow {b : Node} (hollow : n.IsHollow) (a : Option Node) (same : a.getD nil = b) :
    Kept a (some (b.overlay n)) := by
  obtain ⟨origin, rfl⟩ := hollow
  rw [← same]
  exact Or.inr ⟨_, rfl⟩

theorem put_ne_nil {name : String} : put es name n ≠ [] := by
  cases es with
  | nil => exact List.cons_ne_nil _ _
  | cons e rest =>
    rw [put]
    split <;> exact List.cons_ne_nil _ _

theorem overlayEntries_ne_nil (b : List (String × Node)) (h : es ≠ []) :
    overlayEntries b es ≠ [] := by
  induction es generalizing b with
  | nil => exact absurd rfl h
  | cons e rest ih =>
    obtain ⟨name, n⟩ := e
    rw [overlayEntries]
    cases rest with
    | nil => exact put_ne_nil
    | cons e rest => exact ih _ (List.cons_ne_nil _ _)

theorem settled_overlay (full : ¬ n.IsHollow) (b b' : Node) :
    Settled (some (b.overlay n)) (some (b'.overlay n)) := by
  refine ⟨_, _, rfl, rfl, fun bare => ?_⟩
  cases n with
  | scalar origin v => rfl
  | array origin items => rfl
  | table origin es =>
    refine absurd bare (overlayEntries_ne_nil b.entries ?_)
    rintro rfl
    exact full ⟨origin, rfl⟩

section

variable {f : String}

theorem settled_overlayEntries {l l' : List (String × Node)}
    (entry : (∃ c, (f, c) ∈ es ∧ ¬ c.IsHollow) ∨ Settled (l.lookup f) (l'.lookup f)) :
    Settled ((overlayEntries l es).lookup f) ((overlayEntries l' es).lookup f) := by
  -- The same name may come again: then the later entry is laid over what the earlier one settled.
  induction es generalizing l l' with
  | nil =>
    rcases entry with ⟨c, impossible, -⟩ | settled
    · cases impossible
    · exact settled
  | cons e rest ih =>
    obtain ⟨name, n⟩ := e
    rw [overlayEntries, overlayEntries]
    refine ih ?_
    rw [lookup_put, lookup_put]
    rcases entry with ⟨c, mem, full⟩ | settled
    · rcases List.mem_cons.mp mem with same | mem
      · cases same
        rw [if_pos rfl, if_pos rfl]
        exact Or.inr (settled_overlay full _ _)
      · exact Or.inl ⟨c, mem, full⟩
    · right
      split
      case isFalse => exact settled
      case isTrue same =>
        subst same
        by_cases hollow : n.IsHollow
        · exact settled.kept (kept_hollow hollow _ rfl) (kept_hollow hollow _ rfl)
        · exact settled_overlay hollow _ _

theorem kept_overlayEntries (hollow : ∀ c, (f, c) ∈ es → c.IsHollow) :
    Kept (es'.lookup f) ((overlayEntries es' es).lookup f) := by
  induction es generalizing es' with
  | nil => exact Or.inl rfl
  | cons e rest ih =>
    obtain ⟨name, n⟩ := e
    rw [overlayEntries]
    refine Kept.trans ?_ (ih fun c mem => hollow c (List.mem_cons_of_mem _ mem))
    rw [lookup_put]
    split
    case isTrue same =>
      subst same
      exact kept_hollow (hollow n List.mem_cons_self) _ rfl
    case isFalse => exact Or.inl rfl

end

/-! ## What one entry does -/

section

variable {s f : String} {z : Node} {path : Path}

theorem get?_pair (z : Node) (s f : String) :
    z.get? [s, f] = (child z.entries s).entries.lookup f := by
  rw [get?, child]
  cases z.entries.lookup s with
  | none => rfl
  | some c => exact get?_single c f

theorem entries_changeAt {g : String} {rest : Path} {change : Node → Node} :
    (changeAt change (.name g :: rest) z).entries =
      put z.entries g (changeAt change rest (child z.entries g)) :=
  rfl

theorem get?_set {s' : String} {rest : Path} : (z.set (.name s' :: rest) n).get? [s, f] =
    if s = s' then (changeAt (·.overlay n) rest (child z.entries s)).entries.lookup f
    else z.get? [s, f] := by
  rw [get?_pair, get?_pair]
  show (child (put z.entries s' _) s).entries.lookup f = _
  rw [child, lookup_put]
  split
  case isTrue same =>
    subst same
    rfl
  case isFalse => rfl

theorem kept_set {s' : String} {rest : Path} (stays : ¬ Replaces s (.name s' :: rest) n)
    (silent : ¬ Says s f (.name s' :: rest) n) (z : Node) :
    Kept (z.get? [s, f]) ((z.set (.name s' :: rest) n).get? [s, f]) := by
  rw [get?_set]
  split
  case isFalse => exact Or.inl rfl
  case isTrue same =>
    subst same
    rw [get?_pair]
    match rest with
    | [] =>
      cases n with
      | scalar origin v => exact absurd (.value fun _ _ => nofun) stays
      | array origin items => exact absurd (.value fun _ _ => nofun) stays
      | table origin es =>
        refine kept_overlayEntries fun c entry => ?_
        exact Classical.byContradiction fun full => silent (.among entry full)
    | .index i :: rest => exact absurd .place stays
    | .name g :: rest =>
      rw [entries_changeAt, lookup_put]
      split
      case isFalse => exact Or.inl rfl
      case isTrue its =>
        subst its
        cases rest with
        | nil =>
          have hollow := Classical.byContradiction fun full => silent (.itself full)
          exact kept_hollow hollow _ rfl
        | cons step rest => exact absurd .within silent

theorem settled_set (speaks : Says s f path n) (z z' : Node) :
    Settled ((z.set path n).get? [s, f]) ((z'.set path n).get? [s, f]) := by
  have itself (m : Node) (rest : Path) : (m.set (.name s :: .name f :: rest) n).get? [s, f] =
      some (changeAt (·.overlay n) rest (child (child m.entries s).entries f)) := by
    rw [get?_set, if_pos rfl, entries_changeAt, lookup_put, if_pos rfl]
  cases speaks with
  | among entry full =>
    rw [get?_set, get?_set, if_pos rfl, if_pos rfl]
    exact settled_overlayEntries (.inl ⟨_, entry, full⟩)
  | itself full =>
    rw [itself, itself]
    exact settled_overlay full _ _
  | @within step rest =>
    -- Below the key there is now a name, or the key is an array.
    rw [itself, itself]
    refine ⟨_, _, rfl, rfl, fun bare => ?_⟩
    cases step with
    | name g => exact absurd bare put_ne_nil
    | index i => rfl

end

end Node

/-! ## Sources -/

theorem Path.ofKey_shape (key : String) : ∃ s rest, ofKey key = .name s :: rest := by
  unfold ofKey
  cases path : ofText? key.toList with
  | none => exact ⟨key, [], rfl⟩
  | some p =>
    obtain ⟨⟨s, text⟩, -, steps⟩ := Option.bind_eq_some_iff.mp path
    obtain ⟨rest, -, rfl⟩ := Option.map_eq_some_iff.mp steps
    exact ⟨s, rest, rfl⟩

namespace Source

variable {src : Source} {s f : String} {root : Node}

/-- What the source sets a key of a section to, by itself. -/
def value? (src : Source) (s f : String) : Option Node := (src.applyTo .empty).get? [s, f]

/-- Some entry gives the key a value. -/
def Says (src : Source) (s f : String) : Prop := ∃ e ∈ src, Node.Says s f (Path.ofKey e.1) e.2

/-- Some entry puts something else in the place of the section's table. -/
def Replaces (src : Source) (s : String) : Prop :=
  ∃ e ∈ src, Node.Replaces s (Path.ofKey e.1) e.2

/-- The source leaves the key of the section to the sources below it. -/
def Silent (src : Source) (s f : String) : Prop := ¬ src.Says s f ∧ ¬ src.Replaces s

variable {e : String × Node}

theorem says_cons :
    Says (e :: src) s f ↔ Node.Says s f (Path.ofKey e.1) e.2 ∨ src.Says s f := by
  simp [Says]

theorem replaces_cons :
    Replaces (e :: src) s ↔ Node.Replaces s (Path.ofKey e.1) e.2 ∨ src.Replaces s := by
  simp [Replaces]

theorem applyTo_cons : applyTo root (e :: src) = applyTo (root.set (Path.ofKey e.1) e.2) src := rfl

theorem applyTo_under {root' : Node} (h : Node.EntriesUnder root.entries root'.entries) :
    Node.EntriesUnder (applyTo root src).entries (applyTo root' src).entries := by
  induction src generalizing root root' with
  | nil => exact h
  | cons e src ih =>
    refine ih (Node.changeAt_under (fun b b' under => ?_) _ h).entries
    exact Node.overlay_under under e.2

theorem value?_under {n : Node} (root : Node) (value : src.value? s f = some n) :
    ∃ m, (applyTo root src).get? [s, f] = some m ∧ n.Under m := by
  have whole : Node.EntriesUnder (applyTo .empty src).entries (applyTo root src).entries :=
    applyTo_under Node.entriesUnder_nil
  rw [value?, Node.get?_pair] at value
  rw [Node.get?_pair]
  exact whole.child s f n value

theorem kept_applyTo (silent : src.Silent s f) (root : Node) :
    Node.Kept (root.get? [s, f]) ((applyTo root src).get? [s, f]) := by
  induction src generalizing root with
  | nil => exact Or.inl rfl
  | cons e src ih =>
    obtain ⟨speaks, replaces⟩ := silent
    rw [says_cons, not_or] at speaks
    rw [replaces_cons, not_or] at replaces
    obtain ⟨s', rest, shape⟩ := Path.ofKey_shape e.1
    rw [shape] at speaks replaces
    rw [applyTo_cons, shape]
    exact (Node.kept_set replaces.1 speaks.1 root).trans (ih ⟨speaks.2, replaces.2⟩ _)

theorem settled_applyTo {root' : Node} (stays : ¬ src.Replaces s)
    (said : src.Says s f ∨ Node.Settled (root.get? [s, f]) (root'.get? [s, f])) :
    Node.Settled ((applyTo root src).get? [s, f]) ((applyTo root' src).get? [s, f]) := by
  induction src generalizing root root' with
  | nil =>
    rcases said with ⟨e, mem, -⟩ | settled
    · cases mem
    · exact settled
  | cons e src ih =>
    rw [replaces_cons, not_or] at stays
    rw [says_cons] at said
    rw [applyTo_cons, applyTo_cons]
    refine ih stays.2 ?_
    by_cases speaks : Node.Says s f (Path.ofKey e.1) e.2
    · exact Or.inr (Node.settled_set speaks _ _)
    · rcases said with (this | later) | settled
      · exact absurd this speaks
      · exact Or.inl later
      · obtain ⟨s', rest, shape⟩ := Path.ofKey_shape e.1
        rw [shape] at speaks stays ⊢
        have keeps := Node.kept_set stays.1 speaks
        exact Or.inr (settled.kept (keeps root) (keeps root'))

end Source

end WebSub.Settings
