import WebSub.Proofs.Settings.Reading
import WebSub.Proofs.Settings.Without

/-!
# Which layer decides

A setting is what the highest layer says that says anything about its key, unless a layer above
that one puts something else in the place of the whole section.
-/

namespace WebSub.Settings

open Source (Silent)

/-- The layer that decides a setting, and what it says: those above are silent about the key. -/
def Decides (layers : List Source) (k : Setting) (n : Node) : Prop :=
  ∃ below src above, layers = below ++ src :: above ∧ src.value? k.group k.field = some n ∧
    ¬ n.IsHollow ∧ ∀ t ∈ above, Silent t k.group k.field

/-- How settings come from their layers. -/
structure Layered (layers : List Source) (a : Settings) : Prop where
  /-- Each setting is what the deciding layer says. -/
  value : ∀ k ∈ Setting.all, ∀ n, Decides layers k n → k.Reads a (some n)
  /-- There is such a layer, unless one replaces the section. -/
  decided : ∀ k ∈ Setting.all, (∃ n, Decides layers k n) ∨ ∃ t ∈ layers, t.Replaces k.group
  /-- What the layers below a decision say about its key does not matter. -/
  lower : ∀ (k : Setting) below below' above b, layers = below ++ above →
    (∃ n, Decides above k n) →
    below'.map (·.without k.group k.field) = below.map (·.without k.group k.field) →
    ofNode (Source.combined (below' ++ above)) = .ok b → b = a
  /-- Nothing is signed just if the deciding layer gives the empty text for the secret. -/
  secret : ∀ n, Decides layers Setting.secret n →
    (a.signatureDisabled = true ↔ n.toText = .ok "") ∧
    (a.hub.secret? = none ↔ n.toText = .ok "") ∧
    (a.hub.defaults.secret = none ↔ n.toText = .ok "")

variable {layers below above : List Source} {src : Source} {k : Setting} {n : Node}
  {a b : Settings}

/-! ## The deciding layer -/

theorem kept_foldl (silent : ∀ t ∈ above, Silent t k.group k.field) (root : Node) :
    Node.Kept (root.get? [k.group, k.field])
      ((above.foldl Source.applyTo root).get? [k.group, k.field]) := by
  induction above generalizing root with
  | nil => exact Or.inl rfl
  | cons t above ih =>
    have first := Source.kept_applyTo (silent t List.mem_cons_self) root
    exact first.trans (ih (fun u hu => silent u (List.mem_cons_of_mem _ hu)) _)

theorem combined_split : Source.combined (below ++ src :: above) =
    above.foldl Source.applyTo (Source.applyTo (Source.combined below) src) := by
  simp only [Source.combined, List.foldl_append, List.foldl_cons]

theorem exists_of_decides (decides : Decides layers k n) :
    ∃ final, (Source.combined layers).get? [k.group, k.field] = some final ∧ ¬ n.IsHollow ∧
      ∃ m, n.Under m ∧ Node.Kept (some m) (some final) := by
  obtain ⟨below, src, above, rfl, value, full, silent⟩ := decides
  obtain ⟨m, there, under⟩ := Source.value?_under (Source.combined below) value
  have kept := kept_foldl silent (Source.applyTo (Source.combined below) src)
  rw [there, ← combined_split] at kept
  obtain ⟨final, last, -⟩ := kept.exists_some
  rw [last] at kept
  exact ⟨final, last, full, m, under, kept⟩

theorem isTable_of_decides (decides : Decides layers k n) :
    IsTable (Source.combined layers) k.group := by
  obtain ⟨final, last, -⟩ := exists_of_decides decides
  exact isTable_of_get? last

theorem reads_of_decides (loaded : ofNode (Source.combined layers) = .ok a) (hk : k ∈ Setting.all)
    (decides : Decides layers k n) : k.Reads a (some n) := by
  obtain ⟨final, last, full, m, under, kept⟩ := exists_of_decides decides
  exact k.carries under full kept (Setting.reads_of_get? loaded hk last)

theorem exists_last {p : Source → Prop} (h : ∃ t ∈ layers, p t) :
    ∃ below src above, layers = below ++ src :: above ∧ p src ∧ ∀ t ∈ above, ¬ p t := by
  induction layers with
  | nil =>
    obtain ⟨t, mem, -⟩ := h
    cases mem
  | cons t rest ih =>
    by_cases later : ∃ u ∈ rest, p u
    · obtain ⟨below, src, above, rfl, here, none⟩ := ih later
      exact ⟨t :: below, src, above, rfl, here, none⟩
    · obtain ⟨u, mem, here⟩ := h
      rcases List.mem_cons.mp mem with rfl | mem
      · exact ⟨[], u, rest, rfl, here, fun v hv this => later ⟨v, hv, this⟩⟩
      · exact absurd ⟨u, mem, here⟩ later

theorem builtIn_speaks (hk : k ∈ Setting.all) : Source.Says builtIn k.group k.field := by
  have speaks : Setting.all.all (fun k => builtIn.any fun e =>
      decide (Path.ofKey e.1 = [.name k.group, .name k.field]) &&
        e.2.toText.toOption.isSome) = true := by
    decide +kernel
  obtain ⟨e, mem, this⟩ := List.any_eq_true.mp (List.all_eq_true.mp speaks k hk)
  rw [Bool.and_eq_true, decide_eq_true_iff] at this
  obtain ⟨path, single⟩ := this
  refine ⟨e, mem, ?_⟩
  rw [path]
  cases text : e.2.toText with
  | error m =>
    rw [text] at single
    cases single
  | ok s => exact .itself (Node.strict_toText.full text)

theorem full_of_read (loaded : ofNode (Source.combined layers) = .ok a) (hk : k ∈ Setting.all)
    (split : layers = below ++ src :: above) (speaks : src.Says k.group k.field)
    (stays : ¬ src.Replaces k.group) (silent : ∀ t ∈ above, Silent t k.group k.field) :
    ∃ n, src.value? k.group k.field = some n ∧ ¬ n.IsHollow := by
  subst split
  have settled : Node.Settled (src.value? k.group k.field)
      ((Source.applyTo (Source.combined below) src).get? [k.group, k.field]) :=
    Source.settled_applyTo stays (.inl speaks)
  obtain ⟨n, m, value, there, bare⟩ := settled
  refine ⟨n, value, fun hollow => ?_⟩
  -- The empty table is there in the end, whatever stood below it.
  obtain ⟨_, there', under⟩ := Source.value?_under (Source.combined below) value
  cases there.symm.trans there'
  have kept := kept_foldl silent (Source.applyTo (Source.combined below) src)
  rw [there, ← combined_split] at kept
  obtain ⟨final, last, -⟩ := kept.exists_some
  rw [last] at kept
  have nothing : n.entries = [] := by
    obtain ⟨origin, rfl⟩ := hollow
    rfl
  exact k.full (Setting.reads_of_get? loaded hk last) (hollow.kept under (bare nothing) kept)

theorem decides_or (loaded : ofNode (Source.combined layers) = .ok a) (hk : k ∈ Setting.all)
    (lowest : builtIn ∈ layers) :
    (∃ n, Decides layers k n) ∨ ∃ t ∈ layers, t.Replaces k.group := by
  by_cases replaced : ∃ t ∈ layers, t.Replaces k.group
  · exact Or.inr replaced
  have spoken : ∃ t ∈ layers, t.Says k.group k.field := ⟨builtIn, lowest, builtIn_speaks hk⟩
  obtain ⟨below, src, above, rfl, speaks, silent⟩ := exists_last spoken
  have stays : ∀ t ∈ below ++ src :: above, ¬ t.Replaces k.group :=
    fun t ht this => replaced ⟨t, ht, this⟩
  have silent : ∀ t ∈ above, Silent t k.group k.field :=
    fun t ht => ⟨silent t ht, stays t (by simp [ht])⟩
  obtain ⟨n, value, full⟩ := full_of_read loaded hk rfl speaks (stays src (by simp)) silent
  exact Or.inl ⟨n, below, src, above, rfl, value, full, silent⟩

/-! ## Other layers -/

theorem Decides.append {k' : Setting} (decides : Decides above k n) (below : List Source)
    (group : k'.group = k.group) (field : k'.field = k.field) : Decides (below ++ above) k' n := by
  obtain ⟨between, src, rest, rfl, decides⟩ := decides
  rw [← group, ← field] at decides
  exact ⟨below ++ between, src, rest, (List.append_assoc ..).symm, decides⟩

/-! ## Loading -/

theorem eq_of_lower (loaded : ofNode (Source.combined layers) = .ok a)
    (split : layers = below ++ above) (higher : ∃ n, Decides above k n) {below' : List Source}
    (rest : below'.map (·.without k.group k.field) = below.map (·.without k.group k.field))
    (loaded' : ofNode (Source.combined (below' ++ above)) = .ok b) : b = a := by
  subst split
  obtain ⟨n, decides⟩ := higher
  have apart : Node.SameBut k.group k.field (Source.combined (below ++ above))
      (Source.combined (below' ++ above)) :=
    Source.sameBut_foldl (by rw [List.map_append, List.map_append, rest]) (.refl ..)
  have here := isTable_of_decides (decides.append below rfl rfl)
  have there := isTable_of_decides (decides.append below' rfl rfl)
  refine (Setting.eq_of_stands loaded loaded' apart.sections fun k' hk' group => ?_).symm
  rw [← group] at here there
  -- The key itself is decided above, and the others stand as they stood.
  by_cases field : k'.field = k.field
  · exact ⟨some n, reads_of_decides loaded hk' (decides.append below group field),
      reads_of_decides loaded' hk' (decides.append below' group field)⟩
  · have same := apart.keys k'.field field
    rw [← group] at same
    refine ⟨_, Setting.stands_of_read loaded k' hk' here, ?_⟩
    rw [same]
    exact Setting.stands_of_read loaded' k' hk' there

theorem layered_of_read (loaded : ofNode (Source.combined layers) = .ok a)
    (lowest : builtIn ∈ layers) : Layered layers a where
  value k hk n decides := reads_of_decides loaded hk decides
  decided k hk := decides_or loaded hk lowest
  lower _ _ _ _ _ split higher rest loaded' := eq_of_lower loaded split higher rest loaded'
  secret n decides := by
    have listed : Setting.secret ∈ Setting.all := by simp [Setting.all, Setting.inHub]
    have given : n.toText = .ok a.hub.secret := reads_of_decides loaded listed decides
    have empty : n.toText = .ok "" ↔ a.hub.secret = "" := by
      rw [given]
      exact ⟨Except.ok.inj, congrArg Except.ok⟩
    rw [empty]
    simp [Settings.signatureDisabled, HubAccess.secret?, HubAccess.defaults]

/-- Settings that were loaded come key by key from the built-in values, the file `default`, the file
of the environment's name and the variables, with the last of these that says something deciding. -/
theorem load_layered {d : Directory} {vars : Environment} {formats : List FileFormat} {a : Settings}
    (loaded : load d vars formats = .ok a) :
    ∃ base special, fileSource formats d "default" = .ok base ∧
      fileSource formats d (environmentName vars) = .ok special ∧
      Layered [builtIn, base, special, vars.source] a := by
  unfold load layers at loaded
  cases readBase : fileSource formats d "default" with
  | error e =>
    rw [readBase] at loaded
    cases loaded
  | ok base =>
    cases readSpecial : fileSource formats d (environmentName vars) with
    | error e =>
      rw [readBase, readSpecial] at loaded
      cases loaded
    | ok special =>
      rw [readBase, readSpecial] at loaded
      exact ⟨base, special, rfl, rfl, layered_of_read loaded List.mem_cons_self⟩

/-! ## Secrets in files -/

namespace InFiles

def file (name content : String) : String × List UInt8 := (name, Utf8.encode content.toList)

def secret : String × List UInt8 :=
  file "default.json" "\x7b\"hub\": \x7b\"secret\": \"s3cr3t\"\x7d\x7d"

/-- With YAML, as far as it is JSON. -/
def formats : List FileFormat :=
  FileFormat.known ++ [{ FileFormat.json with suffixes := ["yaml", "yml"] }]

def access : String × List UInt8 :=
  file "default.yaml" "\x7b\"hub\": \x7b\"secret\": \"s3cr3t\", \"max_lease_seconds\": 7200\x7d\x7d"

/-- A file that puts nothing at all in the place of a section. -/
def noHub : String × List UInt8 := file "prod.json" "\x7b\"hub\": null\x7d"

def token : Environment := [("ytpush__hub__secret", "t0ken")]

def vars : Environment :=
  [("APP_ENVIRONMENT", "prod"), ("YTPUSH__HUB__HUB_URL", "https://hub.test/subscribe"),
    ("YTPUSH__HUB__CALLBACK_URL", "https://cb.test/hook"),
    ("YTPUSH__HUB__DEFAULT_LEASE_SECONDS", "3600"), ("YTPUSH__HUB__MAX_LEASE_SECONDS", "7200"),
    ("YTPUSH__HUB__REQUEST_TIMEOUT_SECS", "5")]

end InFiles

open InFiles in
/-- A file gives a secret and a limit, and a variable another secret. -/
theorem load_layered_secret : ∃ a, load [access] token formats = .ok a ∧
    a.hub.secret = "t0ken" ∧ a.hub.maxLeaseSeconds = 7200 ∧
    ∃ base special, fileSource formats [access] "default" = .ok base ∧
      fileSource formats [access] (environmentName token) = .ok special ∧
      Layered [builtIn, base, special, token.source] a := by
  have given : (load [access] token formats).toOption.map
      (fun a => (a.hub.secret, a.hub.maxLeaseSeconds)) = some ("t0ken", 7200) := by
    decide +kernel
  obtain ⟨a, loaded, given⟩ := Reading.exists_ok given
  obtain ⟨secret, lease⟩ := Prod.mk.inj given
  exact ⟨a, loaded, secret, lease, load_layered loaded⟩

open InFiles in
/-- Under a file without a table for the section, it is lost. -/
theorem secret_lost_under_null : ¬ ∀ (formats : List FileFormat) (d : Directory)
    (vars : Environment) (a : Settings) (base special : Source),
    load d vars formats = .ok a → fileSource formats d "default" = .ok base →
    fileSource formats d (environmentName vars) = .ok special →
    ∀ below src above n, [builtIn, base, special, vars.source] = below ++ src :: above →
      src.value? "hub" "secret" = some n → (∀ t ∈ above, t.value? "hub" "secret" = none) →
      n.toText = .ok a.hub.secret := by
  intro claim
  have lost : (load [secret, noHub] vars).toOption.map (·.hub.secret) = some "" := by
    decide +kernel
  have low : (fileSource FileFormat.known [secret, noHub] "default").toOption.map
      (fun t => (t.value? "hub" "secret").bind (·.toText.toOption)) = some (some "s3cr3t") := by
    decide +kernel
  have middle : (fileSource FileFormat.known [secret, noHub] (environmentName vars)).toOption.map
      (fun t => (t.value? "hub" "secret").isNone) = some true := by
    decide +kernel
  have high : (vars.source.value? "hub" "secret").isNone = true := by
    decide +kernel
  obtain ⟨a, loaded, lost⟩ := Reading.exists_ok lost
  obtain ⟨base, readBase, low⟩ := Reading.exists_ok low
  obtain ⟨special, readSpecial, middle⟩ := Reading.exists_ok middle
  obtain ⟨n, value, text⟩ := Option.bind_eq_some_iff.mp low
  have silent : ∀ t ∈ [special, vars.source], t.value? "hub" "secret" = none :=
    List.forall_mem_cons.mpr ⟨Option.isNone_iff_eq_none.mp middle,
      List.forall_mem_singleton.mpr (Option.isNone_iff_eq_none.mp high)⟩
  have decides := claim FileFormat.known _ _ a base special loaded readBase readSpecial [builtIn]
    base [special, vars.source] n rfl value silent
  rw [decides, lost] at text
  exact absurd text (by decide)

end WebSub.Settings
