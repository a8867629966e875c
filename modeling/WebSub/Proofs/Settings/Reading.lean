import WebSub.Proofs.Settings.Overlay
import WebSub.Settings.Load

/-!
# What settings were read from

Each setting is read from one place of the tree. Only single values can be read, but for the format
of the log, which may also be the one key of a table.
-/

namespace WebSub.Settings

/-! ## Single values -/

namespace Node

/-- Arrays and tables cannot be converted. -/
def Strict {α : Type} (convert : Conversion α) : Prop :=
  ∀ n a, convert n = .ok a → ∃ origin v, n = .scalar origin v

variable {α : Type} {convert : Conversion α}

theorem strict_of_refused (array : ∀ origin items a, convert (.array origin items) ≠ .ok a)
    (table : ∀ origin es a, convert (.table origin es) ≠ .ok a) : Strict convert := by
  intro n a read
  cases n with
  | scalar origin v => exact ⟨origin, v, rfl⟩
  | array origin items => exact absurd read (array origin items a)
  | table origin es => exact absurd read (table origin es a)

theorem strict_toInteger : Strict toInteger :=
  strict_of_refused (fun _ _ _ => nofun) fun _ _ _ => nofun

theorem strict_toWord64 : Strict toWord64 :=
  strict_of_refused (fun _ _ _ => nofun) fun _ _ _ => nofun

theorem strict_toWordUpTo (max : Nat) (wanted : Wanted) : Strict (toWordUpTo max wanted) :=
  strict_of_refused (fun _ _ _ => nofun) fun _ _ _ => nofun

theorem strict_toWord16 : Strict toWord16 := strict_toWordUpTo _ _

theorem strict_toWord32 : Strict toWord32 := strict_toWordUpTo _ _

theorem strict_toFlag : Strict toFlag := strict_of_refused (fun _ _ _ => nofun) fun _ _ _ => nofun

theorem strict_toText : Strict toText := strict_of_refused (fun _ _ _ => nofun) fun _ _ _ => nofun

theorem Strict.toOptional (strict : Strict convert) : Strict (toOptional convert) := by
  intro n a read
  unfold Node.toOptional at read
  split at read
  case h_1 origin => exact ⟨origin, .nil, rfl⟩
  case h_2 =>
    cases value : convert n with
    | error e =>
      rw [value] at read
      cases read
    | ok b => exact strict n b value

/-- A format by its name, or by the only key of a table. -/
def Names (format : LogFormat) : Node → Prop
  | scalar _ (.text s) => s = format.name
  | table _ es => es ≠ [] ∧ ∀ e ∈ es, e.1 = format.name
  | _ => False

theorem eq_name_of_ofName? {name : String} {format : LogFormat}
    (found : LogFormat.ofName? name = some format) : name = format.name := by
  unfold LogFormat.ofName? at found
  have same := List.find?_some found
  exact (beq_iff_eq.mp same).symm

theorem names_of_ofNode {key : String} {n : Node} {format : LogFormat}
    (read : LogFormat.ofNode key n = .ok format) : n.Names format := by
  unfold LogFormat.ofNode at read
  extract_lets chosen at read
  have name_of_chosen (name : String) (ok : chosen name = .ok format) : name = format.name := by
    unfold chosen at ok
    split at ok
    case h_1 f found =>
      cases ok
      exact eq_name_of_ofName? found
    case h_2 => cases ok
  cases n with
  | array origin items => cases read
  | scalar origin v =>
    cases v with
    | text name => exact name_of_chosen name read
    | nil | flag _ | integer _ | real _ => cases read
  | table origin es =>
    rcases es with _ | ⟨⟨name, inner⟩, _ | ⟨second, es⟩⟩
    · cases read
    · refine ⟨List.cons_ne_nil _ _, fun e mem => ?_⟩
      rw [List.mem_singleton.mp mem]
      exact name_of_chosen name read
    · cases read

/-! ## What is read through other sources -/

section

variable {n m final : Node}

theorem eq_scalar {origin : Option String} {v : Scalar} (under : n.Under m)
    (kept : Kept (some m) (some (.scalar origin v))) : n = .scalar origin v := by
  rcases kept with same | ⟨_, table⟩
  case inr => cases table
  cases same
  have alike := under.alike
  cases n with
  | scalar origin' v' => exact alike.symm
  | array origin' items =>
    obtain ⟨_, _, array⟩ := alike
    cases array
  | table origin' es =>
    obtain ⟨_, _, table⟩ := alike
    cases table

theorem Strict.carries {a : α} (strict : Strict convert) (under : n.Under m)
    (kept : Kept (some m) (some final)) (read : convert final = .ok a) : convert n = .ok a := by
  obtain ⟨origin, v, rfl⟩ := strict final a read
  rw [eq_scalar under kept]
  exact read

theorem Strict.full {a : α} (strict : Strict convert) (read : convert n = .ok a) :
    ¬ n.IsHollow := by
  obtain ⟨origin, v, rfl⟩ := strict n a read
  rintro ⟨_, table⟩
  cases table

theorem Names.full {format : LogFormat} (read : n.Names format) : ¬ n.IsHollow := by
  rintro ⟨origin, rfl⟩
  exact read.1 rfl

theorem eq_of_under {name : String} (under : n.Under m) (only : ∀ e ∈ m.entries, e.1 = name) :
    ∀ e ∈ n.entries, e.1 = name := by
  rintro ⟨key, c⟩ mem
  cases found : n.entries.lookup key with
  | none =>
    have other := List.lookup_eq_none_iff.mp found _ mem
    simp at other
  | some c' =>
    obtain ⟨c'', found', -⟩ := under.entries key c' found
    obtain ⟨before, after, split, -⟩ := List.lookup_eq_some_iff.mp found'
    exact only (key, c'') (by rw [split]; simp)

theorem Names.carries {format : LogFormat} (under : n.Under m) (full : ¬ n.IsHollow)
    (kept : Kept (some m) (some final)) (read : final.Names format) : n.Names format := by
  cases final with
  | array origin items => exact read.elim
  | scalar origin v =>
    rw [eq_scalar under kept]
    exact read
  | table origin es =>
    obtain ⟨some_entry, only⟩ := read
    have entries : es = m.entries := by
      rcases kept with same | ⟨_, table⟩
      · cases same
        rfl
      · cases table
        rfl
    rw [entries] at some_entry only
    have alike := under.alike
    cases n with
    | scalar origin' v' =>
      cases alike
      exact absurd rfl some_entry
    | array origin' items =>
      obtain ⟨_, _, rfl⟩ := alike
      exact absurd rfl some_entry
    | table origin' own =>
      refine ⟨fun none => full ⟨origin', by rw [none]⟩, ?_⟩
      exact eq_of_under under only

end

end Node

/-! ## Readings -/

namespace Reading

variable {α β : Type}

theorem seq_eq_ok {f : Reading (α → β)} {x : Reading α} {b : β} :
    f <*> x = .ok b ↔ ∃ g, f = .ok g ∧ ∃ a, x = .ok a ∧ g a = b := by
  constructor
  · intro h
    cases f with
    | error e =>
      cases x <;> cases h
    | ok g =>
      cases x with
      | error e => cases h
      | ok a => exact ⟨g, rfl, a, rfl, Except.ok.inj h⟩
  · rintro ⟨g, rfl, a, rfl, rfl⟩
    rfl

theorem map_eq_ok {g : α → β} {x : Reading α} {b : β} :
    g <$> x = .ok b ↔ ∃ a, x = .ok a ∧ g a = b := by
  constructor
  · intro h
    cases x with
    | error e => cases h
    | ok a => exact ⟨a, rfl, Except.ok.inj h⟩
  · rintro ⟨a, rfl, rfl⟩
    rfl

theorem exists_ok {ε : Type} {x : Except ε α} {f : α → β} {b : β}
    (h : x.toOption.map f = some b) : ∃ a, x = .ok a ∧ f a = b := by
  cases x with
  | error e => cases h
  | ok a => exact ⟨a, rfl, Option.some.inj h⟩

theorem ofConversion_eq_ok {convert : Conversion α} {key : String} {n : Node} {a : α}
    (h : ofConversion convert key n = .ok a) : convert n = .ok a := by
  unfold ofConversion at h
  cases value : convert n with
  | error e =>
    rw [value] at h
    cases h
  | ok b =>
    rw [value] at h
    exact congrArg Except.ok (Except.ok.inj h)

end Reading

/-! ## Sections -/

/-- There is a table for the section. -/
def IsTable (root : Node) (group : String) : Prop :=
  ∃ origin es, root.entries.lookup group = some (.table origin es)

theorem isTable_of_get? {root n : Node} {group field : String}
    (found : root.get? [group, field] = some n) : IsTable root group := by
  obtain ⟨c, entry, below⟩ := Option.bind_eq_some_iff.mp found
  cases c with
  | table origin es => exact ⟨origin, es, entry⟩
  | scalar origin v => cases below
  | array origin items => cases below

/-- The section has by name what stands below its own, if that is a table. -/
def Holds (root : Node) (group : String) (s : Section) : Prop :=
  IsTable root group → (∃ es, s.content = .named es) ∧ ∀ field,
    s.value? field = (root.get? [group, field]).map (group ++ "." ++ field, ·)

theorem section_of_read {α : Type} {root : Node} {group : String} {layout : Layout}
    {read : Section → Reading α} {a : α} (ok : readSection root group layout read = .ok a) :
    ∃ s, read s = .ok a ∧ Holds root group s := by
  unfold readSection at ok
  split at ok
  case h_1 => cases ok
  case h_2 c entry =>
    cases c with
    | scalar origin v => cases ok
    | array origin items =>
      refine ⟨_, ok, fun ⟨_, _, table⟩ => ?_⟩
      cases entry.symm.trans table
    | table origin es =>
      refine ⟨_, ok, fun _ => ⟨⟨es, rfl⟩, fun field => ?_⟩⟩
      rw [Node.get?_pair, Node.child, entry]
      rfl

/-! ## Settings -/

/-- A single setting: the key of a section, and what it means for settings to have been read from
what stands there, or from nothing. What was read in the end was set by the source below that sets
it last. -/
structure Setting where
  group : String
  field : String
  Reads : Settings → Option Node → Prop
  carries : ∀ {a : Settings} {n m final : Node}, n.Under m → ¬ n.IsHollow →
    Node.Kept (some m) (some final) → Reads a (some final) → Reads a (some n)
  full : ∀ {a : Settings} {n : Node}, Reads a (some n) → ¬ n.IsHollow

namespace Setting

/-- A setting with a single value; without a preset it must be given. -/
def of {α : Type} {convert : Conversion α} (group field : String) (strict : Node.Strict convert)
    (preset : Option α) (get : Settings → α) : Setting where
  group := group
  field := field
  Reads a
    | some n => convert n = .ok (get a)
    | none => preset = some (get a)
  carries under _ kept read := strict.carries under kept read
  full read := strict.full read

open Node (strict_toText strict_toFlag strict_toInteger strict_toWord64 strict_toWord16
  strict_toWord32)

def inServer : List Setting :=
  [of "server" "host" strict_toText none (·.server.host),
    of "server" "port" strict_toWord16 none (·.server.port),
    of "server" "webhook_path" strict_toText none (·.server.webhookPath)]

def inDatabase : List Setting :=
  [of "database" "url" strict_toText none (·.database.url),
    of "database" "max_connections" strict_toWord32.toOptional (some none)
      (·.database.maxConnections),
    of "database" "min_connections" strict_toWord32.toOptional (some none)
      (·.database.minConnections),
    of "database" "connect_timeout" strict_toWord64.toOptional (some none)
      (·.database.connectTimeout),
    of "database" "idle_timeout" strict_toWord64.toOptional (some none)
      (·.database.idleTimeout),
    of "database" "sqlx_logging" strict_toFlag (some false) (·.database.logging)]

/-- Without it nothing is signed. -/
def secret : Setting := of "hub" "secret" strict_toText (some "") (·.hub.secret)

def inHub : List Setting :=
  [of "hub" "hub_url" strict_toText none (·.hub.hubUrl),
    of "hub" "callback_url" strict_toText none (·.hub.callbackUrl),
    secret,
    of "hub" "default_lease_seconds" strict_toInteger none (·.hub.defaultLeaseSeconds),
    of "hub" "max_lease_seconds" strict_toInteger none (·.hub.maxLeaseSeconds),
    of "hub" "request_timeout_secs" strict_toWord64 none (·.hub.requestTimeoutSeconds)]

def inRenewal : List Setting :=
  [of "renewal" "enabled" strict_toFlag none (·.renewal.enabled),
    of "renewal" "interval_secs" strict_toWord64 none (·.renewal.sweep.intervalSeconds),
    of "renewal" "lookahead_hours" strict_toInteger none (·.renewal.sweep.lookaheadHours),
    of "renewal" "batch_size" strict_toWord64 none (·.renewal.sweep.batchSize),
    of "renewal" "concurrency" strict_toWord64 none (·.renewal.sweep.concurrency)]

def inMetrics : List Setting :=
  [of "metrics" "enabled" strict_toFlag none (·.metrics.enabled),
    of "metrics" "listen_addr" strict_toText none (·.metrics.listenAddress)]

/-- The format goes by its name, or by that of the only key of a table. -/
def logFormat : Setting where
  group := "logging"
  field := "format"
  Reads a
    | some n => n.Names a.logFormat
    | none => a.logFormat = .pretty
  carries := Node.Names.carries
  full := Node.Names.full

/-- Everything that can be configured. -/
def all : List Setting :=
  inServer ++ inDatabase ++ inHub ++ inRenewal ++ inMetrics ++ [logFormat]

variable {α : Type} {root : Node} {a : Settings} {s : Section} {group field : String}
  {convert : Conversion α}

/-- The setting is what stands in the tree, if there is a table for its section. -/
def Stands (root : Node) (a : Settings) (k : Setting) : Prop :=
  IsTable root k.group → k.Reads a (root.get? [k.group, k.field])

theorem stands_of_value {k : Setting} (holds : Holds root k.group s)
    (given : ∀ key n, s.value? k.field = some (key, n) → k.Reads a (some n))
    (missing : ∀ es, s.content = .named es → s.value? k.field = none → k.Reads a none) :
    Stands root a k := by
  intro table
  obtain ⟨⟨es, named⟩, values⟩ := holds table
  have value := values k.field
  cases found : root.get? [k.group, k.field] with
  | none =>
    rw [found] at value
    exact missing es named value
  | some n =>
    rw [found] at value
    exact given _ n value

theorem stands_required {strict : Node.Strict convert} {get : Settings → α}
    (holds : Holds root group s) (read : s.required field convert = .ok (get a)) :
    Stands root a (of group field strict none get) := by
  refine stands_of_value holds (fun key n value => ?_) fun es named value => ?_
  · rw [Section.required, show s.value? field = _ from value] at read
    exact Reading.ofConversion_eq_ok read
  · rw [Section.required, show s.value? field = _ from value] at read
    cases read

theorem stands_optional {strict : Node.Strict (Node.toOptional convert)} {get : Settings → Option α}
    (holds : Holds root group s) (read : s.optional field convert = .ok (get a)) :
    Stands root a (of group field strict (some none) get) := by
  refine stands_of_value holds (fun key n value => ?_) fun es named value => ?_
  · rw [Section.optional, show s.value? field = _ from value] at read
    exact Reading.ofConversion_eq_ok read
  · rw [Section.optional, show s.value? field = _ from value, named] at read
    exact congrArg some (Except.ok.inj read)

theorem stands_defaulted {strict : Node.Strict convert} {get : Settings → α} {preset : α}
    (holds : Holds root group s)
    (read : s.defaulted field preset (.ofConversion convert) = .ok (get a)) :
    Stands root a (of group field strict (some preset) get) := by
  refine stands_of_value holds (fun key n value => ?_) fun es named value => ?_
  · rw [Section.defaulted, show s.value? field = _ from value] at read
    exact Reading.ofConversion_eq_ok read
  · rw [Section.defaulted, show s.value? field = _ from value] at read
    exact congrArg some (Except.ok.inj read)

theorem stands_server (read : Server.ofSection s = .ok a.server) (holds : Holds root "server" s) :
    ∀ k ∈ inServer, Stands root a k := by
  have fields : s.required "host" Node.toText = .ok a.server.host ∧
      s.required "port" Node.toWord16 = .ok a.server.port ∧
      s.required "webhook_path" Node.toText = .ok a.server.webhookPath := by
    generalize a.server = v at read
    simp only [Server.ofSection, Reading.seq_eq_ok, Reading.map_eq_ok] at read
    obtain ⟨_, ⟨_, ⟨_, host, rfl⟩, _, port, rfl⟩, _, path, rfl⟩ := read
    exact ⟨host, port, path⟩
  obtain ⟨host, port, path⟩ := fields
  simp only [inServer, List.forall_mem_cons]
  exact ⟨stands_required holds host, stands_required holds port, stands_required holds path, nofun⟩

theorem stands_database (read : Database.ofSection s = .ok a.database)
    (holds : Holds root "database" s) : ∀ k ∈ inDatabase, Stands root a k := by
  have fields : s.required "url" Node.toText = .ok a.database.url ∧
      s.optional "max_connections" Node.toWord32 = .ok a.database.maxConnections ∧
      s.optional "min_connections" Node.toWord32 = .ok a.database.minConnections ∧
      s.optional "connect_timeout" Node.toWord64 = .ok a.database.connectTimeout ∧
      s.optional "idle_timeout" Node.toWord64 = .ok a.database.idleTimeout ∧
      s.defaulted "sqlx_logging" false (.ofConversion Node.toFlag) = .ok a.database.logging := by
    generalize a.database = v at read
    simp only [Database.ofSection, Reading.seq_eq_ok, Reading.map_eq_ok] at read
    obtain ⟨_, ⟨_, ⟨_, ⟨_, ⟨_, ⟨_, url, rfl⟩, _, most, rfl⟩, _, least, rfl⟩, _, connect, rfl⟩,
      _, idle, rfl⟩, _, logging, rfl⟩ := read
    exact ⟨url, most, least, connect, idle, logging⟩
  obtain ⟨url, most, least, connect, idle, logging⟩ := fields
  simp only [inDatabase, List.forall_mem_cons]
  exact ⟨stands_required holds url, stands_optional holds most, stands_optional holds least,
    stands_optional holds connect, stands_optional holds idle,
    stands_defaulted holds logging, nofun⟩

theorem stands_hub (read : HubAccess.ofSection s = .ok a.hub) (holds : Holds root "hub" s) :
    ∀ k ∈ inHub, Stands root a k := by
  have fields : s.required "hub_url" Node.toText = .ok a.hub.hubUrl ∧
      s.required "callback_url" Node.toText = .ok a.hub.callbackUrl ∧
      s.defaulted "secret" "" (.ofConversion Node.toText) = .ok a.hub.secret ∧
      s.required "default_lease_seconds" Node.toInteger = .ok a.hub.defaultLeaseSeconds ∧
      s.required "max_lease_seconds" Node.toInteger = .ok a.hub.maxLeaseSeconds ∧
      s.required "request_timeout_secs" Node.toWord64 = .ok a.hub.requestTimeoutSeconds := by
    generalize a.hub = v at read
    simp only [HubAccess.ofSection, Reading.seq_eq_ok, Reading.map_eq_ok] at read
    obtain ⟨_, ⟨_, ⟨_, ⟨_, ⟨_, ⟨_, url, rfl⟩, _, callback, rfl⟩, _, secret, rfl⟩, _, lease, rfl⟩,
      _, most, rfl⟩, _, timeout, rfl⟩ := read
    exact ⟨url, callback, secret, lease, most, timeout⟩
  obtain ⟨url, callback, given, lease, most, timeout⟩ := fields
  simp only [inHub, List.forall_mem_cons]
  exact ⟨stands_required holds url, stands_required holds callback, stands_defaulted holds given,
    stands_required holds lease, stands_required holds most, stands_required holds timeout, nofun⟩

theorem stands_renewal (read : Renewal.ofSection s = .ok a.renewal)
    (holds : Holds root "renewal" s) : ∀ k ∈ inRenewal, Stands root a k := by
  have fields : s.required "enabled" Node.toFlag = .ok a.renewal.enabled ∧
      s.required "interval_secs" Node.toWord64 = .ok a.renewal.sweep.intervalSeconds ∧
      s.required "lookahead_hours" Node.toInteger = .ok a.renewal.sweep.lookaheadHours ∧
      s.required "batch_size" Node.toWord64 = .ok a.renewal.sweep.batchSize ∧
      s.required "concurrency" Node.toWord64 = .ok a.renewal.sweep.concurrency := by
    generalize a.renewal = v at read
    simp only [Renewal.ofSection, Reading.seq_eq_ok, Reading.map_eq_ok] at read
    obtain ⟨_, ⟨_, ⟨_, ⟨_, ⟨_, enabled, rfl⟩, _, interval, rfl⟩, _, lookahead, rfl⟩, _, batch, rfl⟩,
      _, width, rfl⟩ := read
    exact ⟨enabled, interval, lookahead, batch, width⟩
  obtain ⟨enabled, interval, lookahead, batch, width⟩ := fields
  simp only [inRenewal, List.forall_mem_cons]
  exact ⟨stands_required holds enabled, stands_required holds interval,
    stands_required holds lookahead, stands_required holds batch,
    stands_required holds width, nofun⟩

theorem stands_metrics (read : Export.ofSection s = .ok a.metrics)
    (holds : Holds root "metrics" s) : ∀ k ∈ inMetrics, Stands root a k := by
  have fields : s.required "enabled" Node.toFlag = .ok a.metrics.enabled ∧
      s.required "listen_addr" Node.toText = .ok a.metrics.listenAddress := by
    generalize a.metrics = v at read
    simp only [Export.ofSection, Reading.seq_eq_ok, Reading.map_eq_ok] at read
    obtain ⟨_, ⟨_, enabled, rfl⟩, _, address, rfl⟩ := read
    exact ⟨enabled, address⟩
  obtain ⟨enabled, address⟩ := fields
  simp only [inMetrics, List.forall_mem_cons]
  exact ⟨stands_required holds enabled, stands_required holds address, nofun⟩

theorem stands_logging (read : LogFormat.ofSection s = .ok a.logFormat)
    (holds : Holds root "logging" s) : Stands root a logFormat := by
  refine stands_of_value holds (fun key n value => ?_) fun es named value => ?_
  · rw [LogFormat.ofSection, Section.defaulted, show s.value? "format" = _ from value] at read
    exact Node.names_of_ofNode read
  · rw [LogFormat.ofSection, Section.defaulted, show s.value? "format" = _ from value] at read
    exact (Except.ok.inj read).symm

/-- Settings that were read from a tree are what stands in it. -/
theorem stands_of_read (ok : ofNode root = .ok a) : ∀ k ∈ all, Stands root a k := by
  simp only [ofNode, Reading.seq_eq_ok, Reading.map_eq_ok] at ok
  obtain ⟨_, ⟨_, ⟨_, ⟨_, ⟨_, ⟨server, readServer, rfl⟩, database, readDatabase, rfl⟩,
    hub, readHub, rfl⟩, renewal, readRenewal, rfl⟩, metrics, readMetrics, rfl⟩,
    format, readFormat, rfl⟩ := ok
  obtain ⟨_, serverSection, inServer⟩ := section_of_read readServer
  obtain ⟨_, databaseSection, inDatabase⟩ := section_of_read readDatabase
  obtain ⟨_, hubSection, inHub⟩ := section_of_read readHub
  obtain ⟨_, renewalSection, inRenewal⟩ := section_of_read readRenewal
  obtain ⟨_, metricsSection, inMetrics⟩ := section_of_read readMetrics
  obtain ⟨_, loggingSection, inLogging⟩ := section_of_read readFormat
  simp only [all, List.forall_mem_append, List.forall_mem_singleton]
  exact ⟨⟨⟨⟨⟨stands_server serverSection inServer, stands_database databaseSection inDatabase⟩,
    stands_hub hubSection inHub⟩, stands_renewal renewalSection inRenewal⟩,
    stands_metrics metricsSection inMetrics⟩, stands_logging loggingSection inLogging⟩

variable {root' n : Node} {b : Settings} {k : Setting}

theorem reads_of_get? (ok : ofNode root = .ok a) (hk : k ∈ all)
    (found : root.get? [k.group, k.field] = some n) : k.Reads a (some n) := by
  have stands := stands_of_read ok k hk (isTable_of_get? found)
  rwa [found] at stands

/-! ## Settings told apart -/

attribute [ext] Settings Server Database HubAccess Renewal Export Sweep.Settings

/-- Both settings were read from the same. -/
def ReadAlike (a b : Settings) (k : Setting) : Prop := ∃ o, k.Reads a o ∧ k.Reads b o

theorem ReadAlike.eq {strict : Node.Strict convert} {preset : Option α} {get : Settings → α}
    (same : ReadAlike a b (of group field strict preset get)) : get a = get b := by
  obtain ⟨o, here, there⟩ := same
  cases o with
  | none => exact Option.some.inj (here.symm.trans there)
  | some n => exact Except.ok.inj (here.symm.trans there)

theorem eq_of_name_eq {f g : LogFormat} (h : f.name = g.name) : f = g := by
  cases f <;> cases g <;> simp_all [LogFormat.name]

theorem ReadAlike.eq_logFormat (same : ReadAlike a b logFormat) : a.logFormat = b.logFormat := by
  obtain ⟨o, here, there⟩ := same
  match o, here, there with
  | none, here, there => exact here.trans there.symm
  | some (.scalar _ (.text _)), here, there => exact eq_of_name_eq (here.symm.trans there)
  | some (.table _ (e :: _)), here, there =>
    have name := here.2 e List.mem_cons_self
    exact eq_of_name_eq (name.symm.trans (there.2 e List.mem_cons_self))

theorem eq_of_readSection {layout : Layout} {read : Section → Reading α} {x y : α}
    (same : root.entries.lookup group = root'.entries.lookup group)
    (here : readSection root group layout read = .ok x)
    (there : readSection root' group layout read = .ok y) : x = y := by
  rw [readSection, same, ← readSection] at here
  exact Except.ok.inj (here.symm.trans there)

theorem eq_of_stands (ok : ofNode root = .ok a) (ok' : ofNode root' = .ok b)
    (elsewhere : ∀ g, g ≠ group → root.entries.lookup g = root'.entries.lookup g)
    (same : ∀ k ∈ all, k.group = group → ReadAlike a b k) : a = b := by
  simp only [ofNode, Reading.seq_eq_ok, Reading.map_eq_ok] at ok ok'
  obtain ⟨_, ⟨_, ⟨_, ⟨_, ⟨_, ⟨_, server, rfl⟩, _, database, rfl⟩, _, hub, rfl⟩, _, renewal, rfl⟩,
    _, metrics, rfl⟩, _, format, rfl⟩ := ok
  obtain ⟨_, ⟨_, ⟨_, ⟨_, ⟨_, ⟨_, server', rfl⟩, _, database', rfl⟩, _, hub', rfl⟩,
    _, renewal', rfl⟩, _, metrics', rfl⟩, _, format', rfl⟩ := ok'
  simp only [all, inServer, inDatabase, inHub, inRenewal, inMetrics, List.forall_mem_append,
    List.forall_mem_cons] at same
  obtain ⟨⟨⟨⟨⟨⟨host, port, path, -⟩, url, most, least, connect, idle, logging, -⟩,
    access, callback, given, lease, longest, timeout, -⟩,
    enabled, interval, lookahead, batch, width, -⟩, on, address, -⟩, named, -⟩ := same
  -- The section that may differ is read key by key, and each other one as a whole.
  ext1
  · by_cases its : "server" = group
    · exact Server.ext (host its).eq (port its).eq (path its).eq
    · exact eq_of_readSection (elsewhere _ its) server server'
  · by_cases its : "database" = group
    · exact Database.ext (url its).eq (most its).eq (least its).eq (connect its).eq (idle its).eq
        (logging its).eq
    · exact eq_of_readSection (elsewhere _ its) database database'
  · by_cases its : "hub" = group
    · exact HubAccess.ext (access its).eq (callback its).eq (given its).eq (lease its).eq
        (longest its).eq (timeout its).eq
    · exact eq_of_readSection (elsewhere _ its) hub hub'
  · by_cases its : "renewal" = group
    · exact Renewal.ext (enabled its).eq (Sweep.Settings.ext (interval its).eq (lookahead its).eq
        (batch its).eq (width its).eq)
    · exact eq_of_readSection (elsewhere _ its) renewal renewal'
  · by_cases its : "metrics" = group
    · exact Export.ext (on its).eq (address its).eq
    · exact eq_of_readSection (elsewhere _ its) metrics metrics'
  · by_cases its : "logging" = group
    · exact (named its).eq_logFormat
    · exact eq_of_readSection (elsewhere _ its) format format'

end Setting

end WebSub.Settings
