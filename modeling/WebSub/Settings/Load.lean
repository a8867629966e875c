import WebSub.Settings.Basic
import WebSub.Settings.Reader
import WebSub.Settings.Source

/-!
# Loading settings

Settings come from four layers, each above the one before: built-in values, the file `default`,
the file of the environment's name, and the variables of the environment.
-/

namespace WebSub.Settings

/-! ## Built-in values -/

/-- What holds where no file and no variable says otherwise. -/
def builtIn : Source :=
  let text (s : String) : Node := .scalar none (.text s)
  let integer (n : Int) : Node := .scalar none (.integer n)
  let flag (b : Bool) : Node := .scalar none (.flag b)
  [("server.host", text "0.0.0.0"),
    ("server.port", integer 3000),
    ("server.webhook_path", text "/webhooks/youtube"),
    ("database.url", text "sqlite://ytpush.db?mode=rwc"),
    ("database.max_connections", integer 20),
    ("database.min_connections", integer 2),
    ("database.connect_timeout", integer 10),
    ("database.idle_timeout", integer 300),
    ("database.sqlx_logging", flag false),
    ("hub.hub_url", text "https://pubsubhubbub.appspot.com/subscribe"),
    ("hub.callback_url", text "http://localhost:3000/webhooks/youtube"),
    ("hub.secret", text ""),
    ("hub.default_lease_seconds", integer 432000),
    ("hub.max_lease_seconds", integer 864000),
    ("hub.request_timeout_secs", integer 10),
    ("renewal.enabled", flag true),
    ("renewal.interval_secs", integer 3600),
    ("renewal.lookahead_hours", integer 24),
    ("renewal.batch_size", integer 100),
    ("renewal.concurrency", integer 4),
    ("metrics.enabled", flag true),
    ("metrics.listen_addr", text "0.0.0.0:9000"),
    ("logging.format", text "pretty")]

/-! ## Sections -/

def serverLayout : Layout := ⟨"ServerSettings", ["host", "port", "webhook_path"]⟩

def Server.ofSection (s : Section) : Reading Server :=
  Server.mk <$> s.required "host" Node.toText <*> s.required "port" Node.toWord16 <*>
    s.required "webhook_path" Node.toText

def databaseLayout : Layout :=
  ⟨"DatabaseSettings",
    ["url", "max_connections", "min_connections", "connect_timeout", "idle_timeout",
      "sqlx_logging"]⟩

def Database.ofSection (s : Section) : Reading Database :=
  Database.mk <$> s.required "url" Node.toText <*>
    s.optional "max_connections" Node.toWord32 <*>
    s.optional "min_connections" Node.toWord32 <*>
    s.optional "connect_timeout" Node.toWord64 <*>
    s.optional "idle_timeout" Node.toWord64 <*>
    s.defaulted "sqlx_logging" false (.ofConversion Node.toFlag)

def hubLayout : Layout :=
  ⟨"HubSettings",
    ["hub_url", "callback_url", "secret", "default_lease_seconds", "max_lease_seconds",
      "request_timeout_secs"]⟩

def HubAccess.ofSection (s : Section) : Reading HubAccess :=
  HubAccess.mk <$> s.required "hub_url" Node.toText <*>
    s.required "callback_url" Node.toText <*>
    s.defaulted "secret" "" (.ofConversion Node.toText) <*>
    s.required "default_lease_seconds" Node.toInteger <*>
    s.required "max_lease_seconds" Node.toInteger <*>
    s.required "request_timeout_secs" Node.toWord64

def renewalLayout : Layout :=
  ⟨"RenewalSettings",
    ["enabled", "interval_secs", "lookahead_hours", "batch_size", "concurrency"]⟩

def Renewal.ofSection (s : Section) : Reading Renewal :=
  let renewal enabled interval lookahead batch width : Renewal :=
    ⟨enabled, interval, lookahead, batch, width⟩
  renewal <$> s.required "enabled" Node.toFlag <*>
    s.required "interval_secs" Node.toWord64 <*>
    s.required "lookahead_hours" Node.toInteger <*>
    s.required "batch_size" Node.toWord64 <*>
    s.required "concurrency" Node.toWord64

def metricsLayout : Layout := ⟨"MetricsSettings", ["enabled", "listen_addr"]⟩

def Export.ofSection (s : Section) : Reading Export :=
  Export.mk <$> s.required "enabled" Node.toFlag <*> s.required "listen_addr" Node.toText

/-- A name by itself, or as the only key of a table. -/
def LogFormat.ofNode (key : String) (n : Node) : Reading LogFormat :=
  let chosen (name : String) : Reading LogFormat :=
    match LogFormat.ofName? name with
    | some f => .ok f
    | none => .error (.unsuited (.choice "LogFormat" name) key)
  match n with
  | .scalar _ (.text name) => chosen name
  | .table _ [(name, _)] => chosen name
  | _ => .error (.unsuited (.shape "LogFormat") key)

def loggingLayout : Layout := ⟨"LoggingSettings", ["format"]⟩

def LogFormat.ofSection (s : Section) : Reading LogFormat :=
  s.defaulted "format" .pretty LogFormat.ofNode

/-! ## Everything -/

def readSection {α : Type} (root : Node) (key : String) (layout : Layout)
    (read : Section → Reading α) : Reading α :=
  match root.entries.lookup key with
  | none => .error (.missing key)
  | some n =>
    match Section.ofNode layout key n with
    | .ok s => read s
    | .error e => .error e

def ofNode (root : Node) : Reading Settings :=
  Settings.mk <$> readSection root "server" serverLayout Server.ofSection <*>
    readSection root "database" databaseLayout Database.ofSection <*>
    readSection root "hub" hubLayout HubAccess.ofSection <*>
    readSection root "renewal" renewalLayout Renewal.ofSection <*>
    readSection root "metrics" metricsLayout Export.ofSection <*>
    readSection root "logging" loggingLayout LogFormat.ofSection

/-- The file of the environment has this name if no variable says otherwise. -/
def environmentName (vars : Environment) : String := (vars.lookup "APP_ENVIRONMENT").getD "default"

/-- What a file sets; a file that is not there sets nothing. -/
def fileSource (formats : List FileFormat) (d : Directory) (name : String) : Except Error Source :=
  match d.find? formats name with
  | none => .ok []
  | some document =>
    match document.source? with
    | some source => .ok source
    | none => .error (.unreadable document.uri)

def layers (formats : List FileFormat) (d : Directory) (vars : Environment) :
    Except Error (List Source) := do
  let base ← fileSource formats d "default"
  let special ← fileSource formats d (environmentName vars)
  return [builtIn, base, special, vars.source]

/-- The settings that the files and the environment come to, with files in these formats. -/
def load (d : Directory) (vars : Environment) (formats : List FileFormat := FileFormat.known) :
    Except Error Settings := do
  ofNode (Source.combined (← layers formats d vars))

end WebSub.Settings
