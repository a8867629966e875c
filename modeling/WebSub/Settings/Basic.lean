import WebSub.Service.Basic
import WebSub.Sweep.Basic

/-!
# Settings

Everything that can be configured, by section, and what the parts of the program take from it.
-/

namespace WebSub

namespace Settings

/-- Where the program listens, and the path that the hub pushes to. -/
structure Server where
  host : String
  port : Nat
  webhookPath : String
deriving DecidableEq, Repr

/-- The database and its pool of connections; times are in seconds. -/
structure Database where
  url : String
  maxConnections : Option Nat
  minConnections : Option Nat
  connectTimeout : Option Nat
  idleTimeout : Option Nat
  logging : Bool
deriving DecidableEq, Repr

/-- The hub and what is asked of it. -/
structure HubAccess where
  hubUrl : String
  callbackUrl : String
  /-- An empty secret turns signatures off. -/
  secret : String
  defaultLeaseSeconds : Int
  maxLeaseSeconds : Int
  requestTimeoutSeconds : Nat
deriving DecidableEq, Repr

namespace HubAccess

def secret? (h : HubAccess) : Option String := if h.secret = "" then none else some h.secret

def defaults (h : HubAccess) : Defaults where
  hubUrl := h.hubUrl
  callbackUrl := h.callbackUrl
  secret := h.secret?
  leaseSeconds := h.defaultLeaseSeconds
  maxLeaseSeconds := min h.maxLeaseSeconds WebSub.maxLeaseSeconds

end HubAccess

/-- Whether subscriptions are renewed in the background, and how. -/
structure Renewal where
  enabled : Bool
  sweep : Sweep.Settings
deriving DecidableEq, Repr

/-- Every hour, whatever runs out within a day. -/
def Renewal.default : Renewal := ⟨true, ⟨3600, 24, 100, 4⟩⟩

/-- Whether metrics are exported, and on which address. -/
structure Export where
  enabled : Bool
  listenAddress : String
deriving DecidableEq, Repr

/-- How log lines are written. -/
inductive LogFormat where
  | pretty
  | json
deriving DecidableEq, Repr

namespace LogFormat

def all : List LogFormat := [pretty, json]

def name : LogFormat → String
  | pretty => "pretty"
  | json => "json"

def ofName? (name : String) : Option LogFormat := all.find? (·.name == name)

end LogFormat

end Settings

structure Settings where
  server : Settings.Server
  database : Settings.Database
  hub : Settings.HubAccess
  renewal : Settings.Renewal
  metrics : Settings.Export
  logFormat : Settings.LogFormat
deriving DecidableEq, Repr

/-- Without a secret, signatures are not checked. -/
def Settings.signatureDisabled (s : Settings) : Bool := s.hub.secret = ""

end WebSub
