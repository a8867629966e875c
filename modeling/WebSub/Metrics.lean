import WebSub.Text.SocketAddress

/-!
# Metrics

Counters and samples by name and labels, and what is logged when the exporter is set up.
-/

namespace WebSub

/-- One of the quantities that are counted: a name with labels in alphabetical order. -/
structure Metric where
  name : String
  labels : List (String × String)
deriving DecidableEq, Repr

namespace Metric

/-- The name, with the labels in braces if there are any. -/
def toText (m : Metric) : String :=
  match m.labels with
  | [] => m.name
  | labels =>
    m.name ++ "\x7b" ++ ",".intercalate (labels.map fun (k, v) => k ++ "=" ++ v) ++ "\x7d"

def labelled (name result : String) : Metric := ⟨name, [("result", result)]⟩

end Metric

/-- What setting up the exporter comes to. -/
inductive ExporterStart where
  | disabled
  | invalidAddress (text : String)
  | addressInUse
deriving DecidableEq, Repr

namespace ExporterStart

/-- The outcome on a host where every address is taken. -/
def attempt (enabled : Bool) (address : String) : ExporterStart :=
  if enabled = false then .disabled
  else if SocketAddress.isValid address then .addressInUse
  else .invalidAddress address

def level : ExporterStart → String
  | .disabled => "INFO"
  | _ => "WARN"

def message : ExporterStart → String
  | .disabled => "Metrics exporter disabled"
  | .invalidAddress text => "Invalid metrics address " ++ text ++ ": invalid socket address syntax"
  | .addressInUse =>
    "Failed to install Prometheus recorder: failed to create HTTP listener: " ++
      "Address already in use (os error 98). This might happen if the port is already in use."

end ExporterStart

end WebSub
