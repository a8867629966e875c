import WebSub.Flow.Request

/-!
# Scripts

What the surroundings of a simulated subscriber do: how the hub answers, which store calls fail,
and whether notifications can be handed on.
-/

namespace WebSub.Simulation

/-- How the hub takes one call. -/
structure Reply where
  result : Hub.Result
  /-- The call waits for a release. -/
  blocks : Bool
  /-- The call sets off the shutdown. -/
  stops : Bool
  /-- There is never an answer. -/
  hangs : Bool

namespace Reply

def accepting : Reply := ⟨.ok ⟨true, 202, none⟩, false, false, false⟩

end Reply

/-- The replies to come: by topic, or else in a row, or else always the same. -/
structure HubScript where
  topics : List (String × Reply) := []
  queue : List Reply := []
  default : Reply := .accepting

namespace HubScript

def next (s : HubScript) (topicUrl : String) : Reply × HubScript :=
  match s.topics.find? (·.1 == topicUrl), s.queue with
  | some (_, reply), _ => (reply, s)
  | none, reply :: queue => (reply, { s with queue })
  | none, [] => (s.default, s)

/-- Gives a topic a reply of its own, or takes it away. -/
def setTopic (s : HubScript) (topicUrl : String) (reply : Option Reply) : HubScript :=
  let others := s.topics.filter (·.1 != topicUrl)
  { s with topics := others ++ (reply.map fun r => (topicUrl, r)).toList }

end HubScript

abbrev Faults := List (String × Store.Error)

def Faults.find? (faults : Faults) (name : String) : Option Store.Error :=
  (List.find? (·.1 == name) faults).map (·.2)

end WebSub.Simulation
