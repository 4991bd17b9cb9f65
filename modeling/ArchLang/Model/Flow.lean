import ArchLang.Ordered.Set
import ArchLang.Text.Lowercase

/-!
# Flows

The resolved form of a scenario: edges between actors, domains, the channels on which domains
publish, and the outside.

* `Edge.display` and `Endpoint.display` are the texts of a listing.
* `Flow.prepend` puts an edge before all others.
* `Subscription` says who hears whose event, `Dependency` which service calls which.
-/

namespace ArchLang

/-- The name of the channel of a domain: lower case, `_` for spaces, and `_queue` behind. -/
def channelOf (domain : String) : String :=
  String.ofList ((lowercase domain).toList.map fun c => if c = ' ' then '_' else c) ++ "_queue"

/-- Where an edge starts or ends. -/
inductive Endpoint where
  | actor (name : String)
  | domain (name : String)
  /-- the channel on which a domain publishes -/
  | channel (owner : String)
  | external
  deriving DecidableEq, Repr

namespace Endpoint

/-- The domain, if the endpoint is one. -/
def domain? : Endpoint → Option String
  | domain name => some name
  | _ => none

/-- The endpoint as text. -/
def display : Endpoint → String
  | actor name => name
  | domain name => name
  | channel owner => channelOf owner
  | external => "External"

end Endpoint

/-- What an edge stands for. -/
inductive EdgeKind where
  | trigger
  | sync
  | async
  | reply
  | listen
  deriving DecidableEq, Repr

namespace EdgeKind

/-- The word for a kind. -/
def name : EdgeKind → String
  | trigger => "trigger"
  | sync => "sync"
  | async => "async"
  | reply => "return"
  | listen => "listen"

/-- The kind with this word. -/
def ofName? (text : String) : Option EdgeKind :=
  [trigger, sync, async, reply, listen].find? fun kind => kind.name = text

theorem ofName?_name (kind : EdgeKind) : ofName? kind.name = some kind := by
  cases kind <;> decide

end EdgeKind

/-- One step of a flow. -/
structure Edge where
  source : Endpoint
  target : Endpoint
  label : String
  kind : EdgeKind
  deriving DecidableEq, Repr

/-- An edge as text; an empty label leaves no trace. -/
def Edge.display (e : Edge) : String :=
  let ends := e.source.display ++ " -> " ++ e.target.display
  if e.label = "" then ends else ends ++ ": " ++ e.label

/-- The edges of a scenario, with the domains it visits and the services that own them, each in the
order in which they were first met. -/
structure Flow where
  useCase : String
  scenarioId : String
  edges : List Edge
  visitedDomains : OrderedSet String
  services : OrderedSet String
  deriving DecidableEq, Repr

/-- The flow with one more edge before all others. -/
def Flow.prepend (f : Flow) (e : Edge) : Flow :=
  { f with edges := e :: f.edges }

/-- A scenario that listens to an event, and the domain that publishes it. -/
structure Subscription where
  event : String
  publisher : String
  listener : String
  useCase : String
  scenarioId : String
  deriving DecidableEq, Repr

/-- A call from a domain of one service to a domain of another. -/
structure Dependency where
  source : String
  target : String
  label : String
  deriving DecidableEq, Repr

end ArchLang
