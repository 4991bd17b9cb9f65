import ArchLang.Json
import ArchLang.Model.Basic

/-!
# A model as JSON

Every type of the model has a `toJson`.  Members have a fixed order.  Triggers, actions, components
and endpoints are told apart by their `type` member, and the members of an action follow the
identifier and the description of its step in the same object.

Five members are left out when there is nothing to say: the value of a modifier, the name of an
architecture, the connector of a phrase, and the target of an answer.  The language of a service and
the kind of a deployment are written as null instead.

* `Model.toJson` is the whole model, `Model.jsonText` its text.
-/

namespace ArchLang

open Json

/-- An actor as JSON. -/
def Actor.toJson (a : Actor) : Json := obj [("name", str a.name), ("kind", str a.kind.name)]

/-- A domain as JSON. -/
def Domain.toJson (d : Domain) : Json :=
  obj [("name", str d.name), ("subDomains", strings d.subDomains.toList)]

/-- A deployment rule as JSON. -/
def RolloutRule.toJson (r : RolloutRule) : Json :=
  obj [("percentage", str r.percentage), ("target", str r.target)]

/-- A deployment as JSON. -/
def Deployment.toJson (d : Deployment) : Json :=
  obj [("kind", nullable d.kind?), ("rules", arr (d.rules.map RolloutRule.toJson))]

/-- A service as JSON. -/
def Service.toJson (s : Service) : Json :=
  obj [("name", str s.name), ("domains", strings s.domains.toList),
    ("dataStores", strings s.dataStores.toList), ("language", nullable s.language),
    ("deployment", s.deployment.toJson)]

/-- An exposure as JSON. -/
def Exposure.toJson (e : Exposure) : Json :=
  obj [("name", str e.name), ("to", strings e.audience), ("of", strings e.exposed),
    ("through", strings e.gateways)]

/-- A modifier as JSON. -/
def Modifier.toJson (m : Modifier) : Json :=
  obj (("key", str m.key) :: optionalMember "value" m.value)

/-- The members of a node. -/
def Node.members (n : Node) : List (String × Json) :=
  [("name", str n.name), ("modifiers", arr (n.modifiers.map Modifier.toJson))]

/-- A component as JSON. -/
def Component.toJson : Component → Json
  | .node n => obj (("type", str "node") :: n.members)
  | .flow chain =>
    obj [("type", str "flow"), ("chain", arr (chain.map fun n => obj n.members))]

/-- An architecture as JSON. -/
def Architecture.toJson (a : Architecture) : Json :=
  obj (optionalMember "name" a.name ++
    [("presentation", arr (a.presentation.map Component.toJson)),
      ("gateway", arr (a.gateway.map Component.toJson))])

/-- A trigger as JSON. -/
def Trigger.toJson : Trigger String → Json
  | .external actor verb phrase =>
    obj [("type", str "external"), ("actor", str actor), ("verb", str verb),
      ("phrase", str phrase)]
  | .event e => obj [("type", str "event"), ("event", str e)]
  | .listens domain e =>
    obj [("type", str "domain_listen"), ("domain", str domain), ("event", str e)]

/-- The members of an action. -/
def Action.members : Action String → List (String × Json)
  | .internal domain verb connector phrase =>
    [("type", str "internal"), ("domain", str domain), ("verb", str verb)] ++
      optionalMember "connector" connector ++ [("phrase", str phrase)]
  | .asks domain target connector phrase =>
    [("type", str "sync"), ("domain", str domain), ("target", str target)] ++
      optionalMember "connector" connector ++ [("phrase", str phrase)]
  | .notifies domain event =>
    [("type", str "async"), ("domain", str domain), ("event", str event)]
  | .returns domain target phrase =>
    [("type", str "return"), ("domain", str domain)] ++ optionalMember "target" target ++
      [("phrase", str phrase)]

/-- A step as JSON: identifier and description, then the members of its action. -/
def Step.toJson (s : Step) : Json :=
  obj ([("id", str s.id), ("description", str s.action.description)] ++ s.action.members)

/-- A scenario as JSON. -/
def Scenario.toJson (s : Scenario) : Json :=
  obj [("id", str s.id), ("trigger", s.trigger.toJson), ("actions", arr (s.steps.map Step.toJson))]

/-- A use case as JSON. -/
def UseCase.toJson (u : UseCase) : Json :=
  obj [("name", str u.name), ("scenarios", arr (u.scenarios.map Scenario.toJson))]

/-- An endpoint as JSON. -/
def Endpoint.toJson : Endpoint → Json
  | .actor name => obj [("type", str "actor"), ("name", str name)]
  | .domain name => obj [("type", str "domain"), ("name", str name)]
  | .channel owner => obj [("type", str "channel"), ("name", str owner)]
  | .external => obj [("type", str "external")]

/-- An edge as JSON. -/
def Edge.toJson (e : Edge) : Json :=
  obj [("from", e.source.toJson), ("to", e.target.toJson), ("label", str e.label),
    ("kind", str e.kind.name)]

/-- A flow as JSON. -/
def Flow.toJson (f : Flow) : Json :=
  obj [("useCase", str f.useCase), ("scenarioId", str f.scenarioId),
    ("edges", arr (f.edges.map Edge.toJson)),
    ("visitedDomains", strings f.visitedDomains.toList), ("services", strings f.services.toList)]

/-- An event link as JSON. -/
def Subscription.toJson (l : Subscription) : Json :=
  obj [("event", str l.event), ("publisher", str l.publisher), ("listener", str l.listener),
    ("useCase", str l.useCase), ("scenarioId", str l.scenarioId)]

/-- A service dependency as JSON. -/
def Dependency.toJson (d : Dependency) : Json :=
  obj [("from", str d.source), ("to", str d.target), ("label", str d.label)]

/-- A model as JSON. -/
def Model.toJson (m : Model) : Json :=
  obj [("actors", arr (m.actors.map Actor.toJson)),
    ("domains", arr (m.domains.map Domain.toJson)),
    ("services", arr (m.services.map Service.toJson)),
    ("exposures", arr (m.exposures.map Exposure.toJson)),
    ("architectures", arr (m.architectures.map Architecture.toJson)),
    ("useCases", arr (m.useCases.map UseCase.toJson)),
    ("flows", arr (m.flows.map Flow.toJson)),
    ("eventLinks", arr (m.subscriptions.map Subscription.toJson)),
    ("publishers", obj (m.publishers.entries.map fun p => (p.1, str p.2))),
    ("serviceDependencies", arr (m.dependencies.map Dependency.toJson))]

/-- The JSON text of a model. -/
def Model.jsonText (m : Model) (pretty : Bool) : String := m.toJson.render pretty

end ArchLang
