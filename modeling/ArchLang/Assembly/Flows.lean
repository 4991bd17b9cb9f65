import ArchLang.Model.Basic
import ArchLang.Text.Joining

/-!
# From scenarios to flows

A scenario becomes a list of edges.  An answer without a target goes to the most recent call that
still waits for one, and a stack of waiting callers says who that is: a call pushes its caller, an
answer without a target pops one, and nothing else touches the stack.  At the bottom waits the actor
of an external trigger.  When nobody waits the answer leaves the system, and callers that are still
waiting at the end are forgotten.

* `edgesFrom` walks the actions with the stack, `callersLeft` says who waits behind them.
* `visitedBy` lists the domains that an action touches.
* `Ownership` maps a domain to the first service that lists it.
* `Flow.ofScenario` makes the flow of one scenario, `flowsOf` those of all.
-/

namespace ArchLang

/-! ## Who owns a domain -/

/-- The owner of each domain: the first service that lists it. -/
abbrev Ownership := OrderedMap String String

/-- Who owns what among these services. -/
def Ownership.ofServices (services : List Service) : Ownership :=
  OrderedMap.gather (fun owner _ => owner)
    (services.flatMap fun s => s.domains.toList.map fun domain => (domain, s.name))

/-- The service that owns a domain. -/
def Ownership.owner? (owners : Ownership) (domain : String) : Option String :=
  owners.get? domain

/-! ## Edges -/

/-- Who waits before the first action: the actor of an external trigger. -/
def callersOf {π : Type} : Trigger π → List Endpoint
  | .external actor _ _ => [.actor actor]
  | _ => []

/-- Who waits after an action, the most recent caller first. -/
def callersAfter {π : Type} (callers : List Endpoint) : Action π → List Endpoint
  | .asks domain .. => .domain domain :: callers
  | .returns _ none _ => callers.tail
  | _ => callers

/-- Who still waits behind a list of actions. -/
def callersLeft {π : Type} (callers : List Endpoint) (actions : List (Action π)) : List Endpoint :=
  actions.foldl callersAfter callers

/-- The edge of an action, when `callers` wait: internal work has none. -/
def edgeOf? (callers : List Endpoint) : Action String → Option Edge
  | .internal .. => none
  | .asks domain target connector phrase =>
    some ⟨.domain domain, .domain target, joinParts [connector.getD "", phrase], .sync⟩
  | .notifies domain event => some ⟨.domain domain, .channel domain, event, .async⟩
  | .returns domain (some target) phrase => some ⟨.domain domain, .domain target, phrase, .reply⟩
  | .returns domain none phrase =>
    some ⟨.domain domain, callers.headD .external, phrase, .reply⟩

/-- The edges of a list of actions, when `callers` wait before the first. -/
def edgesFrom (callers : List Endpoint) : List (Action String) → List Edge
  | [] => []
  | a :: rest => (edgeOf? callers a).toList ++ edgesFrom (callersAfter callers a) rest

/-- The edge of a trigger: an actor reaches the domain that acts first. -/
def triggerEdges (actions : List (Action String)) : Trigger String → List Edge
  | .external actor verb phrase =>
    match actions with
    | [] => []
    | first :: _ => [⟨.actor actor, .domain first.domain, joinParts [verb, phrase], .trigger⟩]
  | _ => []

/-! ## Domains and services -/

/-- The domains that an action touches: the one that acts, then the one it names. -/
def visitedBy {π : Type} : Action π → List String
  | .internal domain .. => [domain]
  | .asks domain target .. => [domain, target]
  | .notifies domain _ => [domain]
  | .returns domain target _ => domain :: target.toList

/-- The domain that a trigger touches: the one that listens. -/
def visitedFirst {π : Type} : Trigger π → List String
  | .listens domain _ => [domain]
  | _ => []

/-- The actions of a scenario. -/
def Scenario.actions (s : Scenario) : List (Action String) := s.steps.map (·.action)

/-- The domains that a scenario visits. -/
def Scenario.visited (s : Scenario) : OrderedSet String :=
  .ofList (visitedFirst s.trigger ++ s.actions.flatMap visitedBy)

/-- The flow of a scenario. -/
def Flow.ofScenario (owners : Ownership) (useCase : String) (s : Scenario) : Flow where
  useCase := useCase
  scenarioId := s.id
  edges := triggerEdges s.actions s.trigger ++ edgesFrom (callersOf s.trigger) s.actions
  visitedDomains := s.visited
  services := .ofList (s.visited.toList.filterMap owners.owner?)

/-- The dependency of an action: a call whose two domains have different owners. -/
def dependencyOf? (owners : Ownership) : Action String → Option Dependency
  | .asks domain target _ phrase =>
    match owners.owner? domain, owners.owner? target with
    | some caller, some callee => if caller = callee then none else some ⟨caller, callee, phrase⟩
    | _, _ => none
  | _ => none

/-! ## All use cases -/

/-- The flows of all scenarios, in source order. -/
def flowsOf (owners : Ownership) (useCases : List UseCase) : List Flow :=
  useCases.flatMap fun u => u.scenarios.map (Flow.ofScenario owners u.name)

/-- The dependencies between services, each where it was first met. -/
def dependenciesOf (owners : Ownership) (useCases : List UseCase) :
    OrderedSet Dependency :=
  .ofList (useCases.flatMap fun u => u.scenarios.flatMap fun s =>
    s.actions.filterMap (dependencyOf? owners))

end ArchLang
