import ArchLang.Model.Architecture
import ArchLang.Model.Entity
import ArchLang.Model.Flow
import ArchLang.Model.Service
import ArchLang.Model.UseCase
import ArchLang.Ordered.Map

/-!
# The model

A `Model` is all that is known of a program: its entities, its use cases, the flow of every
scenario, and how events and services connect.

* `domain?`, `service?`, `flow?` find an entity by name, `ownerOf?` the first service that owns a
  domain.
* `nodes`, `scenarios`, `steps` list the parts of architectures and use cases.
-/

namespace ArchLang

/-- A compiled program. -/
structure Model where
  actors : List Actor
  domains : List Domain
  services : List Service
  exposures : List Exposure
  architectures : List Architecture
  useCases : List UseCase
  flows : List Flow
  subscriptions : List Subscription
  /-- the domain that publishes each event -/
  publishers : OrderedMap String String
  dependencies : List Dependency
  deriving DecidableEq, Repr

namespace Model

/-- The first domain with this name. -/
def domain? (m : Model) (name : String) : Option Domain :=
  m.domains.find? fun d => d.name = name

/-- The first service with this name. -/
def service? (m : Model) (name : String) : Option Service :=
  m.services.find? fun s => s.name = name

/-- The first service that owns the domain. -/
def ownerOf? (m : Model) (domain : String) : Option Service :=
  m.services.find? fun s => s.owns domain

/-- The flow of a scenario. -/
def flow? (m : Model) (scenarioId : String) : Option Flow :=
  m.flows.find? fun f => f.scenarioId = scenarioId

/-- The components of every architecture, presentation before gateway. -/
def components (m : Model) : List Component :=
  m.architectures.flatMap fun a => a.presentation ++ a.gateway

/-- The scenarios of all use cases, each with the name of its use case. -/
def scenarios (m : Model) : List (String × Scenario) :=
  m.useCases.flatMap fun u => u.scenarios.map fun s => (u.name, s)

/-- The steps of all scenarios. -/
def steps (m : Model) : List Step := m.scenarios.flatMap fun s => s.2.steps

/-- The sizes of the ten collections, in the order of the fields. -/
def counts (m : Model) : List Nat :=
  [m.actors.length, m.domains.length, m.services.length, m.exposures.length,
    m.architectures.length, m.useCases.length, m.flows.length, m.subscriptions.length,
    m.publishers.size, m.dependencies.length]

end Model

end ArchLang
