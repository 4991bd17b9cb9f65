import ArchLang.Assembly.Merge
import ArchLang.Declaration
import ArchLang.Model.Basic
import ArchLang.Text.Joining

/-!
# From declarations to entities

Each declaration stands for entities of one kind.  A program is therefore six lists, one for each
kind, in which source order is kept; single and block forms make the same entities.  Domains and
services are not merged yet.

Scenarios and actions draw their identifiers from one counter that runs through the use cases in
source order: a scenario draws before its actions.

* `Entities.ofDeclarations` splits a program.
* `Service.ofDecl` folds the property lines of one block.
* `UseCase.numbered` gives the identifiers.
-/

namespace ArchLang

/-- The plain texts of located ones. -/
def plainTexts (texts : List Text) : List String := texts.map (·.value)

/-! ## Entities without identifiers -/

/-- A kind that is not known counts as a user. -/
def Actor.ofDecl (d : ActorDecl) : Actor :=
  ⟨d.name.value, (ActorKind.ofKeyword? d.kind.value).getD .user⟩

/-- The domain of a declaration. -/
def Domain.ofDecl (d : DomainDecl) : Domain := ⟨d.name.value, .ofList (plainTexts d.subDomains)⟩

/-- The deployment of a property line. -/
def Deployment.ofDecl (d : DeploymentDecl) : Deployment :=
  .planned d.kind.value (.ofList (d.rules.map fun r => ⟨r.percentage.value, r.target.value⟩))

/-- The service of which nothing but one property line is known. -/
def Service.ofProperty (name : String) : PropertyDecl → Service
  | .domains names => (Service.named name).setDomains (plainTexts names)
  | .dataStores names => (Service.named name).setDataStores (plainTexts names)
  | .language text => (Service.named name).setLanguage (some text.value)
  | .deployment d => (Service.named name).setDeployment (.ofDecl d)

/-- The property lines of a block, merged in order; the first value wins. -/
def Service.ofDecl (d : ServiceDecl) : Service :=
  d.properties.foldl (fun s p => s.merge .firstWins (.ofProperty d.name.value p))
    (.named d.name.value)

/-- The exposure of a declaration. -/
def Exposure.ofDecl (d : ExposureDecl) : Exposure :=
  ⟨d.name.value, plainTexts d.audience, plainTexts d.exposed, plainTexts d.gateways⟩

/-- The node of a declaration. -/
def Node.ofDecl (d : NodeDecl) : Node :=
  ⟨d.name.value, d.modifiers.map fun m => ⟨m.key.value, m.value.map (·.value)⟩⟩

/-- The component of a declaration, if it has nodes. -/
def Component.ofDecl? (d : ComponentDecl) : Option Component :=
  Component.ofChain? (d.chain.map Node.ofDecl)

/-- The architecture of a declaration. -/
def Architecture.ofDecl (d : ArchDecl) : Architecture :=
  ⟨d.name.map (·.value), d.presentation.filterMap Component.ofDecl?,
    d.gateway.filterMap Component.ofDecl?⟩

/-! ## Use cases and their identifiers -/

/-- A connector that is empty is none. -/
def dropEmptyConnector {π : Type} : Action π → Action π
  | .internal d v c p => .internal d v (c.filter (· ≠ "")) p
  | .asks d t c p => .asks d t (c.filter (· ≠ "")) p
  | .notifies d e => .notifies d e
  | .returns d t p => .returns d t p

/-- The action of a line: its phrase is one text. -/
def Action.ofWords (a : Action (List String)) : Action String :=
  (dropEmptyConnector a).mapPhrase joinPhrase

/-- The identifier of a scenario that draws the number `n`. -/
def scenarioId (n : Nat) : String := "scenario_" ++ toString n

/-- The identifier of an action that draws the number `n`. -/
def actionId (n : Nat) : String := "action_" ++ toString n

/-- Steps that draw the numbers from `n` on. -/
def stepsFrom (n : Nat) : List (Action (List String)) → List Step
  | [] => []
  | a :: rest => ⟨actionId n, .ofWords a⟩ :: stepsFrom (n + 1) rest

/-- A scenario that draws the number `n`, and its steps the ones behind. -/
def Scenario.numbered (n : Nat) (d : ScenarioDecl) : Scenario :=
  ⟨scenarioId n, d.trigger.value.mapPhrase joinPhrase,
    stepsFrom (n + 1) (d.actions.map (·.value))⟩

/-- How many numbers a scenario draws. -/
def ScenarioDecl.draws (d : ScenarioDecl) : Nat := d.actions.length + 1

/-- Scenarios that draw the numbers from `n` on. -/
def scenariosFrom (n : Nat) : List ScenarioDecl → List Scenario
  | [] => []
  | d :: rest => .numbered n d :: scenariosFrom (n + d.draws) rest

/-- How many numbers a use case draws. -/
def UseCaseDecl.draws (d : UseCaseDecl) : Nat :=
  d.scenarios.foldr (fun s n => s.draws + n) 0

/-- A use case that draws the numbers from `n` on. -/
def UseCase.numbered (n : Nat) (d : UseCaseDecl) : UseCase :=
  ⟨d.name.value, scenariosFrom n d.scenarios⟩

/-- Use cases that draw the numbers from `n` on. -/
def useCasesFrom (n : Nat) : List UseCaseDecl → List UseCase
  | [] => []
  | d :: rest => .numbered n d :: useCasesFrom (n + d.draws) rest

/-! ## The six lists of a program -/

namespace Declaration

/-- The actors that a declaration stands for. -/
def actorDecls : Declaration → List ActorDecl
  | actor d => [d]
  | actors ds => ds
  | _ => []

/-- The domains that a declaration stands for. -/
def domainDecls : Declaration → List DomainDecl
  | domain d => [d]
  | domains ds => ds
  | _ => []

/-- The services that a declaration stands for. -/
def serviceDecls : Declaration → List ServiceDecl
  | service d => [d]
  | services ds => ds
  | _ => []

/-- The exposures that a declaration stands for. -/
def exposureDecls : Declaration → List ExposureDecl
  | exposure d => [d]
  | _ => []

/-- The architectures that a declaration stands for. -/
def archDecls : Declaration → List ArchDecl
  | arch d => [d]
  | _ => []

/-- The use cases that a declaration stands for. -/
def useCaseDecls : Declaration → List UseCaseDecl
  | useCase d => [d]
  | _ => []

end Declaration

/-- The entities of a program, each kind in source order. -/
structure Entities where
  actors : List Actor
  domains : List Domain
  services : List Service
  exposures : List Exposure
  architectures : List Architecture
  useCases : List UseCase
  deriving DecidableEq, Repr

/-- Split a program into its entities; the counter starts at one. -/
def Entities.ofDeclarations (ds : List Declaration) : Entities where
  actors := (ds.flatMap Declaration.actorDecls).map Actor.ofDecl
  domains := (ds.flatMap Declaration.domainDecls).map Domain.ofDecl
  services := (ds.flatMap Declaration.serviceDecls).map Service.ofDecl
  exposures := (ds.flatMap Declaration.exposureDecls).map Exposure.ofDecl
  architectures := (ds.flatMap Declaration.archDecls).map Architecture.ofDecl
  useCases := useCasesFrom 1 (ds.flatMap Declaration.useCaseDecls)

end ArchLang
