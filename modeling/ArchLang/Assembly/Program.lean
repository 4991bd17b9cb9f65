import ArchLang.Assembly.Events
import ArchLang.Assembly.Entities
import ArchLang.Grammar.Program
import ArchLang.Token.Lexer

/-!
# Assembling a program

`Model.ofDeclarations` makes the model of a list of declarations: it splits them into entities,
merges entities of one name, gives every scenario its flow, and links listeners to publishers.  It
cannot fail, since every conflict is settled by a policy.  `Model.ofSource` does the same for a
source text, which may have faults.

* `Model.useCases_ofDeclarations` ties the use cases of the model to the declarations.
* `Model.AssembledFrom` says what the parts that are linked together are made of.
-/

namespace ArchLang

/-- The policies of an assembly. -/
structure Policies where
  /-- settles conflicts between declarations of one service -/
  merge : ConflictPolicy := .firstWins
  /-- settles events that several domains publish -/
  publishers : ConflictPolicy := .lastWins
  deriving DecidableEq, Repr

/-- The model of a list of declarations. -/
def Model.ofDeclarations (policies : Policies) (declarations : List Declaration) : Model :=
  let entities := Entities.ofDeclarations declarations
  let services := Service.mergeAll policies.merge entities.services
  let owners := Ownership.ofServices services
  let publishers := publishersOf policies.publishers entities.useCases
  let subscriptions := subscriptionsOf publishers entities.useCases
  { actors := entities.actors
    domains := Domain.mergeAll entities.domains
    services := services
    exposures := entities.exposures
    architectures := entities.architectures
    useCases := entities.useCases
    flows := (flowsOf owners entities.useCases).map (Flow.withListener subscriptions)
    subscriptions := subscriptions
    publishers := publishers
    dependencies := (dependenciesOf owners entities.useCases).toList }

namespace Model

/-- The use cases of an assembled model are those of the declarations in source order, numbered from
one on. -/
theorem useCases_ofDeclarations (policies : Policies) (declarations : List Declaration) :
    (ofDeclarations policies declarations).useCases
      = useCasesFrom 1 (declarations.flatMap Declaration.useCaseDecls) := rfl

/-- What the linked parts of a model are made of when it is assembled from declarations. -/
structure AssembledFrom (policies : Policies) (declarations : List Declaration) (m : Model) :
    Prop where
  /-- the use cases of the declarations, and no others -/
  useCases : m.useCases = useCasesFrom 1 (declarations.flatMap Declaration.useCaseDecls)
  /-- whom the policy picks among those who notify -/
  publishers : m.publishers = publishersOf policies.publishers m.useCases
  /-- the links of the listeners to these -/
  subscriptions : m.subscriptions = subscriptionsOf m.publishers m.useCases
  /-- the flows of all scenarios, each with the edge of its listener -/
  flows : m.flows = (flowsOf (.ofServices m.services) m.useCases).map
    (Flow.withListener m.subscriptions)
  /-- the calls between the owners of different domains -/
  dependencies : m.dependencies = (dependenciesOf (.ofServices m.services) m.useCases).toList

theorem assembledFrom_ofDeclarations (policies : Policies) (declarations : List Declaration) :
    (ofDeclarations policies declarations).AssembledFrom policies declarations where
  useCases := useCases_ofDeclarations policies declarations
  publishers := rfl
  subscriptions := rfl
  flows := rfl
  dependencies := rfl

end Model

/-- Read the declarations of a source text. -/
def declarationsOf (source : String) : Except Rejection (List (Located Declaration)) :=
  match tokensOf source with
  | .error e => .error e
  | .ok tokens =>
    match declarationsOfTokens tokens with
    | .error d => .error ⟨[d]⟩
    | .ok found => .ok found

/-- The model of a source text. -/
def Model.ofSource (policies : Policies) (source : String) : Except Rejection Model :=
  match declarationsOf source with
  | .error e => .error e
  | .ok found => .ok (.ofDeclarations policies (found.map (·.value)))

end ArchLang
