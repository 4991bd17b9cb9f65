import ArchLang.Scenario

/-!
# Use cases of a model

Triggers and actions with the identifiers that the model gives them.
-/

namespace ArchLang

/-- An action of a model. -/
structure Step where
  id : String
  action : Action String
  deriving DecidableEq, Repr

/-- A trigger and the steps that follow it. -/
structure Scenario where
  id : String
  trigger : Trigger String
  steps : List Step
  deriving DecidableEq, Repr

/-- A named group of scenarios. -/
structure UseCase where
  name : String
  scenarios : List Scenario
  deriving DecidableEq, Repr

end ArchLang
