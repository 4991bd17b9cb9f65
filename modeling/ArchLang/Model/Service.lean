import ArchLang.Ordered.Set

/-!
# Services and their deployments

A `Service` owns domains and data stores.  Its language is either not set or a text that is not
empty, and its `Deployment` is either not set or a kind with rules; a deployment without a kind has
no rules by construction.

* `Service.setLanguage` takes the empty text for no language.
* `Service.owns` says whether a service lists a domain.
-/

namespace ArchLang

/-- A share of a deployment and where it goes. -/
structure RolloutRule where
  percentage : String
  target : String
  deriving DecidableEq, Repr

/-- A rule as text. -/
def RolloutRule.display (r : RolloutRule) : String := r.percentage ++ " -> " ++ r.target

/-- How a service is rolled out. -/
inductive Deployment where
  /-- nothing was said about it -/
  | unset
  /-- a kind with its rules, in the order in which they were first given -/
  | planned (kind : String) (rules : OrderedSet RolloutRule)
  deriving DecidableEq, Repr

namespace Deployment

/-- The kind, if one was given. -/
def kind? : Deployment → Option String
  | unset => none
  | planned kind _ => some kind

/-- The rules in order. -/
def rules : Deployment → List RolloutRule
  | unset => []
  | planned _ rules => rules.toList

/-- Whether nothing was said. -/
def isUnset : Deployment → Bool
  | unset => true
  | planned .. => false

end Deployment

/-- A deployable unit. -/
structure Service where
  name : String
  domains : OrderedSet String
  dataStores : OrderedSet String
  language : Option String
  deployment : Deployment
  /-- a language that is set is not empty -/
  language_ne : language ≠ some ""
  deriving DecidableEq, Repr

namespace Service

/-- A service of which only the name is known. -/
def named (name : String) : Service :=
  ⟨name, .empty, .empty, none, .unset, nofun⟩

/-- The same service with these domains. -/
def setDomains (s : Service) (domains : List String) : Service :=
  { s with domains := .ofList domains }

/-- The same service with these data stores. -/
def setDataStores (s : Service) (stores : List String) : Service :=
  { s with dataStores := .ofList stores }

/-- The language that a text names; the empty text names none. -/
def languageOf (text : Option String) : Option String := text.filter (· ≠ "")

theorem languageOf_ne (text : Option String) : languageOf text ≠ some "" := by
  cases text with
  | none => exact nofun
  | some t => by_cases h : t = "" <;> simp [languageOf, Option.filter, h]

/-- The same service in this language; the empty text unsets it. -/
def setLanguage (s : Service) (language : Option String) : Service :=
  { s with language := languageOf language, language_ne := languageOf_ne language }

/-- The same service with this deployment. -/
def setDeployment (s : Service) (deployment : Deployment) : Service :=
  { s with deployment := deployment }

/-- Whether the service lists the domain. -/
def owns (s : Service) (domain : String) : Bool := s.domains.contains domain

/-- Services that agree in all they say are the same. -/
@[ext] theorem ext {s t : Service} (name : s.name = t.name) (domains : s.domains = t.domains)
    (stores : s.dataStores = t.dataStores) (language : s.language = t.language)
    (deployment : s.deployment = t.deployment) : s = t := by
  cases s; cases t; simp_all

end Service

end ArchLang
