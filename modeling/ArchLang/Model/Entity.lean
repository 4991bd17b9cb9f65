import ArchLang.Ordered.Set

/-!
# Actors, domains and exposures

The entities of a model that are little more than names.
-/

namespace ArchLang

/-- The kinds of actors. -/
inductive ActorKind where
  | user
  | system
  | service
  deriving DecidableEq, Repr

namespace ActorKind

/-- The keyword of a kind. -/
def name : ActorKind → String
  | user => "user"
  | system => "system"
  | service => "service"

/-- The kind with this keyword; the case of letters matters. -/
def ofKeyword? (text : String) : Option ActorKind :=
  if text = "user" then some user
  else if text = "system" then some system
  else if text = "service" then some service
  else none

theorem ofKeyword?_name (kind : ActorKind) : ofKeyword? kind.name = some kind := by
  cases kind <;> rfl

end ActorKind

/-- Somebody or something outside the domains that starts scenarios. -/
structure Actor where
  name : String
  kind : ActorKind
  deriving DecidableEq, Repr

/-- A domain with its sub-domains, in the order in which they were first named. -/
structure Domain where
  name : String
  subDomains : OrderedSet String
  deriving DecidableEq, Repr

/-- Whom something is exposed to, what is exposed, and by which gateways; names may repeat. -/
structure Exposure where
  name : String
  audience : List String
  exposed : List String
  gateways : List String
  deriving DecidableEq, Repr

end ArchLang
