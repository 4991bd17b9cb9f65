import ArchLang.Scenario
import ArchLang.Span

/-!
# Declarations

The top-level constructs of the language as they are written, before anything is merged or
resolved.  Every text carries the span it was read from.  Single and block forms stay apart, the
same entity may be declared any number of times, and a service keeps its property lines in order.

* `Declaration` is one construct; a source file is a list of them.
* `ModifierDecl.span`, `NodeDecl.span` and `ComponentDecl.span` are the spans of records that hold
  none of their own: the least span over their texts.
-/

namespace ArchLang

/-- A text with the span it was read from. -/
abbrev Text := Located String

/-- `user Customer`; the kind stays as it was written. -/
structure ActorDecl where
  kind : Text
  name : Text
  deriving DecidableEq, Repr

/-- A domain and its sub-domains. -/
structure DomainDecl where
  name : Text
  subDomains : List Text
  deriving DecidableEq, Repr

/-- `10% -> staging`; the percentage keeps its sign. -/
structure RuleDecl where
  percentage : Text
  target : Text
  deriving DecidableEq, Repr

/-- A deployment kind with its rules, if it has any. -/
structure DeploymentDecl where
  kind : Text
  rules : List RuleDecl
  deriving DecidableEq, Repr

/-- One property line of a service. -/
inductive PropertyDecl where
  | domains (names : List Text)
  | dataStores (names : List Text)
  | language (name : Text)
  | deployment (deployment : DeploymentDecl)
  deriving DecidableEq, Repr

/-- A service and its property lines; a property may come more than once. -/
structure ServiceDecl where
  name : Text
  properties : List PropertyDecl
  deriving DecidableEq, Repr

/-- Whom something is exposed to (`to`), what is exposed (`of`), and by which gateways
(`through`). -/
structure ExposureDecl where
  name : Text
  audience : List Text
  exposed : List Text
  gateways : List Text
  deriving DecidableEq, Repr

/-- `key` or `key: value`. -/
structure ModifierDecl where
  key : Text
  value : Option Text
  deriving DecidableEq, Repr

/-- A node of an architecture with its modifiers. -/
structure NodeDecl where
  name : Text
  modifiers : List ModifierDecl
  deriving DecidableEq, Repr

/-- One node, or nodes chained by `>`. -/
structure ComponentDecl where
  chain : List NodeDecl
  deriving DecidableEq, Repr

/-- The layers of an architecture. -/
structure ArchDecl where
  name : Option Text
  presentation : List ComponentDecl
  gateway : List ComponentDecl
  deriving DecidableEq, Repr

/-- A trigger line and the action lines below it. -/
structure ScenarioDecl where
  trigger : Located (Trigger (List String))
  actions : List (Located (Action (List String)))
  deriving DecidableEq, Repr

/-- A named group of scenarios. -/
structure UseCaseDecl where
  name : Text
  scenarios : List ScenarioDecl
  deriving DecidableEq, Repr

/-- One top-level construct. -/
inductive Declaration where
  | actor (decl : ActorDecl)
  | actors (decls : List ActorDecl)
  | domain (decl : DomainDecl)
  | domains (decls : List DomainDecl)
  | service (decl : ServiceDecl)
  | services (decls : List ServiceDecl)
  | exposure (decl : ExposureDecl)
  | arch (decl : ArchDecl)
  | useCase (decl : UseCaseDecl)
  deriving DecidableEq, Repr

/-- From the key to the end of the value. -/
def ModifierDecl.span (m : ModifierDecl) : Span :=
  match m.value with
  | some value => m.key.span.union value.span
  | none => m.key.span

/-- The least span over the name and the modifiers. -/
def NodeDecl.span (n : NodeDecl) : Span :=
  (n.modifiers.map ModifierDecl.span).foldl Span.union n.name.span

/-- The least span over the nodes. -/
def ComponentDecl.span (c : ComponentDecl) : Span :=
  (Span.unionAll? (c.chain.map NodeDecl.span)).getD .origin

end ArchLang
