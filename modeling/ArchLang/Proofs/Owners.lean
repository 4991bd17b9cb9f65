import ArchLang.Proofs.Listeners
import ArchLang.Proofs.ServiceMerge
import Mathlib.Data.List.Basic
import Mathlib.Tactic.Common

/-!
# Who owns a domain

Two look-ups answer that question.  Scenarios are resolved with an `Ownership`, a map that is filled
before the model exists and keeps the first owner of each domain.  A model is asked with
`Model.ownerOf?`, which searches its services.  Several services may list one domain, so both must
pick the same one.

**The look-ups agree.**  The first entry of a key is the value that its map keeps
(`combineAll?_first`), and a service enters its name for a domain exactly if it owns it
(`head?_valuesOf_owned`).  Hence `owner?_ofServices`.

**What is built from it.**  `OwnedAsAsked m` says of the services of every flow and of the
dependencies that they are what the model itself answers, domain by domain and call by call, and
draws the consequences: both name services of the model, and a dependency connects two of them and
comes once.

* **`ownedAsAsked_ofDeclarations`** — every assembled model is so.
-/

namespace ArchLang

/-! ## The two look-ups agree -/

section Lists

variable {α β κ ν : Type}

/-- A rule that keeps the old value keeps the first of all. -/
lemma combineAll?_first (vs : List ν) : combineAll? (fun old _ => old) vs = vs.head? :=
  ConflictPolicy.combineAll?_choose .firstWins vs

lemma valuesOf_flatMap [DecidableEq κ] (k : κ) (g : α → List (κ × ν)) (xs : List α) :
    OrderedMap.valuesOf k (xs.flatMap g) = xs.flatMap fun x => OrderedMap.valuesOf k (g x) := by
  rw [OrderedMap.valuesOf, List.filter_flatMap, List.map_flatMap]
  rfl

/-- The first of the results is the result for the first that has one. -/
lemma head?_filterMap_ite (p : α → Bool) (f : α → β) (xs : List α) :
    (xs.filterMap fun x => if p x then some (f x) else none).head? = (xs.find? p).map f := by
  induction xs with
  | nil => rfl
  | cons x xs ih =>
      cases hx : p x with
      | true => simp [hx]
      | false => simpa [hx] using ih

end Lists

/-- A service enters its name for the domains that it owns and for no others. -/
lemma head?_valuesOf_owned (domain : String) (s : Service) :
    (OrderedMap.valuesOf domain (s.domains.toList.map fun d => (d, s.name))).head?
      = if s.owns domain then some s.name else none := by
  simp only [OrderedMap.valuesOf, List.filter_map, List.map_map, Function.comp_def, List.map_const',
    Service.owns, OrderedSet.contains_eq_true]
  by_cases hmem : domain ∈ s.domains.toList
  · have hpos : (s.domains.toList.filter fun d => decide (d = domain)) ≠ [] :=
      List.ne_nil_of_mem (List.mem_filter.2 ⟨hmem, by simp⟩)
    rw [if_pos hmem, List.head?_replicate, if_neg (by simpa using hpos)]
  · have hnone : (s.domains.toList.filter fun d => decide (d = domain)) = [] := by
      simp only [List.filter_eq_nil_iff, decide_eq_true_eq]
      rintro d hd rfl
      exact hmem hd
    rw [if_neg hmem, hnone]
    rfl

/-- **The first entry is the first service.**  The map answers as a search among the services. -/
theorem owner?_ofServices (services : List Service) (domain : String) :
    (Ownership.ofServices services).owner? domain
      = (services.find? fun s => s.owns domain).map Service.name := by
  rw [Ownership.owner?, Ownership.ofServices, OrderedMap.get?_gather, combineAll?_first,
    valuesOf_flatMap, head?_flatMap_eq]
  simp only [head?_valuesOf_owned]
  exact head?_filterMap_ite (fun s => s.owns domain) Service.name services

/-! ## What a model answers -/

namespace Model

/-- The name of the first service that owns the domain. -/
def ownerName? (m : Model) (domain : String) : Option String := (m.ownerOf? domain).map Service.name

/-- The dependency of a call, if both of its domains have owners and these differ. -/
def crossing? (m : Model) : Action String → Option Dependency
  | .asks domain target _ phrase => do
      let caller ← m.ownerName? domain
      let callee ← m.ownerName? target
      if caller = callee then none else some ⟨caller, callee, phrase⟩
  | _ => none

/-- The text is the name of a service of the model. -/
def HasService (m : Model) (name : String) : Prop := ∃ s ∈ m.services, s.name = name

end Model

/-- Services of flows and dependencies are what the model answers when it is asked for owners. -/
structure OwnedAsAsked (m : Model) : Prop where
  /-- the services of a flow are the owners of the domains it visits, each where it is first met -/
  services : ∀ f ∈ m.flows,
    f.services.toList = (f.visitedDomains.toList.filterMap m.ownerName?).eraseDups
  /-- the dependencies are those of the calls of all use cases, each where it is first met -/
  dependencies : m.dependencies = (m.steps.filterMap fun s => m.crossing? s.action).eraseDups
  /-- a flow has services of the model only -/
  hasService : ∀ f ∈ m.flows, ∀ name ∈ f.services.toList, m.HasService name
  /-- a dependency runs from a service of the model to another one -/
  hasEnds : ∀ d ∈ m.dependencies,
    m.HasService d.source ∧ m.HasService d.target ∧ d.source ≠ d.target
  /-- no dependency is repeated -/
  nodup : m.dependencies.Nodup

/-! ## The whole program -/

lemma hasService_of_ownerName? {m : Model} {domain name : String}
    (h : m.ownerName? domain = some name) : m.HasService name := by
  obtain ⟨s, hs, rfl⟩ := Option.map_eq_some_iff.1 h
  exact ⟨s, List.mem_of_find?_eq_some hs, rfl⟩

/-- A call that makes a dependency has owners on both sides, and not the same one. -/
lemma owners_of_crossing? {m : Model} {a : Action String} {d : Dependency}
    (h : m.crossing? a = some d) :
    m.HasService d.source ∧ m.HasService d.target ∧ d.source ≠ d.target := by
  cases a with
  | asks domain target connector phrase =>
      obtain ⟨caller, hcaller, h⟩ := Option.bind_eq_some_iff.1 h
      obtain ⟨callee, hcallee, h⟩ := Option.bind_eq_some_iff.1 h
      split at h
      · cases h
      · next hne =>
        cases h
        exact ⟨hasService_of_ownerName? hcaller, hasService_of_ownerName? hcallee, hne⟩
  | internal => cases h
  | notifies => cases h
  | returns => cases h

lemma dependencyOf?_eq_crossing? (m : Model) :
    dependencyOf? (.ofServices m.services) = m.crossing? := by
  funext a
  cases a with
  | asks domain target connector phrase =>
      simp only [dependencyOf?, owner?_ofServices, Model.crossing?, Model.ownerName?,
        Model.ownerOf?]
      cases m.services.find? fun s => s.owns domain <;>
        cases m.services.find? fun s => s.owns target <;> rfl
  | internal => rfl
  | notifies => rfl
  | returns => rfl

section Program

variable {policies : Policies} {ds : List Declaration} {m : Model}

/-- The services of a flow are looked up when its scenario is resolved. -/
lemma services_of_mem_flows (hm : m.AssembledFrom policies ds) {f : Flow} (hf : f ∈ m.flows) :
    f.services.toList = (f.visitedDomains.toList.filterMap m.ownerName?).eraseDups := by
  have howner : (Ownership.ofServices m.services).owner? = m.ownerName? :=
    funext fun domain => owner?_ofServices m.services domain
  rw [flows_eq hm] at hf
  obtain ⟨x, -, rfl⟩ := List.mem_map.1 hf
  rw [services_withListener, visitedDomains_withListener, ← howner]
  rfl

/-- Dependencies are collected step by step. -/
lemma dependencies_eq (hm : m.AssembledFrom policies ds) :
    m.dependencies = (m.steps.filterMap fun s => m.crossing? s.action).eraseDups := by
  rw [hm.dependencies, dependenciesOf, dependencyOf?_eq_crossing?, OrderedSet.toList_ofList,
    Model.steps, Model.scenarios, List.filterMap_flatMap, List.flatMap_assoc]
  simp only [List.flatMap_map, Scenario.actions, List.filterMap_map, Function.comp_def]

end Program

/-- **Owners are as the model tells.**  The services of a flow are the owners of the domains it
visits, and the dependencies are the calls between domains of different owners, where an owner is
whom the finished model names.  The calls are those of the declarations
(`Model.useCases_ofDeclarations`). -/
theorem ownedAsAsked_ofDeclarations (policies : Policies) (ds : List Declaration) :
    OwnedAsAsked (Model.ofDeclarations policies ds) := by
  have hm := Model.assembledFrom_ofDeclarations policies ds
  generalize Model.ofDeclarations policies ds = m at hm ⊢
  refine ⟨fun f hf => services_of_mem_flows hm hf, dependencies_eq hm, ?hasService, ?hasEnds,
    ?nodup⟩
  case hasService =>
    intro f hf name hname
    rw [services_of_mem_flows hm hf, List.mem_eraseDups, List.mem_filterMap] at hname
    obtain ⟨domain, _, howner⟩ := hname
    exact hasService_of_ownerName? howner
  case hasEnds =>
    intro d hd
    rw [dependencies_eq hm, List.mem_eraseDups, List.mem_filterMap] at hd
    obtain ⟨s, _, hs⟩ := hd
    exact owners_of_crossing? hs
  case nodup =>
    rw [dependencies_eq hm]
    exact nodup_eraseDups _

end ArchLang
