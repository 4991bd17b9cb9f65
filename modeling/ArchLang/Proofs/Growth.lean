import ArchLang.Proofs.Listeners
import ArchLang.Proofs.ServiceMerge
import Mathlib.Data.List.Basic
import Mathlib.Data.List.Infix
import Mathlib.Tactic.Common

/-!
# Programs that go on

Declarations that are appended to a program may reach back: they add sub-domains to a domain that
was declared long before, publish an event for which an earlier scenario waits, or change who owns a
domain.  This file says what they cannot change.

**Sets and names.**  A first-seen list only grows at its end (`prefix_eraseDups`).  This settles the
names of merged entities, the events of publishers and the contents of a merged entity at once:
all of them are first-seen lists of something that is read off the declarations in source order
(`Domain.mergeAll_eq_map_together`, `Service.mergeAll_eq_map_together`).

**Flows.**  The counter has drawn the same numbers for the scenarios that were there.  Owners and
publishers may differ, but edges and visited domains are read off the scenario alone, and a listener
only ever adds one edge of its own kind (`ownEdges_withListener`).

* `GrowsInto m m'` — what `m` says still stands in `m'`, at the same place.
* **`growsInto_append`** — a program grows into every program that begins with it.
-/

namespace ArchLang

/-! ## What stays -/

/-- The edges of a flow other than the edge of a listener. -/
def Flow.ownEdges (f : Flow) : List Edge := f.edges.filter fun e => e.kind ≠ .listen

/-- All that the smaller model says and the larger one may only add to. -/
structure GrowsInto (m m' : Model) : Prop where
  actors : m.actors <+: m'.actors
  exposures : m.exposures <+: m'.exposures
  architectures : m.architectures <+: m'.architectures
  /-- with the identifiers of their scenarios and steps -/
  useCases : m.useCases <+: m'.useCases
  domainNames : m.domains.map Domain.name <+: m'.domains.map Domain.name
  serviceNames : m.services.map Service.name <+: m'.services.map Service.name
  events : m.publishers.keys <+: m'.publishers.keys
  /-- a domain is found again under its name, with more behind its sub-domains -/
  domains : ∀ d ∈ m.domains, ∃ d', m'.domain? d.name = some d' ∧
    d.subDomains.toList <+: d'.subDomains.toList
  /-- so is a service, with more behind its domains and its data stores -/
  services : ∀ s ∈ m.services, ∃ s', m'.service? s.name = some s' ∧
    s.domains.toList <+: s'.domains.toList ∧ s.dataStores.toList <+: s'.dataStores.toList
  /-- a flow keeps its place, its scenario, the domains it visits and all edges of its own -/
  flows : ∀ (i : ℕ) (f : Flow), m.flows[i]? = some f → ∃ f' : Flow, m'.flows[i]? = some f' ∧
    f'.useCase = f.useCase ∧ f'.scenarioId = f.scenarioId ∧
    f'.visitedDomains = f.visitedDomains ∧ f'.ownEdges = f.ownEdges

/-- What comes behind a list changes nothing in what was first seen in it. -/
lemma prefix_eraseDups {α : Type} [DecidableEq α] {xs ys : List α} (h : xs <+: ys) :
    xs.eraseDups <+: ys.eraseDups := by
  obtain ⟨zs, rfl⟩ := h
  rw [List.eraseDups_append]
  exact List.prefix_append ..

/-! ## Merged domains -/

namespace Domain

/-- What a list of declarations says about the domain of one name. -/
def together (name : String) (declared : List Domain) : Domain :=
  ⟨name, .ofList (declared.flatMap fun d => d.subDomains.toList)⟩

lemma foldl_merge (d : Domain) (rest : List Domain) :
    rest.foldl merge d = together d.name (d :: rest) := by
  induction rest generalizing d with
  | nil => simp [together]
  | cons e rest ih =>
      rw [List.foldl_cons, ih]
      simp only [together, merge, List.flatMap_cons, OrderedSet.toList_union,
        ← List.append_assoc]
      congr 1
      ext1
      exact eraseDups_eraseDups_append ..

lemma combineAll?_merge {name : String} {declared : List Domain} (hne : declared ≠ [])
    (hname : ∀ d ∈ declared, d.name = name) :
    combineAll? merge declared = some (together name declared) := by
  cases declared with
  | nil => exact absurd rfl hne
  | cons d rest => rw [combineAll?, foldl_merge, hname d List.mem_cons_self]

/-- The merge without the fold: for each distinct name there is what its declarations say. -/
theorem mergeAll_eq_map_together (domains : List Domain) :
    mergeAll domains = (domains.map name).eraseDups.map fun n =>
      together n (domains.filter fun d => d.name = n) :=
  OrderedMap.values_gather_together (fun _ _ => combineAll?_merge) domains

end Domain

/-! ## Merged entities are found again -/

section Merged

variable {α : Type} {name : α → String} {make : String → α}

/-- Entities that are listed by name are found by name. -/
lemma find?_map_make (hname : ∀ n, name (make n) = n) {names : List String} {n : String}
    (hn : n ∈ names) : ((names.map make).find? fun x => name x = n) = some (make n) := by
  have hfind : names.find? (fun m => m = n) = some n := by
    cases hfirst : names.find? fun m => m = n with
    | none => exact absurd (List.find?_eq_none.1 hfirst n hn) (by simp)
    | some m =>
        have hsame : m = n := by simpa using List.find?_some hfirst
        rw [hsame]
  rw [List.find?_map]
  simp only [Function.comp_def, hname, hfind, Option.map_some]

end Merged

lemma exists_domain {domains domains' : List Domain} (h : domains <+: domains') {d : Domain}
    (hd : d ∈ Domain.mergeAll domains) :
    ∃ d', ((Domain.mergeAll domains').find? fun e => e.name = d.name) = some d' ∧
      d.subDomains.toList <+: d'.subDomains.toList := by
  rw [Domain.mergeAll_eq_map_together] at hd
  obtain ⟨n, hn, rfl⟩ := List.mem_map.1 hd
  rw [Domain.mergeAll_eq_map_together]
  refine ⟨_, find?_map_make (fun _ => rfl) ((prefix_eraseDups (h.map _)).subset hn), ?_⟩
  exact prefix_eraseDups ((h.filter _).flatMap _)

lemma exists_service (policy : ConflictPolicy) {services services' : List Service}
    (h : services <+: services') {s : Service} (hs : s ∈ Service.mergeAll policy services) :
    ∃ s', ((Service.mergeAll policy services').find? fun t => t.name = s.name) = some s' ∧
      s.domains.toList <+: s'.domains.toList ∧ s.dataStores.toList <+: s'.dataStores.toList := by
  rw [Service.mergeAll_eq_map_together] at hs
  obtain ⟨n, hn, rfl⟩ := List.mem_map.1 hs
  rw [Service.mergeAll_eq_map_together]
  refine ⟨_, find?_map_make (fun _ => rfl) ((prefix_eraseDups (h.map _)).subset hn), ?_, ?_⟩
  · exact prefix_eraseDups ((h.filter _).flatMap _)
  · exact prefix_eraseDups ((h.filter _).flatMap _)

/-- The names of merged entities are the names that were first seen. -/
lemma names_mergeAll_domain (domains : List Domain) :
    (Domain.mergeAll domains).map Domain.name = (domains.map Domain.name).eraseDups := by
  rw [Domain.mergeAll_eq_map_together, List.map_map]
  exact List.map_id _

lemma names_mergeAll_service (policy : ConflictPolicy) (services : List Service) :
    (Service.mergeAll policy services).map Service.name
      = (services.map Service.name).eraseDups := by
  rw [Service.mergeAll_eq_map_together, List.map_map]
  exact List.map_id _

/-! ## Events and flows -/

lemma prefix_keys_publishersOf (policy : ConflictPolicy) {useCases useCases' : List UseCase}
    (h : useCases <+: useCases') :
    (publishersOf policy useCases).keys <+: (publishersOf policy useCases').keys := by
  rw [publishersOf, publishersOf, OrderedMap.keys_gather, OrderedMap.keys_gather]
  exact prefix_eraseDups ((h.flatMap _).map _)

/-- A listener adds no edge but its own. -/
lemma ownEdges_withListener (links : List Subscription) (f : Flow) :
    (f.withListener links).ownEdges = f.ownEdges := by
  rw [Flow.withListener]
  split
  · simp [Flow.ownEdges, Flow.prepend, Subscription.edge]
  · rfl

/-- Flows of the same scenarios stand at the same places and differ at most in their services and in
the edge of a listener. -/
lemma exists_flow {m m' : Model} {policies : Policies} {ds ds' : List Declaration}
    (hm : m.AssembledFrom policies ds) (hm' : m'.AssembledFrom policies ds')
    (h : m.useCases <+: m'.useCases) {i : ℕ} {f : Flow} (hf : m.flows[i]? = some f) :
    ∃ f' : Flow, m'.flows[i]? = some f' ∧ f'.useCase = f.useCase ∧
      f'.scenarioId = f.scenarioId ∧ f'.visitedDomains = f.visitedDomains ∧
      f'.ownEdges = f.ownEdges := by
  have hscenarios : m.scenarios <+: m'.scenarios := h.flatMap _
  rw [flows_eq hm, List.getElem?_map] at hf
  obtain ⟨x, hx, rfl⟩ := Option.map_eq_some_iff.1 hf
  obtain ⟨more, hmore⟩ := hscenarios
  have hx' : m'.scenarios[i]? = some x := by
    rw [← hmore, List.getElem?_append_left (List.getElem?_eq_some_iff.1 hx).1, hx]
  refine ⟨(m'.alone x).withListener m'.subscriptions, ?_, ?_, ?_, ?_, ?_⟩
  · rw [flows_eq hm', List.getElem?_map, hx', Option.map_some]
  · rw [useCase_withListener, useCase_withListener]
    rfl
  · rw [scenarioId_withListener, scenarioId_withListener]
    rfl
  · rw [visitedDomains_withListener, visitedDomains_withListener]
    rfl
  · rw [ownEdges_withListener, ownEdges_withListener]
    rfl

/-! ## Programs -/

/-- Each list of entities goes on. -/
structure Entities.Begins (e e' : Entities) : Prop where
  actors : e.actors <+: e'.actors
  domains : e.domains <+: e'.domains
  services : e.services <+: e'.services
  exposures : e.exposures <+: e'.exposures
  architectures : e.architectures <+: e'.architectures
  useCases : e.useCases <+: e'.useCases

/-- A longer program has more entities of each kind behind, and its use cases go on with the counter
where the shorter program left it. -/
lemma begins_append (ds ds' : List Declaration) :
    (Entities.ofDeclarations ds).Begins (Entities.ofDeclarations (ds ++ ds')) where
  actors := ((List.prefix_append ds ds').flatMap _).map _
  domains := ((List.prefix_append ds ds').flatMap _).map _
  services := ((List.prefix_append ds ds').flatMap _).map _
  exposures := ((List.prefix_append ds ds').flatMap _).map _
  architectures := ((List.prefix_append ds ds').flatMap _).map _
  useCases := by
    simp only [Entities.ofDeclarations, List.flatMap_append, useCasesFrom_append]
    exact List.prefix_append ..

/-- **Appending never rewrites.**  A program grows into every program that begins with it. -/
theorem growsInto_append (policies : Policies) (ds ds' : List Declaration) :
    GrowsInto (Model.ofDeclarations policies ds)
      (Model.ofDeclarations policies (ds ++ ds')) := by
  have h := begins_append ds ds'
  refine
    { actors := h.actors
      exposures := h.exposures
      architectures := h.architectures
      useCases := h.useCases
      domainNames := ?domainNames
      serviceNames := ?serviceNames
      events := prefix_keys_publishersOf policies.publishers h.useCases
      domains := fun _ hd => exists_domain h.domains hd
      services := fun _ hs => exists_service policies.merge h.services hs
      flows := fun _ _ hf => exists_flow (Model.assembledFrom_ofDeclarations policies ds)
        (Model.assembledFrom_ofDeclarations policies (ds ++ ds')) h.useCases hf }
  case domainNames =>
    simp only [Model.ofDeclarations, names_mergeAll_domain]
    exact prefix_eraseDups (h.domains.map _)
  case serviceNames =>
    simp only [Model.ofDeclarations, names_mergeAll_service]
    exact prefix_eraseDups (h.services.map _)

end ArchLang
