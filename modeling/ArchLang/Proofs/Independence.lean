import ArchLang.Proofs.Listeners
import ArchLang.Proofs.ServiceMerge
import Mathlib.Data.List.Basic
import Mathlib.Tactic.Common

/-!
# What a policy leaves alone

An assembly knows two policies.  One picks among the languages and the deployments of a service,
the other among the publishers of an event.  What they pick goes on through the assembly: merged
services say who owns a domain, owners go into flows and dependencies, and publishers into
subscriptions and into the edges of listeners.  This file runs an assembly twice, under different
policies, and says how far a pick reaches.

**Forgetting.**  `Model.withoutPicks` forgets languages and deployments, `Model.withoutPublishers`
the publishers wherever they show.  Two models that are the same without these differ in them at
most.

**The two runs.**  Owners are looked up by domain, which no policy touches (`ofServices_mergeAll`).
Events and their order do not depend on who publishes them (`publishersOf_mapValues`), nor does it
matter for a subscription (`subscriptionsOf_withoutPublisher`), and a flow finds its subscription by
its scenario (`withListener_congr`).

* **`policies_do_not_interfere`** — a change of one policy changes only what that policy picks.
-/

namespace ArchLang

/-! ## Forgetting what a policy picks -/

/-- The same map with other values under its keys. -/
def OrderedMap.mapValues {κ ν ν' : Type} (f : ν → ν') (m : OrderedMap κ ν) : OrderedMap κ ν' where
  entries := m.entries.map fun entry => (entry.1, f entry.2)
  nodup := by
    rw [List.map_map]
    exact m.nodup

/-- The service without its language and its deployment. -/
def Service.withoutPicks (s : Service) : Service :=
  { Service.named s.name with domains := s.domains, dataStores := s.dataStores }

/-- The edge of a listener without its source; other edges are kept. -/
def Edge.withoutPublisher (e : Edge) : Edge :=
  if e.kind = .listen then { e with source := .external } else e

/-- The flow without the sources of the edges of listeners. -/
def Flow.withoutPublisher (f : Flow) : Flow :=
  { f with edges := f.edges.map Edge.withoutPublisher }

/-- The subscription without its publisher. -/
def Subscription.withoutPublisher (link : Subscription) : Subscription :=
  { link with publisher := "" }

namespace Model

/-- The model without the languages and the deployments of its services. -/
def withoutPicks (m : Model) : Model := { m with services := m.services.map Service.withoutPicks }

/-- The model without publishers: there are none in the map of events, in subscriptions and at the
sources of the edges of listeners. -/
def withoutPublishers (m : Model) : Model :=
  { m with
    flows := m.flows.map Flow.withoutPublisher
    subscriptions := m.subscriptions.map Subscription.withoutPublisher
    publishers := m.publishers.mapValues fun _ => "" }

/-- Which scenarios are linked does not depend on the publishers. -/
lemma linked_withoutPublishers (m : Model) :
    m.withoutPublishers.subscriptions.map Subscription.scenarioId
      = m.subscriptions.map Subscription.scenarioId :=
  List.map_map

/-- Forgetting publishers keeps every edge. -/
lemma edgeCounts_withoutPublishers (m : Model) :
    (m.withoutPublishers.flows.map fun f => f.edges.length)
      = m.flows.map fun f => f.edges.length := by
  rw [withoutPublishers, List.map_map]
  exact List.map_congr_left fun f _ => List.length_map ..

end Model

/-! ## Languages and deployments -/

section Merging

variable (policy policy' : ConflictPolicy) (services : List Service)

/-- Merged services differ in language and deployment only. -/
lemma mergeAll_withoutPicks :
    (Service.mergeAll policy services).map Service.withoutPicks
      = (Service.mergeAll policy' services).map Service.withoutPicks := by
  rw [Service.mergeAll_eq_map_together, Service.mergeAll_eq_map_together, List.map_map,
    List.map_map]
  rfl

/-- Who owns a domain is said without languages and deployments. -/
lemma ofServices_withoutPicks :
    Ownership.ofServices (services.map Service.withoutPicks) = Ownership.ofServices services := by
  rw [Ownership.ofServices, Ownership.ofServices, List.flatMap_map]
  rfl

/-- Owners do not depend on the policy. -/
lemma ofServices_mergeAll :
    Ownership.ofServices (Service.mergeAll policy services)
      = Ownership.ofServices (Service.mergeAll policy' services) := by
  rw [← ofServices_withoutPicks, mergeAll_withoutPicks policy policy', ofServices_withoutPicks]

end Merging

/-! ## Publishers -/

section Publishing

variable (policy policy' : ConflictPolicy) (useCases : List UseCase)

/-- The events that are published, and their order, do not depend on the policy. -/
lemma publishersOf_mapValues :
    (publishersOf policy useCases).mapValues (fun _ => "")
      = (publishersOf policy' useCases).mapValues fun _ => "" := by
  have hkeys : ∀ m : OrderedMap String String,
      (m.mapValues fun _ => "").entries = m.keys.map fun event => (event, "") := by
    intro m
    rw [OrderedMap.keys, List.map_map]
    rfl
  refine OrderedMap.ext ?_
  rw [hkeys, hkeys, publishersOf, publishersOf, OrderedMap.keys_gather, OrderedMap.keys_gather]

/-- A scenario has a subscription under one policy if it has one under the other, and the two differ
in their publisher only. -/
lemma subscriptionOf?_withoutPublisher (name : String) (s : Scenario) :
    (subscriptionOf? (publishersOf policy useCases) name s).map Subscription.withoutPublisher
      = (subscriptionOf? (publishersOf policy' useCases) name s).map
          Subscription.withoutPublisher := by
  by_cases hserved : s.trigger.Served useCases
  · obtain ⟨domain, event, publisher, ht, -, -, hlink⟩ :=
      subscriptionOf?_of_served policy name hserved
    obtain ⟨domain', event', publisher', ht', -, -, hlink'⟩ :=
      subscriptionOf?_of_served policy' name hserved
    rw [ht] at ht'
    cases ht'
    rw [hlink, hlink']
    rfl
  · rw [subscriptionOf?_of_not_served policy name hserved,
      subscriptionOf?_of_not_served policy' name hserved]

lemma subscriptionsOf_withoutPublisher :
    (subscriptionsOf (publishersOf policy useCases) useCases).map Subscription.withoutPublisher
      = (subscriptionsOf (publishersOf policy' useCases) useCases).map
          Subscription.withoutPublisher := by
  simp only [subscriptionsOf, List.map_flatMap, List.map_filterMap,
    subscriptionOf?_withoutPublisher policy policy' useCases]

end Publishing

/-- The edges of two subscriptions of the same scenario to the same event differ in their source. -/
lemma edge_withoutPublisher {link link' : Subscription}
    (h : link.withoutPublisher = link'.withoutPublisher) :
    link.edge.withoutPublisher = link'.edge.withoutPublisher := by
  obtain ⟨event, publisher, listener, useCase, id⟩ := link
  obtain ⟨event', publisher', listener', useCase', id'⟩ := link'
  cases h
  rfl

/-- A flow finds its subscription by its scenario, so only the publisher of what it finds can
differ. -/
lemma withListener_congr {links links' : List Subscription}
    (h : links.map Subscription.withoutPublisher = links'.map Subscription.withoutPublisher)
    (f : Flow) :
    (f.withListener links).withoutPublisher = (f.withListener links').withoutPublisher := by
  have hfind : ∀ links : List Subscription,
      ((links.map Subscription.withoutPublisher).find? fun link => link.scenarioId = f.scenarioId)
        = (links.find? fun link => link.scenarioId = f.scenarioId).map
            Subscription.withoutPublisher := fun links => List.find?_map ..
  have hsame := hfind links
  rw [h, hfind links'] at hsame
  rw [Flow.withListener, Flow.withListener]
  cases hlink : links.find? fun link => link.scenarioId = f.scenarioId with
  | none =>
      rw [hlink, Option.map_none, Option.map_eq_none_iff] at hsame
      rw [hsame]
  | some link =>
      rw [hlink, Option.map_some, Option.map_eq_some_iff] at hsame
      obtain ⟨link', hlink', hagree⟩ := hsame
      have hedge := edge_withoutPublisher hagree
      simp only [hlink', Flow.prepend, Flow.withoutPublisher, List.map_cons, hedge]

/-! ## Two assemblies -/

section Program

variable (ds : List Declaration)

/-- The merge policy picks languages and deployments, and nothing else shows it. -/
lemma withoutPicks_ofDeclarations (merge merge' publishers : ConflictPolicy) :
    (Model.ofDeclarations ⟨merge, publishers⟩ ds).withoutPicks
      = (Model.ofDeclarations ⟨merge', publishers⟩ ds).withoutPicks := by
  simp only [Model.ofDeclarations, Model.withoutPicks, mergeAll_withoutPicks merge merge',
    ofServices_mergeAll merge merge']

/-- The publisher policy picks publishers, and nothing else shows it. -/
lemma withoutPublishers_ofDeclarations (merge publishers publishers' : ConflictPolicy) :
    (Model.ofDeclarations ⟨merge, publishers⟩ ds).withoutPublishers
      = (Model.ofDeclarations ⟨merge, publishers'⟩ ds).withoutPublishers := by
  have hlinks := subscriptionsOf_withoutPublisher publishers publishers'
    (Entities.ofDeclarations ds).useCases
  simp only [Model.ofDeclarations, Model.withoutPublishers, List.map_map, Function.comp_def,
    hlinks, withListener_congr hlinks, publishersOf_mapValues publishers publishers']

end Program

/-- **Policies do not interfere.**  Under two merge policies a program has the same model but for
the languages and deployments of its services.  Under two publisher policies it has the same model
but for the publishers in the map of events, in subscriptions and at the sources of the edges of
listeners: the same scenarios are linked, and every flow has as many edges. -/
theorem policies_do_not_interfere (ds : List Declaration) :
    (∀ merge merge' publishers,
      (Model.ofDeclarations ⟨merge, publishers⟩ ds).withoutPicks
        = (Model.ofDeclarations ⟨merge', publishers⟩ ds).withoutPicks) ∧
    ∀ merge publishers publishers',
      (Model.ofDeclarations ⟨merge, publishers⟩ ds).withoutPublishers
        = (Model.ofDeclarations ⟨merge, publishers'⟩ ds).withoutPublishers ∧
      (Model.ofDeclarations ⟨merge, publishers⟩ ds).subscriptions.map Subscription.scenarioId
        = (Model.ofDeclarations ⟨merge, publishers'⟩ ds).subscriptions.map
            Subscription.scenarioId ∧
      ((Model.ofDeclarations ⟨merge, publishers⟩ ds).flows.map fun f => f.edges.length)
        = (Model.ofDeclarations ⟨merge, publishers'⟩ ds).flows.map fun f => f.edges.length := by
  refine ⟨withoutPicks_ofDeclarations ds, fun merge publishers publishers' => ?_⟩
  have hsame := withoutPublishers_ofDeclarations ds merge publishers publishers'
  refine ⟨hsame, ?links, ?edges⟩
  case links =>
    rw [← Model.linked_withoutPublishers, hsame, Model.linked_withoutPublishers]
  case edges =>
    rw [← Model.edgeCounts_withoutPublishers, hsame, Model.edgeCounts_withoutPublishers]

end ArchLang
