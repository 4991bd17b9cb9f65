import ArchLang.Configuration
import ArchLang.Proofs.JsonText
import Mathlib.Data.List.Basic
import Mathlib.Logic.Function.Basic
import Mathlib.Tactic.Common

/-!
# The JSON text of a model loses nothing

Every component of a model can be told from its JSON.  Members stand in a fixed order, so a member
that is left out shows by the key of the next one; and the shapes of triggers, actions, components
and endpoints differ in their `type`.

* `arr_map_injective`, `strings_injective`, `optionalMember_append` — lists, and members that may be
  left out.
* `toJson_injective_*` — one kind of component.
* **`render_json_injective`** — models with the same text are the same, in both layouts.
-/

namespace ArchLang

open Json

/-! ## Building blocks -/

section Blocks

variable {α : Type}

lemma arr_map_injective {f : α → Json} (hf : Function.Injective f) :
    Function.Injective fun xs : List α => arr (xs.map f) := by
  intro xs ys h
  exact hf.list_map (Json.arr.inj h)

lemma str_injective : Function.Injective str := fun _ _ h => Json.str.inj h

lemma strings_injective : Function.Injective strings := arr_map_injective str_injective

lemma strings_toList_injective :
    Function.Injective fun s : OrderedSet String => strings s.toList := by
  intro s t h
  exact OrderedSet.ext (strings_injective h)

lemma nullable_injective : Function.Injective nullable := by
  intro a b h
  cases a <;> cases b <;> simp_all [nullable]

/-- A member that may be left out: the key of what follows tells whether it is there. -/
lemma optionalMember_append {key : String} {a b : Option String} {k k' : String} {v v' : Json}
    {rest rest' : List (String × Json)} (hk : key ≠ k) (hk' : key ≠ k')
    (h : optionalMember key a ++ (k, v) :: rest = optionalMember key b ++ (k', v') :: rest') :
    a = b ∧ (k, v) :: rest = (k', v') :: rest' := by
  cases a <;> cases b <;> simp_all [optionalMember]

end Blocks

/-! ## Entities -/

lemma actorKind_name_injective : Function.Injective ActorKind.name := by
  intro k k' h
  cases k <;> cases k' <;> simp_all [ActorKind.name]

lemma toJson_injective_actor : Function.Injective Actor.toJson := by
  rintro ⟨name, kind⟩ ⟨name', kind'⟩ h
  simp only [Actor.toJson, obj.injEq, List.cons.injEq, Prod.mk.injEq, str.injEq, true_and,
    and_true] at h
  simp only [h.1, actorKind_name_injective h.2]

lemma toJson_injective_domain : Function.Injective Domain.toJson := by
  rintro ⟨name, subDomains⟩ ⟨name', subDomains'⟩ h
  simp only [Domain.toJson, obj.injEq, List.cons.injEq, Prod.mk.injEq, str.injEq, true_and,
    and_true] at h
  simp only [h.1, strings_toList_injective h.2]

lemma toJson_injective_rolloutRule : Function.Injective RolloutRule.toJson := by
  rintro ⟨percentage, target⟩ ⟨percentage', target'⟩ h
  simp_all [RolloutRule.toJson]

/-- Without a kind there are no rules, so the two members tell a deployment. -/
lemma toJson_injective_deployment : Function.Injective Deployment.toJson := by
  intro d d' h
  simp only [Deployment.toJson, obj.injEq, List.cons.injEq, Prod.mk.injEq, true_and,
    and_true] at h
  obtain ⟨hkind, hrules⟩ := h
  have hkind := nullable_injective hkind
  have hrules := arr_map_injective toJson_injective_rolloutRule hrules
  cases d with
  | unset =>
      cases d' with
      | unset => rfl
      | planned => simp [Deployment.kind?] at hkind
  | planned kind rules =>
      cases d' with
      | unset => simp [Deployment.kind?] at hkind
      | planned kind' rules' =>
          simp only [Deployment.kind?, Option.some.injEq] at hkind
          rw [hkind, OrderedSet.ext hrules]

lemma toJson_injective_service : Function.Injective Service.toJson := by
  intro s t h
  simp only [Service.toJson, obj.injEq, List.cons.injEq, Prod.mk.injEq, str.injEq, true_and,
    and_true] at h
  obtain ⟨hname, hdomains, hstores, hlanguage, hdeployment⟩ := h
  exact Service.ext hname (strings_toList_injective hdomains) (strings_toList_injective hstores)
    (nullable_injective hlanguage) (toJson_injective_deployment hdeployment)

lemma toJson_injective_exposure : Function.Injective Exposure.toJson := by
  rintro ⟨name, audience, exposed, gateways⟩ ⟨name', audience', exposed', gateways'⟩ h
  simp only [Exposure.toJson, obj.injEq, List.cons.injEq, Prod.mk.injEq, str.injEq, true_and,
    and_true] at h
  obtain ⟨rfl, haudience, hexposed, hgateways⟩ := h
  rw [strings_injective haudience, strings_injective hexposed, strings_injective hgateways]

/-! ## Architectures -/

lemma toJson_injective_modifier : Function.Injective Modifier.toJson := by
  rintro ⟨key, value⟩ ⟨key', value'⟩ h
  cases value <;> cases value' <;> simp_all [Modifier.toJson, optionalMember]

lemma members_injective_node : Function.Injective Node.members := by
  rintro ⟨name, modifiers⟩ ⟨name', modifiers'⟩ h
  simp only [Node.members, List.cons.injEq, Prod.mk.injEq, str.injEq, true_and, and_true] at h
  obtain ⟨rfl, hmodifiers⟩ := h
  rw [arr_map_injective toJson_injective_modifier hmodifiers]

/-- A node and a chain of one node have different types. -/
lemma toJson_injective_component : Function.Injective Component.toJson := by
  intro c c' h
  have hnodes : Function.Injective fun n : Node => obj n.members := fun n n' h =>
    members_injective_node (obj.inj h)
  cases c with
  | node n =>
      cases c' with
      | node n' => rw [members_injective_node (List.cons.inj (obj.inj h)).2]
      | flow chain => simp [Component.toJson] at h
  | flow chain =>
      cases c' with
      | node n => simp [Component.toJson] at h
      | flow chain' =>
          simp only [Component.toJson, obj.injEq, List.cons.injEq, Prod.mk.injEq, true_and,
            and_true] at h
          rw [arr_map_injective hnodes h]

lemma toJson_injective_architecture : Function.Injective Architecture.toJson := by
  rintro ⟨name, presentation, gateway⟩ ⟨name', presentation', gateway'⟩ h
  obtain ⟨hname, hlayers⟩ := optionalMember_append (by decide) (by decide) (obj.inj h)
  simp only [List.cons.injEq, Prod.mk.injEq, true_and, and_true] at hlayers
  obtain ⟨hpresentation, hgateway⟩ := hlayers
  rw [Architecture.mk.injEq]
  exact ⟨hname, arr_map_injective toJson_injective_component hpresentation,
    arr_map_injective toJson_injective_component hgateway⟩

/-! ## Use cases -/

lemma toJson_injective_trigger : Function.Injective Trigger.toJson := by
  intro t t' h
  cases t <;> cases t' <;> simp_all [Trigger.toJson]

/-- The type of an action says which members may be left out, and each of these has another one
behind it. -/
lemma members_injective_action : Function.Injective Action.members := by
  intro a a' h
  cases a with
  | internal domain verb connector phrase =>
      cases a' with
      | internal domain' verb' connector' phrase' =>
          simp only [Action.members, List.cons_append, List.nil_append,
            List.cons.injEq, Prod.mk.injEq, str.injEq, true_and] at h
          obtain ⟨rfl, rfl, h⟩ := h
          obtain ⟨rfl, h⟩ := optionalMember_append (by decide) (by decide) h
          simp_all
      | asks | notifies | returns => simp [Action.members] at h
  | asks domain target connector phrase =>
      cases a' with
      | asks domain' target' connector' phrase' =>
          simp only [Action.members, List.cons_append, List.nil_append,
            List.cons.injEq, Prod.mk.injEq, str.injEq, true_and] at h
          obtain ⟨rfl, rfl, h⟩ := h
          obtain ⟨rfl, h⟩ := optionalMember_append (by decide) (by decide) h
          simp_all
      | internal | notifies | returns => simp [Action.members] at h
  | notifies domain event =>
      cases a' with
      | notifies domain' event' => simp_all [Action.members]
      | internal | asks | returns => simp [Action.members] at h
  | returns domain target phrase =>
      cases a' with
      | returns domain' target' phrase' =>
          simp only [Action.members, List.cons_append, List.nil_append,
            List.cons.injEq, Prod.mk.injEq, str.injEq, true_and] at h
          obtain ⟨rfl, h⟩ := h
          obtain ⟨rfl, h⟩ := optionalMember_append (by decide) (by decide) h
          simp_all
      | internal | asks | notifies => simp [Action.members] at h

/-- The description is read off the action, so it is nothing that could be lost. -/
lemma toJson_injective_step : Function.Injective Step.toJson := by
  rintro ⟨id, action⟩ ⟨id', action'⟩ h
  simp only [Step.toJson, obj.injEq, List.cons_append, List.nil_append, List.cons.injEq,
    Prod.mk.injEq, str.injEq, true_and] at h
  rw [h.1, members_injective_action h.2.2]

lemma toJson_injective_scenario : Function.Injective Scenario.toJson := by
  rintro ⟨id, trigger, steps⟩ ⟨id', trigger', steps'⟩ h
  simp only [Scenario.toJson, obj.injEq, List.cons.injEq, Prod.mk.injEq, str.injEq, true_and,
    and_true] at h
  obtain ⟨rfl, htrigger, hsteps⟩ := h
  rw [toJson_injective_trigger htrigger, arr_map_injective toJson_injective_step hsteps]

lemma toJson_injective_useCase : Function.Injective UseCase.toJson := by
  rintro ⟨name, scenarios⟩ ⟨name', scenarios'⟩ h
  simp only [UseCase.toJson, obj.injEq, List.cons.injEq, Prod.mk.injEq, str.injEq, true_and,
    and_true] at h
  rw [h.1, arr_map_injective toJson_injective_scenario h.2]

/-! ## Flows -/

lemma toJson_injective_endpoint : Function.Injective Endpoint.toJson := by
  intro p p' h
  cases p <;> cases p' <;> simp_all [Endpoint.toJson]

lemma edgeKind_name_injective : Function.Injective EdgeKind.name := by
  intro k k' h
  cases k <;> cases k' <;> simp_all [EdgeKind.name]

lemma toJson_injective_edge : Function.Injective Edge.toJson := by
  rintro ⟨source, target, label, kind⟩ ⟨source', target', label', kind'⟩ h
  simp only [Edge.toJson, obj.injEq, List.cons.injEq, Prod.mk.injEq, str.injEq, true_and,
    and_true] at h
  obtain ⟨hsource, htarget, rfl, hkind⟩ := h
  rw [toJson_injective_endpoint hsource, toJson_injective_endpoint htarget,
    edgeKind_name_injective hkind]

lemma toJson_injective_flow : Function.Injective Flow.toJson := by
  rintro ⟨useCase, id, edges, visited, services⟩ ⟨useCase', id', edges', visited', services'⟩ h
  simp only [Flow.toJson, obj.injEq, List.cons.injEq, Prod.mk.injEq, str.injEq, true_and,
    and_true] at h
  obtain ⟨rfl, rfl, hedges, hvisited, hservices⟩ := h
  rw [arr_map_injective toJson_injective_edge hedges, strings_toList_injective hvisited,
    strings_toList_injective hservices]

lemma toJson_injective_subscription : Function.Injective Subscription.toJson := by
  rintro ⟨event, publisher, listener, useCase, id⟩ ⟨event', publisher', listener', useCase', id'⟩ h
  simp_all [Subscription.toJson]

lemma toJson_injective_dependency : Function.Injective Dependency.toJson := by
  rintro ⟨source, target, label⟩ ⟨source', target', label'⟩ h
  simp_all [Dependency.toJson]

/-- The members of the publishers are events, in the order of the map. -/
lemma publishers_injective :
    Function.Injective fun m : OrderedMap String String =>
      m.entries.map fun p => (p.1, str p.2) := by
  intro m n h
  have hentry : Function.Injective fun p : String × String => (p.1, str p.2) := by
    rintro ⟨k, v⟩ ⟨k', v'⟩ h
    simp_all
  exact OrderedMap.ext (hentry.list_map h)

/-! ## Models -/

lemma toJson_injective_model : Function.Injective Model.toJson := by
  intro m n h
  simp only [Model.toJson, obj.injEq, List.cons.injEq, Prod.mk.injEq, true_and, and_true] at h
  obtain ⟨hactors, hdomains, hservices, hexposures, harchitectures, huseCases, hflows,
    hsubscriptions, hpublishers, hdependencies⟩ := h
  obtain ⟨_, _, _, _, _, _, _, _, _, _⟩ := m
  obtain ⟨_, _, _, _, _, _, _, _, _, _⟩ := n
  rw [Model.mk.injEq]
  exact ⟨arr_map_injective toJson_injective_actor hactors,
    arr_map_injective toJson_injective_domain hdomains,
    arr_map_injective toJson_injective_service hservices,
    arr_map_injective toJson_injective_exposure hexposures,
    arr_map_injective toJson_injective_architecture harchitectures,
    arr_map_injective toJson_injective_useCase huseCases,
    arr_map_injective toJson_injective_flow hflows,
    arr_map_injective toJson_injective_subscription hsubscriptions,
    publishers_injective hpublishers,
    arr_map_injective toJson_injective_dependency hdependencies⟩

/-- **The JSON text of a model loses nothing.**  Under every configuration, and so with and without
line breaks, models that differ in any component have different texts. -/
theorem render_json_injective (c : Configuration) : Function.Injective (c.render .json) := by
  intro m n h
  exact toJson_injective_model (render_injective c.pretty h)

end ArchLang
