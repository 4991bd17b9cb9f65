import ArchLang.Proofs.Listeners
import Mathlib.Data.List.Basic
import Mathlib.Data.List.Forall2
import Mathlib.Tactic.Common

/-!
# Flows stand beside their scenarios

Scenarios and flows of a model are two lists, and what ties them together are identifiers.  This
file says that the identifiers are fit for it: the `n`-th item of a program carries the number `n`,
so none is met twice, flows come in the order of the scenarios, and whoever looks up the flow of a
scenario gets the one that was made from it.

* `Aligned m` — all that, said of a model.
* **`aligned_ofDeclarations`** — every assembled model is aligned.
-/

namespace ArchLang

/-- Identifiers count the items of a model, and flows are found by them. -/
structure Aligned (m : Model) : Prop where
  /-- scenarios and steps are numbered from one on in source order, a scenario before its steps -/
  ids : ∀ (n : ℕ) (item : Item), m.items[n]? = some item → item.id = item.drawn (n + 1)
  /-- no two of them share an identifier -/
  distinct : (m.items.map Item.id).Nodup
  /-- one flow for each scenario, in the same order, under its names, and found by its identifier -/
  flows : List.Forall₂ (fun x f => IsFlow m x f ∧ f.useCase = x.1 ∧ f.scenarioId = x.2.id ∧
    m.flow? x.2.id = some f) m.scenarios m.flows

section Program

variable {policies : Policies} {ds : List Declaration} {m : Model}

lemma scenarioIds_flows (hm : m.AssembledFrom policies ds) :
    m.flows.map Flow.scenarioId = m.scenarios.map fun x => x.2.id := by
  rw [flows_eq hm, List.map_map]
  refine List.map_congr_left fun x _ => ?_
  simp [Model.alone, Flow.ofScenario]

/-- The flow of a scenario is found under its identifier: no other flow has it. -/
lemma flow?_eq (hm : m.AssembledFrom policies ds) {x : String × Scenario}
    (hx : x ∈ m.scenarios) :
    m.flow? x.2.id = some ((m.alone x).withListener m.subscriptions) := by
  have hids : (m.flows.map Flow.scenarioId).Nodup := by
    rw [scenarioIds_flows hm]
    exact ids_nodup hm
  have hmem : (m.alone x).withListener m.subscriptions ∈ m.flows := by
    rw [flows_eq hm]
    exact List.mem_map_of_mem hx
  have hfound := find?_of_nodup_keys hids hmem
  rw [scenarioId_withListener] at hfound
  exact hfound

end Program

/-- **Assembled models are aligned.**  One counter runs through the use cases of the declarations
(`Model.useCases_ofDeclarations`), and flows are made and found scenario by scenario. -/
theorem aligned_ofDeclarations (policies : Policies) (ds : List Declaration) :
    Aligned (Model.ofDeclarations policies ds) := by
  have hm := Model.assembledFrom_ofDeclarations policies ds
  generalize Model.ofDeclarations policies ds = m at hm ⊢
  have hdrawn : DrawnFrom 1 m.items := drawnFrom_items hm
  refine ⟨fun n item hitem => ?_, hdrawn.nodup, ?_⟩
  · rw [hdrawn.id_of_getElem? hitem, Nat.add_comm]
  · rw [flows_eq hm, List.forall₂_map_right_iff, List.forall₂_same]
    intro x hx
    exact ⟨isFlow_withListener hm hx, useCase_withListener _ _, scenarioId_withListener _ _,
      flow?_eq hm hx⟩

end ArchLang
