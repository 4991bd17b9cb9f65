import ArchLang.Assembly.Program
import Mathlib.Data.List.Basic
import Mathlib.Data.List.Flatten
import Mathlib.Data.List.Nodup
import Mathlib.Tactic.Common
import Std.Data.String.ToNat

/-!
# Identifiers

Scenarios and actions draw their identifiers from one counter that runs through the use cases, so an
identifier says where its owner stands, and no two owners share one.

* `Item` — what draws an identifier; `Item.drawn n` is the one that it draws when the counter is at
  `n`.  Different numbers never give the same identifier, also not across the two kinds
  (`drawn_injective`).
* `DrawnFrom n items` — the items draw one after another from `n` on.  It splits along an append, so
  the borders between scenarios and use cases do not matter (`drawnFrom_append`).
* `drawnFrom_items` — the items of a program draw from one on; `DrawnFrom.nodup` is why they are
  distinct.
* **`ids_nodup`** — the scenarios of a program have distinct identifiers.
-/

namespace ArchLang

/-- Different numbers give different identifiers. -/
lemma scenarioId_injective : Function.Injective scenarioId := by
  intro m n h
  exact Nat.repr_injective ((String.append_right_inj "scenario_").1 h)

lemma actionId_injective : Function.Injective actionId := by
  intro m n h
  exact Nat.repr_injective ((String.append_right_inj "action_").1 h)

/-- The two kinds of identifiers begin with different letters. -/
lemma scenarioId_ne_actionId (m n : ℕ) : scenarioId m ≠ actionId n := by
  intro h
  have hhead := congrArg (fun id => id.toList.head?) h
  simp [scenarioId, actionId] at hhead

/-! ## What draws an identifier -/

/-- A scenario or a step of one. -/
inductive Item where
  | scenario (scenario : Scenario)
  | step (step : Step)

namespace Item

/-- The identifier that the item has. -/
def id : Item → String
  | scenario s => s.id
  | step s => s.id

/-- The identifier that the item draws when the counter is at `n`. -/
def drawn (n : ℕ) : Item → String
  | scenario _ => scenarioId n
  | step _ => actionId n

/-- The number can be read off, whatever kind of item drew it. -/
lemma drawn_injective {m n : ℕ} {x y : Item} (h : x.drawn m = y.drawn n) : m = n := by
  cases x <;> cases y
  · exact scenarioId_injective h
  · exact absurd h (scenarioId_ne_actionId m n)
  · exact absurd h.symm (scenarioId_ne_actionId n m)
  · exact actionId_injective h

end Item

/-- A scenario, followed by its steps. -/
def Scenario.items (s : Scenario) : List Item := .scenario s :: s.steps.map .step

/-- The scenarios of all use cases in source order, each followed by its steps. -/
def Model.items (m : Model) : List Item :=
  m.useCases.flatMap fun u => u.scenarios.flatMap Scenario.items

/-- The items draw their identifiers one after another, the first at `n`. -/
def DrawnFrom : ℕ → List Item → Prop
  | _, [] => True
  | n, item :: rest => item.id = item.drawn n ∧ DrawnFrom (n + 1) rest

lemma drawnFrom_append {n : ℕ} {xs ys : List Item} :
    DrawnFrom n (xs ++ ys) ↔ DrawnFrom n xs ∧ DrawnFrom (n + xs.length) ys := by
  induction xs generalizing n with
  | nil => simp [DrawnFrom]
  | cons x xs ih =>
      rw [List.cons_append, DrawnFrom, ih, DrawnFrom, and_assoc, List.length_cons,
        Nat.add_right_comm]
      rfl

namespace DrawnFrom

variable {n k : ℕ} {items : List Item} {item : Item}

/-- The item at a position has drawn at the number of that position. -/
lemma id_of_getElem? (h : DrawnFrom n items) (hitem : items[k]? = some item) :
    item.id = item.drawn (n + k) := by
  induction items generalizing n k with
  | nil => simp at hitem
  | cons x xs ih =>
      cases k with
      | zero =>
          obtain rfl : x = item := by simpa using hitem
          exact h.1
      | succ k =>
          rw [List.getElem?_cons_succ] at hitem
          rw [ih h.2 hitem, Nat.add_right_comm n 1 k]
          rfl

lemma exists_number (h : DrawnFrom n items) (hitem : item ∈ items) :
    ∃ k, item.id = item.drawn k := by
  obtain ⟨k, hk⟩ := List.mem_iff_getElem?.1 hitem
  exact ⟨n + k, h.id_of_getElem? hk⟩

/-- No two of the items have the same identifier. -/
lemma nodup (h : DrawnFrom n items) : (items.map Item.id).Nodup := by
  rw [List.nodup_iff_getElem?_ne_getElem?]
  intro i j hij hj hsame
  rw [List.length_map] at hj
  have hi : i < items.length := Nat.lt_trans hij hj
  rw [List.getElem?_map, List.getElem?_map, List.getElem?_eq_getElem hi,
    List.getElem?_eq_getElem hj, Option.map_some, Option.map_some, Option.some.injEq,
    h.id_of_getElem? (List.getElem?_eq_getElem hi),
    h.id_of_getElem? (List.getElem?_eq_getElem hj)] at hsame
  have := Item.drawn_injective hsame
  omega

end DrawnFrom

/-! ## One counter for all use cases -/

lemma drawnFrom_stepsFrom (n : ℕ) (as : List (Action (List String))) :
    DrawnFrom n ((stepsFrom n as).map .step) := by
  induction as generalizing n with
  | nil => trivial
  | cons a as ih => exact ⟨rfl, ih (n + 1)⟩

lemma length_stepsFrom (n : ℕ) (as : List (Action (List String))) :
    (stepsFrom n as).length = as.length := by
  induction as generalizing n with
  | nil => rfl
  | cons a as ih => rw [stepsFrom, List.length_cons, ih, List.length_cons]

/-- A scenario hands on a counter that all of its items have drawn from. -/
lemma length_items_numbered (n : ℕ) (d : ScenarioDecl) :
    (Scenario.numbered n d).items.length = d.draws := by
  simp [Scenario.items, Scenario.numbered, length_stepsFrom, ScenarioDecl.draws]

lemma drawnFrom_scenariosFrom (n : ℕ) (ds : List ScenarioDecl) :
    DrawnFrom n ((scenariosFrom n ds).flatMap Scenario.items) := by
  induction ds generalizing n with
  | nil => trivial
  | cons d ds ih =>
      rw [scenariosFrom, List.flatMap_cons, drawnFrom_append, length_items_numbered]
      exact ⟨⟨rfl, drawnFrom_stepsFrom (n + 1) _⟩, ih (n + d.draws)⟩

lemma scenariosFrom_append (n : ℕ) (ds es : List ScenarioDecl) :
    scenariosFrom n (ds ++ es)
      = scenariosFrom n ds ++ scenariosFrom (ds.foldr (fun d k => d.draws + k) 0 + n) es := by
  induction ds generalizing n with
  | nil => simp [scenariosFrom]
  | cons d ds ih =>
      have hnext : ds.foldr (fun d k => d.draws + k) 0 + (n + d.draws)
          = (d :: ds).foldr (fun d k => d.draws + k) 0 + n := by
        rw [List.foldr_cons]
        omega
      rw [List.cons_append, scenariosFrom, ih, scenariosFrom, List.cons_append, hnext]

lemma useCasesFrom_append (n : ℕ) (us vs : List UseCaseDecl) :
    useCasesFrom n (us ++ vs)
      = useCasesFrom n us ++ useCasesFrom (us.foldr (fun u k => u.draws + k) 0 + n) vs := by
  induction us generalizing n with
  | nil => simp [useCasesFrom]
  | cons u us ih =>
      have hnext : us.foldr (fun u k => u.draws + k) 0 + (n + u.draws)
          = (u :: us).foldr (fun u k => u.draws + k) 0 + n := by
        rw [List.foldr_cons]
        omega
      rw [List.cons_append, useCasesFrom, ih, useCasesFrom, List.cons_append, hnext]

/-- The scenarios of all use cases draw as if they stood in one list. -/
lemma scenarios_useCasesFrom (n : ℕ) (us : List UseCaseDecl) :
    (useCasesFrom n us).flatMap UseCase.scenarios
      = scenariosFrom n (us.flatMap UseCaseDecl.scenarios) := by
  induction us generalizing n with
  | nil => rfl
  | cons u us ih =>
      rw [useCasesFrom, List.flatMap_cons, ih, List.flatMap_cons, scenariosFrom_append,
        Nat.add_comm n]
      rfl

/-! ## The whole program -/

section Program

variable {policies : Policies} {ds : List Declaration} {m : Model}

/-- The items of a program draw from one on. -/
theorem drawnFrom_items (hm : m.AssembledFrom policies ds) : DrawnFrom 1 m.items := by
  rw [Model.items, ← List.flatMap_assoc, hm.useCases, scenarios_useCasesFrom]
  exact drawnFrom_scenariosFrom 1 _

lemma mem_items {u : UseCase} (hu : u ∈ m.useCases) {s : Scenario} (hs : s ∈ u.scenarios) :
    .scenario s ∈ m.items :=
  List.mem_flatMap.2 ⟨u, hu, List.mem_flatMap.2 ⟨s, hs, List.mem_cons_self⟩⟩

/-- The identifiers of scenarios stand among those of all items. -/
lemma scenarioIds_sublist (m : Model) :
    (m.scenarios.map fun x => x.2.id).Sublist (m.items.map Item.id) := by
  rw [Model.scenarios, Model.items, List.map_flatMap, List.map_flatMap]
  refine List.Sublist.flatMap_right _ fun u _ => ?_
  rw [List.map_map, List.map_flatMap, List.map_eq_flatMap]
  exact List.Sublist.flatMap_right _ fun s _ => List.singleton_sublist.2 List.mem_cons_self

/-- **Identifiers of scenarios are distinct.** -/
theorem ids_nodup (hm : m.AssembledFrom policies ds) :
    (m.scenarios.map fun x => x.2.id).Nodup :=
  (drawnFrom_items hm).nodup.sublist (scenarioIds_sublist m)

end Program

end ArchLang
