import ArchLang.Assembly.Merge
import ArchLang.Proofs.FirstSeen
import Mathlib.Data.List.DropRight
import Mathlib.Data.List.Forall2

/-!
# What merged services say

`Service.mergeAll` folds declarations one after another into the services it has so far.  This file
says what comes out without the fold: a merged service depends only on the declarations of its own
name, and each of its fields is a function of what these declarations say about that field.

* `ConflictPolicy.pick?` — the first or the last of the values that are there.
* `Deployment.counted` — the deployments whose rules count: all of the chosen kind when the first
  one wins, but only the last unbroken run of that kind when the last one wins, since a deployment
  of another kind replaces what stood there together with its rules.
* `Deployment.together`, `Service.together` — what a list of deployments and of services says.
* **`Service.mergeAll_eq_map_together`** — the merge is `Service.together` for every name.
* `MergedFrom` and **`mergeAll_mergedFrom`** — the same, field by field.

The one law behind it is that `together` takes one declaration more by one `merge`
(`Service.together_append_singleton`).  `Deployment.merge` is not associative, so declarations are
taken from the end of the list throughout.
-/

namespace ArchLang

/-! ## Picking a value -/

namespace ConflictPolicy

variable {α : Type}

/-- The value that a policy picks: the first or the last there is. -/
def pick? (policy : ConflictPolicy) (values : List α) : Option α :=
  match policy with
  | firstWins => values.head?
  | lastWins => values.getLast?

lemma pick?_eq_none {policy : ConflictPolicy} {xs : List α} :
    policy.pick? xs = none ↔ xs = [] := by
  cases policy <;> simp [pick?]

lemma mem_of_pick? {policy : ConflictPolicy} {xs : List α} {x : α}
    (h : policy.pick? xs = some x) : x ∈ xs := by
  cases policy with
  | firstWins => exact List.mem_of_mem_head? h
  | lastWins => exact List.mem_of_mem_getLast? h

/-- A value more: the policy chooses between it and the one picked before. -/
lemma pick?_append_singleton (policy : ConflictPolicy) (xs : List α) (x : α) :
    policy.pick? (xs ++ [x]) = some ((policy.pick? xs).elim x (policy.choose · x)) := by
  cases policy with
  | firstWins => cases xs <;> rfl
  | lastWins =>
      rw [pick?, List.getLast?_append_of_ne_nil _ (by simp)]
      cases h : xs.getLast? <;> simp [pick?, h, choose]

/-- To choose again with every value comes to the one that is picked of all. -/
lemma combineAll?_choose (policy : ConflictPolicy) (xs : List α) :
    combineAll? policy.choose xs = policy.pick? xs := by
  induction xs using List.reverseRecOn with
  | nil => cases policy <;> rfl
  | append_singleton xs x ih =>
      rw [combineAll?_append_singleton, pick?_append_singleton, ih]

end ConflictPolicy

/-- Languages merge to the one that the policy picks of those that are set. -/
lemma mergeLanguage_pick? (policy : ConflictPolicy) (xs : List String) (x : Option String) :
    mergeLanguage policy (policy.pick? xs) x = policy.pick? (xs ++ x.toList) := by
  cases x with
  | none =>
      rw [Option.toList_none, List.append_nil]
      cases policy.pick? xs <;> rfl
  | some x =>
      rw [Option.toList_some, ConflictPolicy.pick?_append_singleton]
      cases policy.pick? xs <;> rfl

/-! ## Deployments -/

namespace Deployment

/-- The deployments whose rules count for a kind.  When the first one wins, these are all of that
kind.  When the last one wins, a deployment of another kind forgets the rules before it: only the
last run of that kind counts, and deployments that say nothing do not break a run. -/
def counted (policy : ConflictPolicy) (kind : String) (declared : List Deployment) :
    List Deployment :=
  match policy with
  | .firstWins => declared.filter fun d => d.kind? = some kind
  | .lastWins => (declared.filter fun d => !d.isUnset).rtakeWhile fun d => d.kind? = some kind

/-- What a list of deployments says: the kind that the policy picks, with the rules that count. -/
def together (policy : ConflictPolicy) (declared : List Deployment) : Deployment :=
  match policy.pick? (declared.filterMap kind?) with
  | none => unset
  | some kind => planned kind (.ofList ((counted policy kind declared).flatMap rules))

lemma merge_unset (policy : ConflictPolicy) (d : Deployment) : d.merge policy unset = d := by
  cases d <;> rfl

lemma kind?_together (policy : ConflictPolicy) (declared : List Deployment) :
    (together policy declared).kind? = policy.pick? (declared.filterMap kind?) := by
  unfold together
  cases policy.pick? (declared.filterMap kind?) <;> rfl

lemma counted_append_unset (policy : ConflictPolicy) (kind : String) (ds : List Deployment) :
    counted policy kind (ds ++ [unset]) = counted policy kind ds := by
  cases policy <;> simp [counted, kind?, isUnset]

lemma counted_append_planned (policy : ConflictPolicy) (kind : String) (ds : List Deployment)
    (rs : OrderedSet RolloutRule) :
    counted policy kind (ds ++ [planned kind rs])
      = counted policy kind ds ++ [planned kind rs] := by
  cases policy with
  | firstWins => simp [counted, kind?]
  | lastWins =>
      simp only [counted, List.filter_append]
      exact List.rtakeWhile_concat_pos _ _ _ (by simp [kind?])

/-- Without any kind there is nothing to count. -/
lemma counted_of_no_kind (policy : ConflictPolicy) (kind : String) {ds : List Deployment}
    (h : ds.filterMap kind? = []) : counted policy kind ds = [] := by
  have hunset : ∀ d ∈ ds, d = unset := by
    intro d hd
    cases d with
    | unset => rfl
    | planned k rs => exact absurd (List.filterMap_eq_nil_iff.1 h _ hd) (by simp [kind?])
  cases policy with
  | firstWins =>
      refine List.filter_eq_nil_iff.2 fun d hd => ?_
      simp [hunset d hd, kind?]
  | lastWins =>
      have : ds.filter (fun d => !d.isUnset) = [] :=
        List.filter_eq_nil_iff.2 fun d hd => by simp [hunset d hd, isUnset]
      simp [counted, this]

/-- Behind a deployment of another kind no run of this kind is left. -/
lemma counted_lastWins_of_ne {kind kind' : String} (hne : kind' ≠ kind) {ds : List Deployment}
    (h : (ds.filterMap kind?).getLast? = some kind') : counted .lastWins kind ds = [] := by
  induction ds using List.reverseRecOn with
  | nil => rfl
  | append_singleton ds d ih =>
      cases d with
      | unset =>
          rw [counted_append_unset]
          exact ih (by simpa [kind?] using h)
      | planned k rs =>
          have hk : k = kind' := by simpa [kind?] using h
          subst hk
          simp only [counted, List.filter_append]
          exact List.rtakeWhile_concat_neg _ _ _ (by simpa [kind?] using hne)

/-- A deployment of another kind adds nothing to the ones that count when the first wins. -/
lemma counted_firstWins_append_of_ne {kind kind' : String} (hne : kind ≠ kind')
    (ds : List Deployment) (rs : OrderedSet RolloutRule) :
    counted .firstWins kind' (ds ++ [planned kind rs]) = counted .firstWins kind' ds := by
  simp [counted, kind?, hne]

/-- One deployment more is merged into what the ones before say. -/
theorem together_append_singleton (policy : ConflictPolicy) (ds : List Deployment)
    (d : Deployment) : together policy (ds ++ [d]) = (together policy ds).merge policy d := by
  cases d with
  | unset =>
      have hkinds : (ds ++ [unset]).filterMap kind? = ds.filterMap kind? := by
        rw [List.filterMap_append, List.filterMap_cons_none rfl, List.filterMap_nil,
          List.append_nil]
      rw [merge_unset, together, together, hkinds]
      simp only [counted_append_unset]
  | planned k rs =>
      have hkinds : (ds ++ [planned k rs]).filterMap kind? = ds.filterMap kind? ++ [k] := by
        simp [kind?]
      rw [together, together, hkinds, ConflictPolicy.pick?_append_singleton]
      cases hpick : policy.pick? (ds.filterMap kind?) with
      | none =>
          have hcounted := counted_of_no_kind policy k (ConflictPolicy.pick?_eq_none.1 hpick)
          simp [counted_append_planned, hcounted, merge, rules]
      | some k' =>
          by_cases hk : k' = k
          · subst hk
            have hchoose : policy.choose k' k' = k' := by cases policy <;> rfl
            simp [hchoose, counted_append_planned, merge, rules, OrderedSet.ofList_append_toList]
          · simp only [Option.elim_some, merge, if_neg hk]
            cases policy with
            | firstWins =>
                simp [ConflictPolicy.choose, counted_firstWins_append_of_ne (Ne.symm hk)]
            | lastWins =>
                have hcounted := counted_lastWins_of_ne hk hpick
                simp [ConflictPolicy.choose, counted_append_planned, hcounted, rules]

end Deployment

/-! ## Services -/

namespace Service

/-- What a list of declarations says about the service of one name. -/
def together (policy : ConflictPolicy) (name : String) (declared : List Service) : Service where
  name := name
  domains := .ofList (declared.flatMap fun s => s.domains.toList)
  dataStores := .ofList (declared.flatMap fun s => s.dataStores.toList)
  language := policy.pick? (declared.filterMap language)
  deployment := .together policy (declared.map deployment)
  language_ne := by
    intro h
    obtain ⟨s, _, hs⟩ := List.mem_filterMap.1 (ConflictPolicy.mem_of_pick? h)
    exact s.language_ne hs

lemma together_nil (policy : ConflictPolicy) (name : String) :
    together policy name [] = named name := by
  cases policy <;> rfl

/-- One declaration more is merged into what the ones before say. -/
theorem together_append_singleton (policy : ConflictPolicy) (name : String)
    (declared : List Service) (s : Service) :
    together policy name (declared ++ [s]) = (together policy name declared).merge policy s := by
  refine Service.ext rfl ?_ ?_ ?_ ?_
  · simp [together, merge, OrderedSet.ofList_append_toList]
  · simp [together, merge, OrderedSet.ofList_append_toList]
  · show policy.pick? ((declared ++ [s]).filterMap language) = _
    have hlanguages : (declared ++ [s]).filterMap language
        = declared.filterMap language ++ s.language.toList := by
      cases h : s.language <;> simp [h]
    rw [hlanguages, ← mergeLanguage_pick?]
    rfl
  · show Deployment.together policy ((declared ++ [s]).map deployment) = _
    rw [List.map_append, List.map_singleton, Deployment.together_append_singleton]
    rfl

/-- Declarations that are merged one after another say the same as all of them together. -/
theorem foldl_merge (policy : ConflictPolicy) (name : String) (before after : List Service) :
    after.foldl (merge policy) (together policy name before)
      = together policy name (before ++ after) := by
  induction after generalizing before with
  | nil => rw [List.foldl_nil, List.append_nil]
  | cons s after ih =>
      rw [List.foldl_cons, ← together_append_singleton, ih, List.append_assoc,
        List.singleton_append]

/-- A single declaration says what it says. -/
lemma together_singleton (policy : ConflictPolicy) (s : Service) :
    together policy s.name [s] = s := by
  rw [← List.nil_append [s], together_append_singleton, together_nil]
  refine Service.ext rfl ?_ ?_ ?_ ?_
  · exact OrderedSet.ofList_toList s.domains
  · exact OrderedSet.ofList_toList s.dataStores
  · show mergeLanguage policy none s.language = s.language
    cases s.language <;> rfl
  · show Deployment.unset.merge policy s.deployment = s.deployment
    cases s.deployment <;> rfl

/-- What the merge makes of declarations that all have one name. -/
lemma combineAll?_merge (policy : ConflictPolicy) {name : String} {declared : List Service}
    (hne : declared ≠ []) (hname : ∀ s ∈ declared, s.name = name) :
    combineAll? (merge policy) declared = some (together policy name declared) := by
  cases declared with
  | nil => exact absurd rfl hne
  | cons s rest =>
      obtain rfl := hname s (List.mem_cons_self ..)
      show some (rest.foldl (merge policy) s) = _
      conv_lhs => rw [← together_singleton policy s]
      rw [foldl_merge, List.singleton_append]

/-- **The merge without the fold.**  For each distinct name, in first-seen order, there is what the
declarations of that name say together. -/
theorem mergeAll_eq_map_together (policy : ConflictPolicy) (services : List Service) :
    mergeAll policy services = (services.map name).eraseDups.map fun n =>
      together policy n (services.filter fun s => s.name = n) :=
  OrderedMap.values_gather_together (fun _ _ => combineAll?_merge policy) services

end Service

/-! ## Field by field -/

/-- What it means that `merged` is the service of a name, made of these declarations. -/
structure MergedFrom (policy : ConflictPolicy) (name : String) (declared : List Service)
    (merged : Service) : Prop where
  name_eq : merged.name = name
  /-- domains are united in first-seen order -/
  domains : merged.domains.toList = (declared.flatMap fun s => s.domains.toList).eraseDups
  /-- and so are data stores -/
  dataStores : merged.dataStores.toList = (declared.flatMap fun s => s.dataStores.toList).eraseDups
  /-- of the languages that are set the first wins, or the last -/
  language : merged.language = policy.pick? (declared.filterMap Service.language)
  /-- of the deployment kinds that are set the first wins, or the last -/
  kind : merged.deployment.kind? = policy.pick? (declared.filterMap fun s => s.deployment.kind?)
  /-- without a kind nothing is said, with a kind there are the rules that count, each once -/
  rules : match merged.deployment.kind? with
    | none => merged.deployment = .unset
    | some kind => merged.deployment.rules
        = ((Deployment.counted policy kind (declared.map Service.deployment)).flatMap
            Deployment.rules).eraseDups

lemma together_mergedFrom (policy : ConflictPolicy) (name : String) (declared : List Service) :
    MergedFrom policy name declared (Service.together policy name declared) where
  name_eq := rfl
  domains := rfl
  dataStores := rfl
  language := rfl
  kind := by
    show (Deployment.together policy (declared.map Service.deployment)).kind? = _
    rw [Deployment.kind?_together, List.filterMap_map]
    rfl
  rules := by
    show match (Deployment.together policy (declared.map Service.deployment)).kind? with
      | none => Deployment.together policy (declared.map Service.deployment) = .unset
      | some kind => (Deployment.together policy (declared.map Service.deployment)).rules = _
    rw [Deployment.kind?_together, Deployment.together]
    cases policy.pick? ((declared.map Service.deployment).filterMap Deployment.kind?) <;> rfl

/-- **One service for each distinct name**, in first-seen order, and every field of it is made of
what all declarations of that name say, wherever they stand among the others. -/
theorem mergeAll_mergedFrom (policy : ConflictPolicy) (services : List Service) :
    List.Forall₂ (fun name => MergedFrom policy name (services.filter fun s => s.name = name))
      (services.map Service.name).eraseDups (Service.mergeAll policy services) := by
  rw [Service.mergeAll_eq_map_together, List.forall₂_map_right_iff, List.forall₂_same]
  intro name _
  exact together_mergedFrom policy name _

end ArchLang
