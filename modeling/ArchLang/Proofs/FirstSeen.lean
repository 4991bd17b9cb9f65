import ArchLang.Ordered.Map
import ArchLang.Ordered.Set
import Mathlib.Data.List.Basic
import Mathlib.Data.List.Induction
import Mathlib.Tactic.Common

/-!
# First-seen order

What the ordered sets and maps of this library hold, said without the order in which they were
filled.

**Sets.**  `List.eraseDups` keeps the first of equal elements, so it does not matter whether a part
of a list lost its repetitions before: `eraseDups_append_eraseDups`, `eraseDups_flatMap_eraseDups`.
Hence a set of a longer list is a union (`OrderedSet.ofList_append_toList`).

**Maps.**  `OrderedMap.gather` enters pairs one after another.  Its keys are the distinct keys of
the pairs (`OrderedMap.keys_gather`), and the value of a key is the combination of the values that
came with it, whatever stood between them (`OrderedMap.get?_gather`).  `OrderedMap.values_gather`
puts the two together; every merge of the library rests on it, by
`OrderedMap.values_gather_together`.

**Look-ups.**  In a list whose keys are distinct a search by key finds the element itself
(`find?_of_nodup_keys`), also after a `filterMap` that keeps keys (`find?_filterMap_of_nodup_keys`).
-/

namespace ArchLang

/-! ## Lists of lists -/

section FlatMap

variable {α β : Type}

/-- The first of all is the first of the firsts. -/
lemma head?_flatMap_eq (g : α → List β) (xs : List α) :
    (xs.flatMap g).head? = (xs.filterMap fun x => (g x).head?).head? := by
  rw [List.head?_flatMap, List.head?_filterMap]

lemma flatMap_filter (p : α → Bool) (g : α → List β) (xs : List α) :
    (xs.filter p).flatMap g = xs.flatMap fun x => if p x then g x else [] := by
  induction xs with
  | nil => rfl
  | cons x xs ih =>
      cases h : p x with
      | true =>
          rw [List.filter_cons_of_pos h, List.flatMap_cons, List.flatMap_cons, ih, h, if_pos rfl]
      | false =>
          rw [List.filter_cons_of_neg (by simp [h]), List.flatMap_cons, ih, h]
          rfl

end FlatMap

/-! ## Lists without repetitions -/

section EraseDups

variable {α β : Type} [DecidableEq α]

/-- Only the elements of the list that is removed matter, not how often they occur. -/
lemma removeAll_eraseDups (xs ys : List α) : ys.removeAll xs.eraseDups = ys.removeAll xs := by
  simp only [List.removeAll]
  refine List.filter_congr fun y _ => ?_
  simp [List.mem_eraseDups]

lemma eraseDups_idem (xs : List α) : xs.eraseDups.eraseDups = xs.eraseDups :=
  eraseDups_of_nodup (nodup_eraseDups xs)

/-- A filter may come before or after: it lets all equal elements pass or none. -/
lemma eraseDups_filter (p : α → Bool) : ∀ xs : List α,
    (xs.filter p).eraseDups = xs.eraseDups.filter p
  | [] => by simp
  | x :: xs => by
      have ih := eraseDups_filter p (xs.filter fun y => !y == x)
      rw [List.eraseDups_cons]
      cases hx : p x with
      | true =>
          rw [List.filter_cons_of_pos hx, List.filter_cons_of_pos hx, List.eraseDups_cons,
            List.filter_filter, ← ih, List.filter_filter]
          simp only [Bool.and_comm]
      | false =>
          have hne : (xs.filter p).filter (fun y => !y == x) = xs.filter p := by
            refine List.filter_eq_self.2 fun y hy => ?_
            have hpy := (List.mem_filter.1 hy).2
            have : y ≠ x := by
              rintro rfl
              rw [hx] at hpy
              exact absurd hpy (by simp)
            simpa using this
          rw [List.filter_cons_of_neg (by simp [hx]), List.filter_cons_of_neg (by simp [hx]), ← ih,
            List.filter_filter, ← hne, List.filter_filter]
          simp only [Bool.and_comm]
termination_by xs => xs.length
decreasing_by exact Nat.lt_succ_of_le (List.length_filter_le _ _)

lemma eraseDups_eraseDups_append (xs ys : List α) :
    (xs.eraseDups ++ ys).eraseDups = (xs ++ ys).eraseDups := by
  rw [List.eraseDups_append, List.eraseDups_append, eraseDups_idem, removeAll_eraseDups]

lemma eraseDups_append_eraseDups (xs ys : List α) :
    (xs ++ ys.eraseDups).eraseDups = (xs ++ ys).eraseDups := by
  rw [List.eraseDups_append, List.eraseDups_append]
  simp only [List.removeAll]
  rw [← eraseDups_filter, eraseDups_idem]

/-- What was there before is not seen for the first time. -/
lemma eraseDups_append_of_subset {xs ys : List α} (h : ys ⊆ xs) :
    (xs ++ ys).eraseDups = xs.eraseDups := by
  have hnew : ys.removeAll xs = [] := by
    refine List.filter_eq_nil_iff.2 fun y hy => ?_
    simp [h hy]
  rw [List.eraseDups_append, hnew, List.eraseDups_nil, List.append_nil]

/-- Repetitions may be dropped inside the parts first. -/
lemma eraseDups_flatMap_eraseDups (f : β → List α) : ∀ xs : List β,
    (xs.flatMap fun x => (f x).eraseDups).eraseDups = (xs.flatMap f).eraseDups
  | [] => rfl
  | x :: xs => by
      rw [List.flatMap_cons, List.flatMap_cons, eraseDups_eraseDups_append,
        ← eraseDups_append_eraseDups, eraseDups_flatMap_eraseDups f xs, eraseDups_append_eraseDups]

/-- One more element is kept exactly if it is new. -/
lemma eraseDups_append_singleton (xs : List α) (x : α) :
    (xs ++ [x]).eraseDups = if x ∈ xs.eraseDups then xs.eraseDups else xs.eraseDups ++ [x] := by
  rw [List.eraseDups_append]
  by_cases hx : x ∈ xs
  · simp [List.removeAll, List.mem_eraseDups, hx]
  · simp [List.removeAll, List.mem_eraseDups, hx, List.eraseDups_cons]

/-- Elements that are spread out into copies of one value leave that value once. -/
lemma eraseDups_flatMap_of_copies {g : β → List α} {f : β → α} (hne : ∀ x, g x ≠ [])
    (hg : ∀ x, ∀ y ∈ g x, y = f x) (xs : List β) :
    (xs.flatMap g).eraseDups = (xs.map f).eraseDups := by
  have hcopies : ∀ x, (g x).eraseDups = [f x] := by
    intro x
    cases hx : g x with
    | nil => exact absurd hx (hne x)
    | cons y ys =>
        have hy : ∀ z ∈ y :: ys, z = f x := hx ▸ hg x
        rw [List.eraseDups_cons, hy y (List.mem_cons_self ..)]
        have hrest : ys.filter (fun z => !z == f x) = [] :=
          List.filter_eq_nil_iff.2 fun z hz => by simp [hy z (List.mem_cons_of_mem _ hz)]
        rw [hrest, List.eraseDups_nil]
  rw [← eraseDups_flatMap_eraseDups]
  simp only [hcopies]
  rw [← List.map_eq_flatMap]

end EraseDups

namespace OrderedSet

variable {α : Type} [DecidableEq α]

/-- The set of a list that goes on with the elements of a set. -/
lemma ofList_append_toList (xs : List α) (s : OrderedSet α) :
    ofList (xs ++ s.toList) = (ofList xs).union s :=
  ext (by simp [eraseDups_eraseDups_append])

end OrderedSet

/-! ## Look-ups by key -/

section Keys

variable {α β κ : Type} {key : α → κ}

/-- A `filterMap` that keeps keys leaves out some of them. -/
lemma map_filterMap_sublist {key' : β → κ} {f : α → Option β}
    (hf : ∀ x y, f x = some y → key' y = key x) (xs : List α) :
    ((xs.filterMap f).map key').Sublist (xs.map key) := by
  induction xs with
  | nil => exact List.Sublist.refl _
  | cons x xs ih =>
      cases hx : f x with
      | none =>
          rw [List.filterMap_cons_none hx, List.map_cons]
          exact ih.cons _
      | some y =>
          rw [List.filterMap_cons_some hx, List.map_cons, List.map_cons, hf x y hx]
          exact ih.cons_cons _

variable [DecidableEq κ]

/-- Where keys are distinct, an element is found under its own key. -/
lemma find?_of_nodup_keys : ∀ {xs : List α}, (xs.map key).Nodup → ∀ {x : α}, x ∈ xs →
    (xs.find? fun y => key y = key x) = some x
  | y :: ys, h, x, hx => by
      obtain ⟨hy, hys⟩ := List.nodup_cons.1 h
      rcases List.mem_cons.1 hx with rfl | hx
      · simp
      · have hne : key y ≠ key x := fun e => hy (e ▸ List.mem_map_of_mem hx)
        rw [List.find?_cons_of_neg (by simpa using hne)]
        exact find?_of_nodup_keys hys hx

/-- Where keys are distinct and `f` keeps them, the search behind a `filterMap` finds what `f` makes
of the element with the key, or nothing if `f` drops that element. -/
lemma find?_filterMap_of_nodup_keys {key' : β → κ} {f : α → Option β}
    (hf : ∀ x y, f x = some y → key' y = key x) {xs : List α} (h : (xs.map key).Nodup) {x : α}
    (hx : x ∈ xs) : ((xs.filterMap f).find? fun y => key' y = key x) = f x := by
  induction xs with
  | nil => exact absurd hx (List.not_mem_nil)
  | cons z zs ih =>
      obtain ⟨hz, hzs⟩ := List.nodup_cons.1 h
      rcases List.mem_cons.1 hx with rfl | hx
      · -- the element itself: nothing behind it has its key
        have hrest : ((zs.filterMap f).find? fun y => key' y = key x) = none := by
          refine List.find?_eq_none.2 fun y hy => ?_
          obtain ⟨a, ha, hay⟩ := List.mem_filterMap.1 hy
          have : key a ≠ key x := fun e => hz (e ▸ List.mem_map_of_mem ha)
          simpa [hf a y hay] using this
        cases hfx : f x with
        | none => rw [List.filterMap_cons_none hfx, hrest]
        | some y =>
            rw [List.filterMap_cons_some hfx, List.find?_cons_of_pos]
            simp [hf x y hfx]
      · have hne : key z ≠ key x := fun e => hz (e ▸ List.mem_map_of_mem hx)
        cases hfz : f z with
        | none => rw [List.filterMap_cons_none hfz, ih hzs hx]
        | some y =>
            rw [List.filterMap_cons_some hfz, List.find?_cons_of_neg (by simp [hf z y hfz, hne]),
              ih hzs hx]

end Keys

/-! ## Maps that gather pairs -/

section Combine

variable {ν : Type}

/-- The values combined from left to right; there is nothing to combine in the empty list. -/
def combineAll? (combine : ν → ν → ν) : List ν → Option ν
  | [] => none
  | v :: vs => some (vs.foldl combine v)

lemma combineAll?_append_singleton (combine : ν → ν → ν) (vs : List ν) (v : ν) :
    combineAll? combine (vs ++ [v]) = some ((combineAll? combine vs).elim v (combine · v)) := by
  cases vs with
  | nil => rfl
  | cons w ws => simp [combineAll?]

lemma isSome_combineAll? (combine : ν → ν → ν) (vs : List ν) :
    (combineAll? combine vs).isSome = !vs.isEmpty := by
  cases vs <;> rfl

end Combine

namespace OrderedMap

variable {κ ν : Type} [DecidableEq κ]

/-- The values of the pairs with this key, in order. -/
def valuesOf (k : κ) (pairs : List (κ × ν)) : List ν :=
  (pairs.filter fun pair => pair.1 = k).map Prod.snd

lemma valuesOf_append_singleton (k : κ) (pairs : List (κ × ν)) (pair : κ × ν) :
    valuesOf k (pairs ++ [pair]) =
      if pair.1 = k then valuesOf k pairs ++ [pair.2] else valuesOf k pairs := by
  by_cases h : pair.1 = k
  · simp [valuesOf, h]
  · simp [valuesOf, h]

/-- An entry changes the value of its own key and of no other. -/
lemma get?_insertWith (combine : ν → ν → ν) (k k' : κ) (v : ν) (m : OrderedMap κ ν) :
    (m.insertWith combine k v).get? k' =
      if k = k' then some ((m.get? k').elim v (combine · v)) else m.get? k' := by
  obtain ⟨es, hes⟩ := m
  simp only [insertWith, get?]
  clear hes
  induction es with
  | nil => by_cases h : k = k' <;> simp [enter, h]
  | cons e es ih =>
      obtain ⟨k₀, old⟩ := e
      by_cases h₀ : k₀ = k
      · subst h₀
        by_cases h : k₀ = k' <;> simp [enter, h]
      · by_cases h : k₀ = k'
        · subst h
          simp [enter, h₀, Ne.symm h₀]
        · simpa [enter, h₀, h] using ih

/-- A value that its rule drops leaves the map as it is. -/
lemma insertWith_eq_self {combine : ν → ν → ν} {k : κ} {v old : ν} {m : OrderedMap κ ν}
    (hold : m.get? k = some old) (hkeep : combine old v = old) : m.insertWith combine k v = m := by
  obtain ⟨es, hes⟩ := m
  refine OrderedMap.ext ?_
  simp only [insertWith, get?] at hold ⊢
  clear hes
  induction es with
  | nil => exact absurd hold nofun
  | cons e es ih =>
      obtain ⟨k', w⟩ := e
      by_cases h : k' = k
      · have hw : w = old := by simpa [h] using hold
        simp [enter, h, hw, hkeep]
      · rw [List.find?_cons_of_neg (by simpa using h)] at hold
        rw [enter, if_neg h, ih hold]

variable (combine : ν → ν → ν)

lemma gather_append_singleton (pairs : List (κ × ν)) (pair : κ × ν) :
    gather combine (pairs ++ [pair]) = (gather combine pairs).insertWith combine pair.1 pair.2 := by
  simp [gather]

/-- The keys of a gathered map, in first-seen order. -/
theorem keys_gather (pairs : List (κ × ν)) :
    (gather combine pairs).keys = (pairs.map Prod.fst).eraseDups := by
  induction pairs using List.reverseRecOn with
  | nil => rfl
  | append_singleton pairs pair ih =>
      rw [gather_append_singleton, keys_insertWith, ih, List.map_append, List.map_singleton,
        eraseDups_append_singleton]

/-- The value of a key combines the values that came with it. -/
theorem get?_gather (pairs : List (κ × ν)) (k : κ) :
    (gather combine pairs).get? k = combineAll? combine (valuesOf k pairs) := by
  induction pairs using List.reverseRecOn with
  | nil => rfl
  | append_singleton pairs pair ih =>
      rw [gather_append_singleton, get?_insertWith, ih, valuesOf_append_singleton]
      by_cases h : pair.1 = k
      · rw [if_pos h, if_pos h, combineAll?_append_singleton]
      · rw [if_neg h, if_neg h]

/-- The values of a map are what its keys look up. -/
lemma values_eq_filterMap (m : OrderedMap κ ν) : m.values = m.keys.filterMap m.get? := by
  have found : ∀ e ∈ m.entries, m.get? e.1 = some e.2 := by
    intro e he
    rw [get?, find?_of_nodup_keys m.nodup he, Option.map_some]
  rw [keys, List.filterMap_map, values, ← List.filterMap_eq_map]
  exact List.filterMap_congr fun e he => (found e he).symm

/-- The values of a gathered map: for each distinct key the combination of its values. -/
theorem values_gather (pairs : List (κ × ν)) :
    (gather combine pairs).values = (pairs.map Prod.fst).eraseDups.filterMap fun k =>
      combineAll? combine (valuesOf k pairs) := by
  rw [values_eq_filterMap, keys_gather]
  exact List.filterMap_congr fun k _ => get?_gather combine pairs k

/-- Values that are gathered under a key of their own: for each distinct key the combination of the
values with that key. -/
theorem values_gather_map (key : ν → κ) (vs : List ν) :
    (gather combine (vs.map fun v => (key v, v))).values = (vs.map key).eraseDups.filterMap fun k =>
      combineAll? combine (vs.filter fun v => key v = k) := by
  have hkeys : (vs.map fun v => (key v, v)).map Prod.fst = vs.map key := by
    rw [List.map_map]
    rfl
  rw [values_gather, hkeys]
  refine List.filterMap_congr fun k _ => ?_
  have hvalues : valuesOf k (vs.map fun v => (key v, v)) = vs.filter fun v => key v = k := by
    simp [valuesOf, List.filter_map, Function.comp_def]
  rw [hvalues]

/-- If values with one key combine to what they say together, then what is gathered is said together
by the values of each distinct key. -/
theorem values_gather_together {combine : ν → ν → ν} {key : ν → κ} {together : κ → List ν → ν}
    (h : ∀ k vs, vs ≠ [] → (∀ v ∈ vs, key v = k) → combineAll? combine vs = some (together k vs))
    (vs : List ν) :
    (gather combine (vs.map fun v => (key v, v))).values = (vs.map key).eraseDups.map fun k =>
      together k (vs.filter fun v => key v = k) := by
  have hcombine : ∀ k ∈ (vs.map key).eraseDups,
      combineAll? combine (vs.filter fun v => key v = k)
        = some (together k (vs.filter fun v => key v = k)) := by
    intro k hk
    obtain ⟨v, hv, rfl⟩ := List.mem_map.1 (List.mem_eraseDups.1 hk)
    refine h _ _ (List.ne_nil_of_mem (List.mem_filter.2 ⟨hv, by simp⟩)) fun w hw => ?_
    simpa using (List.mem_filter.1 hw).2
  rw [values_gather_map, List.filterMap_congr hcombine, List.filterMap_eq_map']

end OrderedMap

end ArchLang
