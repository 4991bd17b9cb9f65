import ArchLang.Proofs.Growth
import ArchLang.Proofs.ServiceMerge
import Mathlib.Data.List.DropRight
import Mathlib.Data.List.Infix
import Mathlib.Tactic.Common

/-!
# Merging again

A merge brings the declarations of a name together.  This file says what happens when some of them
come once more, and when some of them were merged before.

**Again.**  Declarations that repeat what was said change nothing.  How they may repeat it depends
on the policy (`ConflictPolicy.Repeats`): where the first value wins, in any order and any number;
where the last one wins, as they stood at the end, so the whole list may come again but not its
first part alone.  Sets and languages are plain (`eraseDups_append_of_subset`,
`ConflictPolicy.pick?_append`).  A deployment is not: where the last kind wins, the first of the
repeated deployments may be of a kind that had lost, and all rules are dropped before they are
built again.  `Deployment.counted_append` says that what is built has nothing new in it.

**In parts.**  Domains may be merged in parts first, since a union does not mind repetitions
inside its parts (`Domain.subDomains_mergeAll`).

* **`Service.mergeAll_again`** — a list of services that comes again changes nothing.
* **`Domain.mergeAll_in_parts`** — one domain for each name, the same if parts are merged before.
-/

namespace ArchLang

/-! ## Values that are repeated -/

/-- A run at the end of a list goes on before `ys` if all of `ys` belongs to it. -/
lemma rtakeWhile_append {α : Type} (p : α → Bool) (xs ys : List α) :
    (xs ++ ys).rtakeWhile p
      = if ∀ y ∈ ys, p y then xs.rtakeWhile p ++ ys else ys.rtakeWhile p := by
  induction ys using List.reverseRecOn with
  | nil => simp
  | append_singleton ys y ih =>
      rw [← List.append_assoc, List.rtakeWhile_concat, List.rtakeWhile_concat, ih]
      simp only [List.forall_mem_append, List.forall_mem_singleton]
      by_cases hy : p y
      · by_cases hys : ∀ z ∈ ys, p z
        · rw [if_pos hy, if_pos hys, if_pos ⟨hys, hy⟩, List.append_assoc]
        · rw [if_pos hy, if_neg hys, if_neg fun h => hys h.1, if_pos hy]
      · rw [if_neg hy, if_neg fun h => hy h.2, if_neg hy]

namespace ConflictPolicy

variable {α β : Type} {policy : ConflictPolicy} {xs ys : List α}

/-- What is said after `xs` was said before: anywhere if the first value wins, and at the end if the
last one wins. -/
def Repeats (policy : ConflictPolicy) (xs ys : List α) : Prop :=
  match policy with
  | firstWins => ys ⊆ xs
  | lastWins => ys <:+ xs

lemma Repeats.refl (policy : ConflictPolicy) (xs : List α) : policy.Repeats xs xs := by
  cases policy with
  | firstWins => exact List.Subset.refl xs
  | lastWins => exact List.suffix_refl xs

lemma Repeats.subset (h : policy.Repeats xs ys) : ys ⊆ xs := by
  cases policy with
  | firstWins => exact h
  | lastWins => exact List.IsSuffix.subset h

lemma Repeats.map (h : policy.Repeats xs ys) (f : α → β) :
    policy.Repeats (xs.map f) (ys.map f) := by
  cases policy with
  | firstWins => exact List.map_subset f h
  | lastWins => exact List.IsSuffix.map f h

lemma Repeats.filter (h : policy.Repeats xs ys) (p : α → Bool) :
    policy.Repeats (xs.filter p) (ys.filter p) := by
  cases policy with
  | firstWins => exact List.filter_subset p h
  | lastWins => exact List.IsSuffix.filter p h

lemma Repeats.filterMap (h : policy.Repeats xs ys) (f : α → Option β) :
    policy.Repeats (xs.filterMap f) (ys.filterMap f) := by
  cases policy with
  | firstWins => exact List.filterMap_subset f h
  | lastWins => exact List.IsSuffix.filterMap f h

/-- Values that are repeated do not change which one is picked. -/
lemma pick?_append (h : policy.Repeats xs ys) : policy.pick? (xs ++ ys) = policy.pick? xs := by
  cases ys with
  | nil => rw [List.append_nil]
  | cons y ys =>
      cases policy with
      | firstWins =>
          have hne : xs ≠ [] := List.ne_nil_of_mem (h List.mem_cons_self)
          exact List.head?_append_of_ne_nil xs hne
      | lastWins =>
          obtain ⟨front, rfl⟩ := h
          simp only [pick?, List.getLast?_append_of_ne_nil _ (List.cons_ne_nil y ys)]

end ConflictPolicy

/-- Elements that are repeated show nothing new in what is read off each of them. -/
lemma eraseDups_flatMap_append {α β : Type} [DecidableEq β] {xs ys : List α} (h : ys ⊆ xs)
    (f : α → List β) : ((xs ++ ys).flatMap f).eraseDups = (xs.flatMap f).eraseDups := by
  rw [List.flatMap_append]
  refine eraseDups_append_of_subset fun b hb => ?_
  obtain ⟨y, hy, hb⟩ := List.mem_flatMap.1 hb
  exact List.mem_flatMap.2 ⟨y, h hy, hb⟩

/-! ## Deployments that are repeated -/

namespace Deployment

variable {policy : ConflictPolicy} {ds es : List Deployment}

/-- Behind deployments that are repeated the same ones count, some of them maybe once more. -/
lemma counted_append (h : policy.Repeats ds es) (kind : String) :
    ∃ more ⊆ counted policy kind ds,
      counted policy kind (ds ++ es) = counted policy kind ds ++ more := by
  cases policy with
  | firstWins =>
      refine ⟨counted .firstWins kind es, (h.filter _).subset, ?_⟩
      simp only [counted, List.filter_append]
  | lastWins =>
      -- the repeated ones all belong to the last run, or they hold the whole of it
      obtain ⟨front, hfront⟩ := h.filter fun d => !d.isUnset
      simp only [counted, List.filter_append, ← hfront, rtakeWhile_append]
      split
      · exact ⟨_, List.subset_append_right _ _, rfl⟩
      · exact ⟨[], List.nil_subset _, (List.append_nil _).symm⟩

lemma together_append (h : policy.Repeats ds es) :
    together policy (ds ++ es) = together policy ds := by
  have hrules : ∀ kind, OrderedSet.ofList ((counted policy kind (ds ++ es)).flatMap rules)
      = .ofList ((counted policy kind ds).flatMap rules) := by
    intro kind
    obtain ⟨more, hmore, hcounted⟩ := counted_append h kind
    rw [hcounted]
    exact OrderedSet.ext (eraseDups_flatMap_append hmore rules)
  rw [together, List.filterMap_append, ConflictPolicy.pick?_append (h.filterMap kind?), together]
  simp only [hrules]

end Deployment

/-! ## Services that are repeated -/

namespace Service

variable {policy : ConflictPolicy} {xs ys : List Service}

lemma together_append (h : policy.Repeats xs ys) (n : String) :
    together policy n (xs ++ ys) = together policy n xs := by
  refine Service.ext rfl ?domains ?stores ?language ?deployment
  case domains => exact OrderedSet.ext (eraseDups_flatMap_append h.subset _)
  case stores => exact OrderedSet.ext (eraseDups_flatMap_append h.subset _)
  case language =>
    show policy.pick? ((xs ++ ys).filterMap Service.language) = policy.pick? (xs.filterMap language)
    rw [List.filterMap_append, ConflictPolicy.pick?_append (h.filterMap language)]
  case deployment =>
    show Deployment.together policy ((xs ++ ys).map deployment)
      = Deployment.together policy (xs.map deployment)
    rw [List.map_append, Deployment.together_append (h.map deployment)]

/-- Services that are repeated change nothing. -/
theorem mergeAll_append_of_repeats (h : policy.Repeats xs ys) :
    mergeAll policy (xs ++ ys) = mergeAll policy xs := by
  have hnames : ((xs ++ ys).map name).eraseDups = (xs.map name).eraseDups := by
    rw [List.map_append]
    exact eraseDups_append_of_subset (List.map_subset name h.subset)
  rw [mergeAll_eq_map_together, mergeAll_eq_map_together, hnames]
  refine List.map_congr_left fun n _ => ?_
  rw [List.filter_append, together_append (h.filter _)]

/-- **Merging again changes nothing.**  Under both policies a list of services that comes twice is
merged as if it came once, rules and their order included.  Where the first one wins, its services
may come again in any order and any number. -/
theorem mergeAll_again :
    (∀ (policy : ConflictPolicy) (xs : List Service),
      mergeAll policy (xs ++ xs) = mergeAll policy xs) ∧
    ∀ xs ys : List Service, (∀ s ∈ ys, s ∈ xs) →
      mergeAll .firstWins (xs ++ ys) = mergeAll .firstWins xs := by
  constructor
  · intro policy xs
    exact mergeAll_append_of_repeats (.refl policy xs)
  · intro xs ys h
    have hrepeats : ConflictPolicy.firstWins.Repeats xs ys := fun _ hs => h _ hs
    exact mergeAll_append_of_repeats hrepeats

/-- A service that says nothing but its deployment. -/
def deployed (name kind : String) (rules : List RolloutRule) : Service :=
  (named name).setDeployment (.planned kind (.ofList rules))

/-- Two kinds in turn under one name, and another service in between. -/
def canaryRollingCanary : List Service :=
  [deployed "Billing" "canary" [⟨"10%", "staging"⟩], deployed "Shop" "rolling" [],
    deployed "Billing" "rolling" [], deployed "Billing" "canary" [⟨"90%", "production"⟩]]

/-- Where the last one wins, the first part alone must not come again. -/
example : mergeAll .lastWins (canaryRollingCanary ++ canaryRollingCanary.take 1)
    ≠ mergeAll .lastWins canaryRollingCanary := by
  decide

theorem mergeAll_again_reversed :
    (∀ s ∈ canaryRollingCanary.reverse, s ∈ canaryRollingCanary) ∧
      mergeAll .firstWins (canaryRollingCanary ++ canaryRollingCanary.reverse)
        = mergeAll .firstWins canaryRollingCanary := by
  have hsame : ∀ s ∈ canaryRollingCanary.reverse, s ∈ canaryRollingCanary :=
    fun s hs => List.mem_reverse.1 hs
  exact ⟨hsame, mergeAll_again.2 canaryRollingCanary canaryRollingCanary.reverse hsame⟩

end Service

/-! ## Domains in parts -/

namespace Domain

/-- Under a name there is one merged domain, or none. -/
lemma filter_mergeAll (domains : List Domain) (n : String) :
    (mergeAll domains).filter (fun d => d.name = n)
      = if n ∈ domains.map name then [together n (domains.filter fun d => d.name = n)] else [] := by
  have hnames : (domains.map name).eraseDups.filter (fun m => m = n)
      = if n ∈ domains.map name then [n] else [] := by
    rw [List.filter_eq, (nodup_eraseDups _).count]
    simp only [List.mem_eraseDups]
    split <;> rfl
  rw [mergeAll_eq_map_together, List.filter_map]
  show ((domains.map name).eraseDups.filter fun m => m = n).map _ = _
  rw [hnames]
  split <;> rfl

/-- Domains that were merged before list the same sub-domains for each name, each once. -/
lemma subDomains_mergeAll (domains : List Domain) (n : String) :
    ((mergeAll domains).filter fun d => d.name = n).flatMap (fun d => d.subDomains.toList)
      = ((domains.filter fun d => d.name = n).flatMap fun d => d.subDomains.toList).eraseDups := by
  rw [filter_mergeAll]
  split
  · rw [List.flatMap_singleton]
    rfl
  · next hn =>
    -- no declaration has the name
    have hnone : (domains.filter fun d => d.name = n) = [] := by
      refine List.filter_eq_nil_iff.2 fun d hd hname => hn ?_
      exact of_decide_eq_true hname ▸ List.mem_map_of_mem hd
    rw [hnone]
    rfl

lemma together_mergeAll_append (xs ys : List Domain) (n : String) :
    together n ((mergeAll xs ++ mergeAll ys).filter fun d => d.name = n)
      = together n ((xs ++ ys).filter fun d => d.name = n) := by
  simp only [together, List.filter_append, List.flatMap_append, subDomains_mergeAll]
  congr 1
  ext1
  rw [OrderedSet.toList_ofList, eraseDups_eraseDups_append, eraseDups_append_eraseDups,
    OrderedSet.toList_ofList]

/-- **One domain for each distinct name**, in first-seen order, with the sub-domains of all its
declarations, each once and in first-seen order; and to merge two parts before the whole comes to
the same. -/
theorem mergeAll_in_parts :
    (∀ domains : List Domain,
      List.Forall₂ (fun n merged => merged.name = n ∧
          merged.subDomains.toList
            = ((domains.filter fun d => d.name = n).flatMap fun d => d.subDomains.toList).eraseDups)
        (domains.map name).eraseDups (mergeAll domains)) ∧
    ∀ xs ys : List Domain, mergeAll (mergeAll xs ++ mergeAll ys) = mergeAll (xs ++ ys) := by
  constructor
  · intro domains
    rw [mergeAll_eq_map_together, List.forall₂_map_right_iff, List.forall₂_same]
    exact fun n _ => ⟨rfl, rfl⟩
  · intro xs ys
    have hnames : ((mergeAll xs ++ mergeAll ys).map name).eraseDups
        = ((xs ++ ys).map name).eraseDups := by
      rw [List.map_append, names_mergeAll_domain, names_mergeAll_domain,
        eraseDups_eraseDups_append, eraseDups_append_eraseDups, List.map_append]
    rw [mergeAll_eq_map_together, mergeAll_eq_map_together (xs ++ ys), hnames]
    exact List.map_congr_left fun n _ => together_mergeAll_append xs ys n

end Domain

end ArchLang
