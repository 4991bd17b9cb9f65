import ArchLang.Assembly.Entities
import ArchLang.Proofs.ServiceMerge

/-!
# Splitting service blocks

A service block may hold several property lines, and a service may have several blocks.  One would
like a block to say the same as a row of blocks with one line each.  When the first value wins this
holds for the domains, the data stores, the language and the kind of the deployment
(`split_firstWins`), since each of them is read off the lines alone.

The rules of a deployment are different.  Inside a block lines of a second kind are dropped before
the block meets the others, so a line can be lost although its kind is the one that the service has
in the end.  Split blocks keep that line.

* `ServiceDecl.split` — a block for each property line.
* `RulesKept` — no block of a name hides rules of the kind that wins.
* **`split_firstWins`** — the merged services agree in all but rules, and in the rules exactly if
  `RulesKept` holds for every name.
* **`split_changes_rules`** — two blocks for which it does not hold.
-/

namespace ArchLang

/-! ## Blocks and their lines -/

namespace ServiceDecl

/-- A block for each property line, in order; a block without lines stays as it is. -/
def split (d : ServiceDecl) : List ServiceDecl :=
  match d.properties with
  | [] => [d]
  | lines => lines.map fun p => ⟨d.name, [p]⟩

/-- The deployments of a block, line by line. -/
def deployments (d : ServiceDecl) : List Deployment :=
  d.properties.filterMap fun
    | .deployment decl => some (.ofDecl decl)
    | _ => none

/-- The kind of a block: that of its first deployment line. -/
def kind? (d : ServiceDecl) : Option String := (d.deployments.filterMap Deployment.kind?).head?

/-- The rules that a block gives for a kind, on whatever lines. -/
def rulesOf (kind : String) (d : ServiceDecl) : List RolloutRule :=
  (d.deployments.filter fun x => x.kind? = some kind).flatMap Deployment.rules

end ServiceDecl

/-- No rule is hidden: blocks of the winning kind give all the rules that there are for this kind,
in the same first-seen order. -/
def RulesKept (blocks : List ServiceDecl) : Prop :=
  ∀ kind, (blocks.filterMap ServiceDecl.kind?).head? = some kind →
    ((blocks.filter fun d => d.kind? = some kind).flatMap (ServiceDecl.rulesOf kind)).eraseDups
      = (blocks.flatMap (ServiceDecl.rulesOf kind)).eraseDups

/-! ## What a block says -/

namespace Service

/-- The services of the single lines of a block. -/
def linesOf (d : ServiceDecl) : List Service := d.properties.map (ofProperty d.name.value)

/-- A block says what its lines say together. -/
theorem ofDecl_eq_together (d : ServiceDecl) :
    ofDecl d = together .firstWins d.name.value (linesOf d) := by
  rw [ofDecl, ← together_nil .firstWins, linesOf]
  conv_rhs => rw [← List.nil_append (d.properties.map _), ← foldl_merge]
  rw [List.foldl_map]

@[simp] lemma name_ofDecl (d : ServiceDecl) : (ofDecl d).name = d.name.value := by
  rw [ofDecl_eq_together]
  rfl

lemma ofDecl_of_line (name : Text) (p : PropertyDecl) :
    ofDecl ⟨name, [p]⟩ = ofProperty name.value p := by
  have hname : (ofProperty name.value p).name = name.value := by cases p <;> rfl
  have hone := together_singleton .firstWins (ofProperty name.value p)
  rw [hname] at hone
  rw [ofDecl_eq_together]
  exact hone

end Service

/-! ## Parts of a service that are lists

Domains, data stores, the language, the kind of the deployment and the rules of one kind are read
here as lists to which every service adds something.  A service of which only the name is known adds
nothing, and for such a reading it does not matter whether blocks were split. -/

section Readings

variable {β : Type} (f : Service → List β)

lemma flatMap_split (hf : ∀ name, f (.named name) = []) (d : ServiceDecl) :
    (d.split.map Service.ofDecl).flatMap f = (Service.linesOf d).flatMap f := by
  obtain ⟨name, properties⟩ := d
  cases properties with
  | nil =>
      show f (.named name.value) ++ [] = []
      rw [hf, List.nil_append]
  | cons p ps =>
      simp only [ServiceDecl.split, Service.linesOf, List.map_map, Function.comp_def,
        Service.ofDecl_of_line]

lemma flatMap_splitBlocks (hf : ∀ name, f (.named name) = []) (blocks : List ServiceDecl) :
    ((blocks.flatMap ServiceDecl.split).map Service.ofDecl).flatMap f
      = blocks.flatMap fun d => (Service.linesOf d).flatMap f := by
  rw [List.map_flatMap, List.flatMap_assoc]
  exact List.flatMap_congr fun d _ => flatMap_split f hf d

end Readings

namespace Service

/-- The rules of a service for one kind. -/
def rulesFor (kind : String) (s : Service) : List RolloutRule :=
  if s.deployment.kind? = some kind then s.deployment.rules else []

lemma kind?_together_firstWins (name : String) (declared : List Service) :
    (together .firstWins name declared).deployment.kind?
      = (declared.flatMap fun s => s.deployment.kind?.toList).head? := by
  show (Deployment.together .firstWins (declared.map deployment)).kind? = _
  rw [Deployment.kind?_together, List.filterMap_map, List.filterMap_eq_flatMap_toList]
  rfl

lemma language_together_firstWins (name : String) (declared : List Service) :
    (together .firstWins name declared).language
      = (declared.flatMap fun s => s.language.toList).head? := by
  rw [← List.filterMap_eq_flatMap_toList]
  rfl

/-- When the first kind wins, all services of that kind add their rules. -/
lemma rules_together_firstWins {name kind : String} {declared : List Service}
    (h : (together .firstWins name declared).deployment.kind? = some kind) :
    (together .firstWins name declared).deployment.rules
      = (declared.flatMap (rulesFor kind)).eraseDups := by
  have hpick : ConflictPolicy.firstWins.pick?
      ((declared.map deployment).filterMap Deployment.kind?) = some kind := by
    rw [← Deployment.kind?_together]
    exact h
  show (Deployment.together .firstWins (declared.map deployment)).rules = _
  rw [Deployment.together, hpick]
  show ((Deployment.counted .firstWins kind (declared.map deployment)).flatMap
    Deployment.rules).eraseDups = _
  rw [Deployment.counted, flatMap_filter, List.flatMap_map]
  simp only [decide_eq_true_eq]
  rfl

lemma kinds_linesOf (d : ServiceDecl) :
    ((linesOf d).flatMap fun s => s.deployment.kind?.toList)
      = d.deployments.filterMap Deployment.kind? := by
  rw [← List.filterMap_eq_flatMap_toList, linesOf, List.filterMap_map, ServiceDecl.deployments,
    List.filterMap_filterMap]
  refine List.filterMap_congr fun p _ => ?_
  cases p <;> rfl

lemma rules_linesOf (kind : String) (d : ServiceDecl) :
    (linesOf d).flatMap (rulesFor kind) = d.rulesOf kind := by
  obtain ⟨name, properties⟩ := d
  induction properties with
  | nil => rfl
  | cons p ps ih =>
      cases p with
      | deployment decl =>
          show rulesFor kind (ofProperty name.value (.deployment decl))
              ++ (linesOf ⟨name, ps⟩).flatMap (rulesFor kind)
            = ((Deployment.ofDecl decl :: ServiceDecl.deployments ⟨name, ps⟩).filter fun x =>
                x.kind? = some kind).flatMap Deployment.rules
          rw [ih, ServiceDecl.rulesOf]
          by_cases h : (Deployment.ofDecl decl).kind? = some kind
          · rw [List.filter_cons_of_pos (by simpa using h), List.flatMap_cons]
            exact congrArg (· ++ _) (if_pos h)
          · rw [List.filter_cons_of_neg (by simpa using h)]
            exact congrArg (· ++ _) (if_neg h)
      | _ => exact ih

end Service

/-! ## Whole blocks and split blocks -/

namespace Service

lemma kind?_ofDecl (d : ServiceDecl) : (ofDecl d).deployment.kind? = d.kind? := by
  rw [ofDecl_eq_together, kind?_together_firstWins, kinds_linesOf]
  rfl

lemma rules_ofDecl {kind : String} {d : ServiceDecl} (h : d.kind? = some kind) :
    (ofDecl d).deployment.rules = (d.rulesOf kind).eraseDups := by
  rw [← kind?_ofDecl, ofDecl_eq_together] at h
  rw [ofDecl_eq_together, rules_together_firstWins h, rules_linesOf]

/-- What the blocks of a name say together. -/
def ofBlocks (name : String) (blocks : List ServiceDecl) : Service :=
  together .firstWins name (blocks.map ofDecl)

/-- What they say when they are split before. -/
def ofSplitBlocks (name : String) (blocks : List ServiceDecl) : Service :=
  together .firstWins name ((blocks.flatMap ServiceDecl.split).map ofDecl)

lemma kind?_ofBlocks (name : String) (blocks : List ServiceDecl) :
    (ofBlocks name blocks).deployment.kind? = (blocks.filterMap ServiceDecl.kind?).head? := by
  rw [ofBlocks, kind?_together_firstWins, List.flatMap_map, List.filterMap_eq_flatMap_toList]
  simp only [kind?_ofDecl]

lemma kind?_ofSplitBlocks (name : String) (blocks : List ServiceDecl) :
    (ofSplitBlocks name blocks).deployment.kind? = (blocks.filterMap ServiceDecl.kind?).head? := by
  rw [ofSplitBlocks, kind?_together_firstWins, flatMap_splitBlocks _ fun _ => rfl]
  simp only [kinds_linesOf]
  exact head?_flatMap_eq _ _

/-- Of whole blocks only those that took the winning kind give their rules. -/
lemma rules_ofBlocks {name kind : String} {blocks : List ServiceDecl}
    (h : (blocks.filterMap ServiceDecl.kind?).head? = some kind) :
    (ofBlocks name blocks).deployment.rules
      = ((blocks.filter fun d => d.kind? = some kind).flatMap
          (ServiceDecl.rulesOf kind)).eraseDups := by
  have hrules : ∀ d, rulesFor kind (ofDecl d)
      = (if d.kind? = some kind then d.rulesOf kind else []).eraseDups := by
    intro d
    by_cases hd : d.kind? = some kind
    · rw [rulesFor, kind?_ofDecl, if_pos hd, if_pos hd, rules_ofDecl hd]
    · rw [rulesFor, kind?_ofDecl, if_neg hd, if_neg hd]
      rfl
  rw [← kind?_ofBlocks name] at h
  rw [ofBlocks, rules_together_firstWins h, List.flatMap_map, flatMap_filter]
  simp only [hrules, decide_eq_true_eq]
  exact eraseDups_flatMap_eraseDups _ _

/-- Of split blocks every line of the winning kind does. -/
lemma rules_ofSplitBlocks {name kind : String} {blocks : List ServiceDecl}
    (h : (blocks.filterMap ServiceDecl.kind?).head? = some kind) :
    (ofSplitBlocks name blocks).deployment.rules
      = (blocks.flatMap (ServiceDecl.rulesOf kind)).eraseDups := by
  rw [← kind?_ofSplitBlocks name] at h
  rw [ofSplitBlocks, rules_together_firstWins h, flatMap_splitBlocks _ fun _ => rfl]
  simp only [rules_linesOf]

/-- A deployment without a kind has no rules. -/
lemma rules_of_no_kind {d : Deployment} (h : d.kind? = none) :
    d.rules = [] := by
  cases d with
  | unset => rfl
  | planned k rs => exact absurd h (by simp [Deployment.kind?])

/-- The service without the rules of its deployment. -/
def withoutRules (s : Service) : Service :=
  s.setDeployment (match s.deployment.kind? with
    | none => .unset
    | some kind => .planned kind .empty)

/-- A service is known by its rules and the rest. -/
lemma eq_iff_withoutRules {s t : Service} (h : s.withoutRules = t.withoutRules) :
    s = t ↔ s.deployment.rules = t.deployment.rules := by
  refine ⟨fun e => by rw [e], fun hrules => ?_⟩
  have hname : s.withoutRules.name = t.withoutRules.name := by rw [h]
  have hdomains : s.withoutRules.domains = t.withoutRules.domains := by rw [h]
  have hstores : s.withoutRules.dataStores = t.withoutRules.dataStores := by rw [h]
  have hlanguage : s.withoutRules.language = t.withoutRules.language := by rw [h]
  have hdeployment : s.withoutRules.deployment = t.withoutRules.deployment := by rw [h]
  simp only [withoutRules, setDeployment] at hdeployment
  refine Service.ext hname hdomains hstores hlanguage ?_
  cases hs : s.deployment with
  | unset =>
      cases ht : t.deployment with
      | unset => rfl
      | planned k rs => simp [hs, ht, Deployment.kind?] at hdeployment
  | planned k rs =>
      cases ht : t.deployment with
      | unset => simp [hs, ht, Deployment.kind?] at hdeployment
      | planned k' rs' =>
          rw [hs, ht] at hdeployment hrules
          have hk : k = k' := by simpa [Deployment.kind?] using hdeployment
          rw [hk, OrderedSet.ext (show rs.toList = rs'.toList from hrules)]

/-- Splitting does not touch anything but rules. -/
lemma withoutRules_ofSplitBlocks (name : String) (blocks : List ServiceDecl) :
    (ofSplitBlocks name blocks).withoutRules = (ofBlocks name blocks).withoutRules := by
  have hunite : ∀ f : Service → OrderedSet String, (∀ n, f (named n) = .empty) →
      (∀ n ss, f (together .firstWins n ss) = .ofList (ss.flatMap fun s => (f s).toList)) →
      f (ofSplitBlocks name blocks) = f (ofBlocks name blocks) := by
    intro f hf htogether
    have hblock : ∀ d, (f (ofDecl d)).toList
        = ((linesOf d).flatMap fun s => (f s).toList).eraseDups := by
      intro d
      rw [ofDecl_eq_together, htogether]
      rfl
    rw [ofSplitBlocks, ofBlocks, htogether, htogether,
      flatMap_splitBlocks _ fun n => by rw [hf]; rfl, List.flatMap_map]
    simp only [hblock]
    exact OrderedSet.ext (eraseDups_flatMap_eraseDups _ _).symm
  refine Service.ext rfl ?_ ?_ ?_ ?_
  · exact hunite domains (fun _ => rfl) fun _ _ => rfl
  · exact hunite dataStores (fun _ => rfl) fun _ _ => rfl
  · show (ofSplitBlocks name blocks).language = (ofBlocks name blocks).language
    rw [ofSplitBlocks, ofBlocks, language_together_firstWins, language_together_firstWins,
      flatMap_splitBlocks _ fun _ => rfl, head?_flatMap_eq, List.flatMap_map,
      ← List.filterMap_eq_flatMap_toList]
    simp only [ofDecl_eq_together, language_together_firstWins]
  · simp only [withoutRules, setDeployment, kind?_ofSplitBlocks, kind?_ofBlocks]

/-- For one name, splitting changes nothing exactly if no rule was hidden. -/
lemma ofSplitBlocks_eq_iff (name : String) (blocks : List ServiceDecl) :
    ofSplitBlocks name blocks = ofBlocks name blocks ↔ RulesKept blocks := by
  rw [eq_iff_withoutRules (withoutRules_ofSplitBlocks name blocks), RulesKept]
  cases hkind : (blocks.filterMap ServiceDecl.kind?).head? with
  | none =>
      have hsplit := kind?_ofSplitBlocks name blocks
      have hwhole := kind?_ofBlocks name blocks
      rw [hkind] at hsplit hwhole
      rw [rules_of_no_kind hsplit, rules_of_no_kind hwhole]
      exact ⟨fun _ kind hk => absurd hk (by simp), fun _ => rfl⟩
  | some kind =>
      rw [rules_ofSplitBlocks hkind, rules_ofBlocks hkind]
      refine ⟨fun h k hk => ?_, fun h => (h kind rfl).symm⟩
      obtain rfl := Option.some.inj hk
      exact h.symm

end Service

/-- Blocks that name one kind each hide nothing. -/
lemma rulesKept_of_one_kind {blocks : List ServiceDecl}
    (h : ∀ d ∈ blocks, ∀ x ∈ d.deployments, ∀ y ∈ d.deployments, x.kind? = y.kind?) :
    RulesKept blocks := by
  intro kind _
  rw [flatMap_filter]
  refine congrArg List.eraseDups (List.flatMap_congr fun d hd => ?_)
  by_cases hkind : d.kind? = some kind
  · rw [if_pos (by simpa using hkind)]
  · rw [if_neg (by simpa using hkind), ServiceDecl.rulesOf]
    have hnone : d.deployments.filter (fun x => x.kind? = some kind) = [] := by
      refine List.filter_eq_nil_iff.2 fun x hx hxkind => hkind ?_
      have hall : ∀ y ∈ d.deployments, y.kind? = some kind := fun y hy =>
        (h d hd y hy x hx).trans (of_decide_eq_true hxkind)
      -- all lines have this kind, so the first one has it
      rw [ServiceDecl.kind?, List.head?_filterMap]
      cases hlines : d.deployments with
      | nil => exact absurd hx (by simp [hlines])
      | cons y ys => rw [List.findSome?_cons, hall y (by simp [hlines])]
    rw [hnone, List.flatMap_nil]

/-! ## All names -/

lemma split_ne_nil (d : ServiceDecl) : d.split ≠ [] := by
  obtain ⟨name, properties⟩ := d
  cases properties <;> simp [ServiceDecl.split]

lemma name_of_mem_split {d e : ServiceDecl} (h : e ∈ d.split) : e.name = d.name := by
  obtain ⟨name, properties⟩ := d
  cases properties with
  | nil => rw [List.mem_singleton.1 h]
  | cons p ps =>
      obtain ⟨q, _, rfl⟩ := List.mem_map.1 h
      rfl

lemma filter_split (name : String) (ds : List ServiceDecl) :
    (ds.flatMap ServiceDecl.split).filter (fun d => d.name.value = name)
      = (ds.filter fun d => d.name.value = name).flatMap ServiceDecl.split := by
  rw [List.filter_flatMap, flatMap_filter]
  refine List.flatMap_congr fun d _ => ?_
  by_cases hd : d.name.value = name
  · rw [if_pos (by simpa using hd)]
    exact List.filter_eq_self.2 fun e he => by simp [name_of_mem_split he, hd]
  · rw [if_neg (by simpa using hd)]
    exact List.filter_eq_nil_iff.2 fun e he => by simp [name_of_mem_split he, hd]

namespace Service

lemma mergeAll_blocks (ds : List ServiceDecl) :
    mergeAll .firstWins (ds.map ofDecl)
      = (ds.map fun d => d.name.value).eraseDups.map fun name =>
          ofBlocks name (ds.filter fun d => d.name.value = name) := by
  rw [mergeAll_eq_map_together, List.map_map]
  simp only [Function.comp_def, name_ofDecl, List.filter_map]
  rfl

lemma mergeAll_splitBlocks (ds : List ServiceDecl) :
    mergeAll .firstWins ((ds.flatMap ServiceDecl.split).map ofDecl)
      = (ds.map fun d => d.name.value).eraseDups.map fun name =>
          ofSplitBlocks name (ds.filter fun d => d.name.value = name) := by
  have hnames : ((ds.flatMap ServiceDecl.split).map fun d => d.name.value).eraseDups
      = (ds.map fun d => d.name.value).eraseDups := by
    rw [List.map_flatMap]
    refine eraseDups_flatMap_of_copies (fun d => ?_) (fun d y hy => ?_) ds
    · simpa using split_ne_nil d
    · obtain ⟨e, he, rfl⟩ := List.mem_map.1 hy
      rw [name_of_mem_split he]
  rw [mergeAll_blocks, hnames]
  simp only [ofBlocks, ofSplitBlocks, filter_split]

lemma mergeAll_split_iff (ds : List ServiceDecl) :
    mergeAll .firstWins ((ds.flatMap ServiceDecl.split).map ofDecl)
        = mergeAll .firstWins (ds.map ofDecl)
      ↔ ∀ name, RulesKept (ds.filter fun d => d.name.value = name) := by
  rw [mergeAll_splitBlocks, mergeAll_blocks, List.map_inj_left]
  simp only [ofSplitBlocks_eq_iff]
  refine ⟨fun h name => ?_, fun h name _ => h name⟩
  by_cases hname : name ∈ (ds.map fun d => d.name.value).eraseDups
  · exact h name hname
  · -- a name without blocks has no kind, so there is nothing to keep
    have hnone : (ds.filter fun d => d.name.value = name) = [] := by
      refine List.filter_eq_nil_iff.2 fun d hd => ?_
      have : d.name.value ≠ name := by
        rintro rfl
        exact hname (List.mem_eraseDups.2 (List.mem_map_of_mem hd))
      simpa using this
    rw [hnone]
    exact fun kind hkind => absurd hkind (by simp)

end Service

/-- **What splitting leaves alone, and when it changes nothing.**  Split blocks and whole blocks
merge to the same services but for the rules of deployments.  The rules are the same too exactly if
for every name no block hides rules of the kind that wins, for instance if no block names two
kinds. -/
theorem split_firstWins (ds : List ServiceDecl) :
    (Service.mergeAll .firstWins ((ds.flatMap ServiceDecl.split).map Service.ofDecl)).map
        Service.withoutRules
      = (Service.mergeAll .firstWins (ds.map Service.ofDecl)).map Service.withoutRules ∧
    (Service.mergeAll .firstWins ((ds.flatMap ServiceDecl.split).map Service.ofDecl)
        = Service.mergeAll .firstWins (ds.map Service.ofDecl)
      ↔ ∀ name, RulesKept (ds.filter fun d => d.name.value = name)) ∧
    ((∀ d ∈ ds, ∀ x ∈ d.deployments, ∀ y ∈ d.deployments, x.kind? = y.kind?) →
      ∀ name, RulesKept (ds.filter fun d => d.name.value = name)) := by
  refine ⟨?_, Service.mergeAll_split_iff ds, fun h name => ?_⟩
  · rw [Service.mergeAll_splitBlocks, Service.mergeAll_blocks, List.map_map, List.map_map]
    exact List.map_congr_left fun name _ => Service.withoutRules_ofSplitBlocks name _
  · exact rulesKept_of_one_kind fun d hd => h d (List.mem_filter.1 hd).1

/-- A text that stands nowhere in particular. -/
def textOf (value : String) : Text := ⟨value, .origin⟩

/-- A line with one rule of a canary deployment. -/
def canaryLine (percentage target : String) : PropertyDecl :=
  .deployment ⟨textOf "canary", [⟨textOf percentage, textOf target⟩]⟩

/-- Blocks of two names in between each other; no block names two kinds. -/
def oneKindBlocks : List ServiceDecl :=
  [⟨textOf "Billing", [canaryLine "10%" "staging", .language (textOf "rust"),
      canaryLine "90%" "production"]⟩,
    ⟨textOf "Shop", []⟩,
    ⟨textOf "Billing", [.deployment ⟨textOf "rolling", []⟩, .language (textOf "go")]⟩]

theorem split_firstWins_oneKindBlocks :
    Service.mergeAll .firstWins ((oneKindBlocks.flatMap ServiceDecl.split).map Service.ofDecl)
      = Service.mergeAll .firstWins (oneKindBlocks.map Service.ofDecl) := by
  obtain ⟨_, hiff, hone⟩ := split_firstWins oneKindBlocks
  exact hiff.2 (hone (by decide))

/-- A canary block, and behind it a block of another kind with a canary line. -/
def hiddenCanary : List ServiceDecl :=
  [⟨textOf "Billing", [canaryLine "10%" "staging"]⟩,
    ⟨textOf "Billing", [.deployment ⟨textOf "rolling", []⟩, canaryLine "90%" "production"]⟩]

/-- Splitting is not always without effect: the second block takes the kind `rolling` and drops its
canary line before it meets the first block, where canary wins. -/
theorem split_changes_rules :
    ¬ ∀ ds : List ServiceDecl,
      Service.mergeAll .firstWins ((ds.flatMap ServiceDecl.split).map Service.ofDecl)
        = Service.mergeAll .firstWins (ds.map Service.ofDecl) := by
  intro h
  exact absurd (h hiddenCanary) (by decide)

end ArchLang
