import ArchLang.Proofs.LineSpans
import ArchLang.Proofs.TextTokens

/-!
# Spans in order

Where the records of a source that was read stand in it.

**Declarations.**  The tokens are divided among the declarations, with nothing but trivia between
them.  Each declaration begins with its keyword and ends with the last of its tokens that counts.
So no byte belongs to two of them, and their order is the order of the source.

**Inside a declaration.**  Every text has the span of the token that it was read from, and the texts
of one list follow one another.  Components, nodes and modifiers have no span of their own; theirs
is the least one over their texts, and so it stays inside the declaration.  The lines of a use case
hold no line feed, and there is one between a line and the next.

* `ReadFrom d u` — the declaration `d` and its tokens `u`.
* `Divides ts ds` — the tokens `ts`, divided among the declarations `ds`.
* `WellPlaced source d` — where everything inside of a declaration stands.
* **`spans_of_declarationsOf`** — all of this holds of every source that is read.
-/

namespace ArchLang

open ArchLang.Parser ArchLang.Grammar

/-! ## Records without a span of their own -/

/-- The components of an architecture. -/
def Declaration.components : Declaration → List ComponentDecl
  | arch d => d.presentation ++ d.gateway
  | _ => []

/-- The spans of a component, of its nodes and of their modifiers. -/
def ComponentDecl.spans (d : ComponentDecl) : List Span :=
  d.span :: d.chain.flatMap fun n => n.span :: n.modifiers.map ModifierDecl.span

lemma foldl_union_within {s t : Span} {spans : List Span} (hs : s.Within t)
    (h : ∀ x ∈ spans, x.Within t) : (spans.foldl Span.union s).Within t := by
  induction spans generalizing s with
  | nil => exact hs
  | cons x spans ih =>
      rw [List.forall_mem_cons] at h
      exact ih (hs.union h.1) h.2

/-- A union covers everything that was united. -/
lemma within_foldl_union (s : Span) (spans : List Span) :
    ∀ x ∈ s :: spans, x.Within (spans.foldl Span.union s) := by
  induction spans generalizing s with
  | nil => exact List.forall_mem_singleton.2 ⟨Nat.le_refl _, Nat.le_refl _⟩
  | cons y spans ih =>
      have hunion := List.forall_mem_cons.1 (ih (s.union y))
      have hs : s.Within (s.union y) := ⟨Nat.min_le_left _ _, Nat.le_max_left _ _⟩
      have hy : y.Within (s.union y) := ⟨Nat.min_le_right _ _, Nat.le_max_right _ _⟩
      exact List.forall_mem_cons.2 ⟨hs.trans hunion.1,
        List.forall_mem_cons.2 ⟨hy.trans hunion.1, hunion.2⟩⟩

section Records

variable {s : Span}

lemma ModifierDecl.span_within {m : ModifierDecl} (h : ∀ x ∈ m.texts, x.span.Within s) :
    m.span.Within s := by
  rw [ModifierDecl.texts, List.forall_mem_cons] at h
  rw [ModifierDecl.span]
  split
  · next value hvalue => exact h.1.union (h.2 value (by rw [hvalue]; exact List.mem_cons_self))
  · exact h.1

lemma NodeDecl.modifiers_within {n : NodeDecl} (h : ∀ x ∈ n.texts, x.span.Within s) :
    ∀ m ∈ n.modifiers, m.span.Within s := by
  intro m hm
  refine ModifierDecl.span_within fun x hx => h x ?_
  exact List.mem_cons_of_mem _ (List.mem_flatMap.2 ⟨m, hm, hx⟩)

lemma NodeDecl.span_within {n : NodeDecl} (h : ∀ x ∈ n.texts, x.span.Within s) :
    n.span.Within s := by
  refine foldl_union_within (h _ List.mem_cons_self) (List.forall_mem_map.2 ?_)
  exact NodeDecl.modifiers_within h

/-- Components, nodes and modifiers stand where their texts stand. -/
lemma ComponentDecl.spans_within {c : ComponentDecl} (hchain : c.chain ≠ [])
    (h : ∀ x ∈ c.texts, x.span.Within s) : ∀ span ∈ c.spans, span.Within s := by
  have hnode : ∀ n ∈ c.chain, ∀ x ∈ n.texts, x.span.Within s :=
    fun n hn x hx => h x (List.mem_flatMap.2 ⟨n, hn, hx⟩)
  refine List.forall_mem_cons.2 ⟨?_, fun span hspan => ?_⟩
  · obtain ⟨n, ns, hns⟩ := List.exists_cons_of_ne_nil hchain
    rw [hns, List.forall_mem_cons] at hnode
    rw [ComponentDecl.span, hns, List.map_cons, Span.unionAll?, Option.getD_some]
    exact foldl_union_within (NodeDecl.span_within hnode.1)
      (List.forall_mem_map.2 fun n' hn' => NodeDecl.span_within (hnode.2 n' hn'))
  · obtain ⟨n, hn, hspan⟩ := List.mem_flatMap.1 hspan
    rcases List.mem_cons.1 hspan with rfl | hspan
    · exact NodeDecl.span_within (hnode n hn)
    · obtain ⟨m, hm, rfl⟩ := List.mem_map.1 hspan
      exact NodeDecl.modifiers_within (hnode n hn) m hm

end Records

/-- A modifier stands inside of its node. -/
lemma NodeDecl.within_span (n : NodeDecl) : ∀ m ∈ n.modifiers, m.span.Within n.span :=
  List.forall_mem_map.1 (List.forall_mem_cons.1 (within_foldl_union _ _)).2

/-- A node stands inside of its component. -/
lemma ComponentDecl.within_span (c : ComponentDecl) : ∀ n ∈ c.chain, n.span.Within c.span := by
  rw [ComponentDecl.span]
  cases c.chain with
  | nil => exact List.forall_mem_nil _
  | cons n ns =>
      intro m hm
      have hmem : m.span ∈ (n :: ns).map NodeDecl.span := List.mem_map_of_mem hm
      exact within_foldl_union n.span (ns.map NodeDecl.span) m.span hmem

/-! ## Chains -/

section Chains

variable {s r : Tokens}

lemma chain_ne_nil {c : ComponentDecl} (h : chain s = .done c r) : c.chain ≠ [] := by
  obtain ⟨first, s', others, -, -, hchain⟩ := pair_eq_done (chain_eq_done h)
  rw [hchain]
  exact List.cons_ne_nil first others

lemma chains_of_layer {l : Layer × List ComponentDecl} (h : layer s = .done l r) :
    ∀ c ∈ l.2, c.chain ≠ [] := by
  obtain ⟨key, s', -, hcomponents, -⟩ := layer_eq_done h
  obtain ⟨found, hfound, hl⟩ := components_eq_done hcomponents
  rw [hl]
  intro c hc
  obtain ⟨s'', r', -, hchain⟩ := exists_suffix_of_mem_manyUntil hfound c hc
  exact chain_ne_nil hchain

lemma chains_of_archBody {start : Span} {d : Located Declaration}
    (h : archBody start s = .done d r) : ∀ c ∈ d.value.components, c.chain ≠ [] := by
  obtain ⟨_, name, _, s₃, body, -, -, -, hbody, rfl⟩ := archBody_eq_done h
  obtain ⟨opening, s₄, found, -, hfound, rfl⟩ := block_eq_done hbody
  have hlayer (key : Layer) : ∀ c ∈ componentsOf key found.1, c.chain ≠ [] := by
    intro c hc
    obtain ⟨l, hl, hc⟩ := List.mem_flatMap.1 ((flatMap_key_sublist key found.1).subset hc)
    obtain ⟨s', r', -, hread⟩ := exists_suffix_of_mem_manyUntil hfound l hl
    exact chains_of_layer hread c hc
  exact List.forall_mem_append.2 ⟨hlayer .presentation, hlayer .gateway⟩

/-- No component is without nodes. -/
lemma chains_of_declaration {d : Located Declaration} (h : declaration s = .done d r) :
    ∀ c ∈ d.value.components, c.chain ≠ [] := by
  obtain ⟨t, k, s', rfl, -, hk, hbody⟩ := declaration_eq_done h
  by_cases harch : k = .arch
  · subst harch
    exact chains_of_archBody hbody
  · -- another keyword gives another kind of declaration
    have hkeyword := keyword_of_declarationBody hbody hk
    cases hvalue : d.value with
    | arch a =>
        rw [hvalue] at hkeyword
        exact absurd hkeyword.symm harch
    | _ => exact List.forall_mem_nil _

end Chains

/-! ## Texts in order -/

section Texts

variable {xs : List Text} {u : Tokens}

lemma exists_token_of_mem (h : List.SublistForall₂ IsTextOf xs u) {x : Text} (hx : x ∈ xs) :
    ∃ t ∈ u, IsTextOf x t := by
  induction h with
  | nil => cases hx
  | @cons y t _ _ hy _ ih =>
      rcases List.mem_cons.1 hx with rfl | hx
      · exact ⟨t, List.mem_cons_self, hy⟩
      · obtain ⟨t', ht', hxt⟩ := ih hx
        exact ⟨t', List.mem_cons_of_mem _ ht', hxt⟩
  | cons_right _ ih =>
      obtain ⟨t', ht', hxt⟩ := ih hx
      exact ⟨t', List.mem_cons_of_mem _ ht', hxt⟩

/-- Texts from tokens in order are in order. -/
lemma pairwise_of_sublistForall₂ (h : List.SublistForall₂ IsTextOf xs u) (hu : InOrder u) :
    xs.Pairwise fun x y => x.span.stop ≤ y.span.start := by
  induction h with
  | nil => exact .nil
  | cons hx h ih =>
      obtain ⟨hle, hu⟩ := List.pairwise_cons.1 hu
      refine List.pairwise_cons.2 ⟨fun y hy => ?_, ih hu⟩
      obtain ⟨t, ht, hyt⟩ := exists_token_of_mem h hy
      rw [hx.span, hyt.span]
      exact hle t ht
  | cons_right _ ih => exact ih (List.pairwise_cons.1 hu).2

end Texts

/-! ## Declarations and their tokens -/

/-- The declaration and the tokens that it was read from.  It begins with its keyword and ends with
the last of them, and its texts were read from some of them, those of a list one after another. -/
structure ReadFrom (d : Located Declaration) (u : Tokens) : Prop where
  encloses : Encloses u d.span
  keyword : ∃ t ∈ u.head?, t.value = .keyword d.value.keyword
  texts : ∀ xs ∈ d.value.textLists, List.SublistForall₂ IsTextOf xs u

/-- The tokens are those of the declarations, with nothing but trivia in front of each and behind
the last. -/
inductive Divides : Tokens → List (Located Declaration) → Prop where
  | nil {g : Tokens} : Blank g → Divides g []
  | cons {g u r : Tokens} {d : Located Declaration} {ds : List (Located Declaration)} : Blank g →
      declaration (u ++ r) = .done d r → ReadFrom d u → Divides r ds →
      Divides (g ++ (u ++ r)) (d :: ds)

lemma exists_readFrom {s r : Tokens} {d : Located Declaration} (h : declaration s = .done d r)
    (hs : InOrder s) : ∃ u, s = u ++ r ∧ ReadFrom d u := by
  obtain ⟨u, rfl, hkeyword, hencloses⟩ := encloses_declaration h
  refine ⟨u, rfl, hencloses hs.left, hkeyword, fun xs hxs => ?_⟩
  obtain ⟨v, hv, htexts⟩ := textsFrom_declaration h xs hxs
  rwa [List.append_cancel_right hv]

namespace Divides

variable {s : Tokens} {ds : List (Located Declaration)}

lemma blank {g : Tokens} (hg : Blank g) (h : Divides s ds) : Divides (g ++ s) ds := by
  cases h with
  | nil hs => exact .nil (blank_append.2 ⟨hg, hs⟩)
  | @cons g' u r _ _ hg' hd hread hrest =>
      rw [← List.append_assoc]
      exact .cons (blank_append.2 ⟨hg, hg'⟩) hd hread hrest

/-- Where a declaration stands. -/
lemma exists_place (h : Divides s ds) {d : Located Declaration} (hd : d ∈ ds) :
    ∃ before u r, s = before ++ (u ++ r) ∧ declaration (u ++ r) = .done d r ∧ ReadFrom d u := by
  induction h with
  | nil => cases hd
  | @cons g u r _ _ hg hdone hread _ ih =>
      rcases List.mem_cons.1 hd with rfl | hd
      · exact ⟨g, u, r, rfl, hdone, hread⟩
      · obtain ⟨before, u', r', rfl, hdone', hread'⟩ := ih hd
        exact ⟨g ++ (u ++ before), u', r', by simp, hdone', hread'⟩

/-- Declarations follow one another. -/
lemma pairwise (h : Divides s ds) (hs : InOrder s) :
    (ds.map (·.span)).Pairwise fun a b => a.stop ≤ b.start := by
  induction h with
  | nil => exact .nil
  | @cons g u r d ds _ _ hread hrest ih =>
      refine List.pairwise_cons.2 ⟨List.forall_mem_map.2 fun d' hd' => ?_, ih hs.right.right⟩
      obtain ⟨before, u', r', rfl, -, hread'⟩ := hrest.exists_place hd'
      refine hread.encloses.le_start hread'.encloses hs.right ?_
      exact List.subset_append_of_subset_right before (List.subset_append_left u' r')

end Divides

lemma divides_of_declarations {ts r : Tokens} {ds : List (Located Declaration)}
    (h : declarations ts = .done ds r) (hts : InOrder ts) : Divides ts ds := by
  obtain ⟨found, hfound, rfl⟩ := declarations_eq_done h
  refine manyUntil_induction declaration atEnd (motive := fun s ds => InOrder s → Divides s ds)
    hfound ?blank ?done ?turn hts
  case blank => exact fun hg hs hinOrder => (hs hinOrder.right).blank hg
  case done =>
    intro s b hend _
    cases s with
    | nil => exact .nil blank_nil
    | cons t s => cases hend
  case turn =>
    intro y w e d r' ds _ _ hd hrest hinOrder
    obtain ⟨u, hu, hread⟩ := exists_readFrom hd hinOrder
    rw [hu] at hd hinOrder ⊢
    exact .cons blank_nil hd hread (hrest hinOrder.right)

/-! ## Inside a declaration -/

/-- The spans of the lines of a use case, and of the components of an architecture with their
parts. -/
def Declaration.recordSpans : Declaration → List Span
  | arch d => (d.presentation ++ d.gateway).flatMap ComponentDecl.spans
  | useCase d => d.lineSpans
  | _ => []

/-- Where a declaration stands in the source, and everything inside of it. -/
structure WellPlaced (source : String) (d : Located Declaration) : Prop where
  nonempty : d.span.start < d.span.stop
  /-- the texts of a list, none of them empty, follow one another inside of the declaration -/
  texts : ∀ xs ∈ d.value.textLists, (xs.Pairwise fun x y => x.span.stop ≤ y.span.start) ∧
    ∀ x ∈ xs, x.span.start < x.span.stop ∧ x.span.Within d.span
  /-- so do lines and components with all of their parts -/
  records : ∀ span ∈ d.value.recordSpans, span.Within d.span
  nested : ∀ c ∈ d.value.components, ∀ n ∈ c.chain, n.span.Within c.span ∧
    ∀ m ∈ n.modifiers, m.span.Within n.span
  /-- no line feed inside of a line, one between a line and the next -/
  lines : ∀ u ∈ d.value.useCaseDecls, (∀ span ∈ u.lineSpans, '\n' ∉ (span.slice source).toList) ∧
    u.lineSpans.IsChain (LineBetween source)

/-- The texts of a component are texts of its architecture. -/
lemma Declaration.exists_textList (d : Declaration) :
    ∀ c ∈ d.components, ∀ x ∈ c.texts, ∃ xs ∈ d.textLists, x ∈ xs := by
  intro c hc x hx
  cases d with
  | arch a =>
      rcases List.mem_append.1 hc with hc | hc
      · exact ⟨_, List.mem_cons_self,
          List.mem_append_right _ (List.mem_flatMap.2 ⟨c, hc, hx⟩)⟩
      · exact ⟨_, List.mem_cons_of_mem _ List.mem_cons_self,
          List.mem_append_right _ (List.mem_flatMap.2 ⟨c, hc, hx⟩)⟩
  | _ => cases hc

section Placement

variable {source : String} {before u r : Tokens} {d : Located Declaration}

lemma components_within (h : declaration (u ++ r) = .done d r) (hread : ReadFrom d u)
    (hu : InOrder u) : ∀ c ∈ d.value.components, ∀ span ∈ c.spans, span.Within d.span := by
  intro c hc
  refine ComponentDecl.spans_within (chains_of_declaration h c hc) fun x hx => ?_
  obtain ⟨xs, hxs, hx⟩ := d.value.exists_textList c hc x hx
  obtain ⟨t, ht, hxt⟩ := exists_token_of_mem (hread.texts xs hxs) hx
  rw [hxt.span]
  exact hread.encloses.within hu ht

lemma lines_within (h : declaration (u ++ r) = .done d r) (hread : ReadFrom d u)
    (hu : InOrder u) : ∀ x ∈ d.value.useCaseDecls, ∀ span ∈ x.lineSpans, span.Within d.span := by
  intro x hx span hspan
  obtain ⟨s₁, s₂, ⟨a, ha⟩, hlines, ⟨b, rfl⟩⟩ := lines_declaration h x hx
  obtain ⟨w, rfl, hw⟩ := hlines.exists_taken
  obtain ⟨v, hv, hencloses⟩ := hw span hspan
  -- both ways to split the tokens leave `r`, so the lines are among those of the declaration
  have hsub : v.Sublist u := by
    have hcut : a ++ (w ++ b) ++ r = u ++ r := by rw [← ha]; simp
    rw [← List.append_cancel_right hcut]
    exact (hv.trans (List.sublist_append_left w b)).trans (List.sublist_append_right a _)
  exact hread.encloses.within_of_subset hu (hencloses (hu.sublist hsub)) hsub.subset

lemma wellPlaced_of_readFrom (hts : tokensOf source = .ok (before ++ (u ++ r)))
    (h : declaration (u ++ r) = .done d r) (hread : ReadFrom d u) : WellPlaced source d := by
  obtain ⟨hinOrder, hnonempty⟩ := inOrder_of_tokensOf hts
  have hu : InOrder u := hinOrder.right.left
  have htoken : ∀ t ∈ u, t.span.start < t.span.stop := fun t ht => hnonempty t (by simp [ht])
  refine ⟨?_, fun xs hxs => ⟨pairwise_of_sublistForall₂ (hread.texts xs hxs) hu, fun x hx => ?_⟩,
    ?_, fun c _ n hn => ⟨c.within_span n hn, n.within_span⟩, fun x hx => ?_⟩
  · obtain ⟨t, ht, -, hstart⟩ := hread.encloses.first
    have hmem := List.mem_of_mem_head? ht
    rw [← hstart]
    exact (htoken t hmem).trans_le (hread.encloses.within hu hmem).2
  · obtain ⟨t, ht, hxt⟩ := exists_token_of_mem (hread.texts xs hxs) hx
    rw [hxt.span]
    exact ⟨htoken t ht, hread.encloses.within hu ht⟩
  · intro span hspan
    have hcomponents := components_within h hread hu
    have hlines := lines_within h hread hu
    cases hvalue : d.value with
    | arch a =>
        rw [hvalue] at hspan hcomponents
        obtain ⟨c, hc, hspan⟩ := List.mem_flatMap.1 hspan
        exact hcomponents c hc span hspan
    | useCase x =>
        rw [hvalue] at hspan hlines
        exact hlines x List.mem_cons_self span hspan
    | _ => rw [hvalue] at hspan; cases hspan
  · obtain ⟨s₁, s₂, ⟨a, ha⟩, hlines, -⟩ := lines_declaration h x hx
    rw [← ha, ← List.append_assoc] at hts
    exact hlines.separated hts

end Placement

/-- **Spans in order.**  The tokens of a source that is read are divided among its declarations,
each of which begins with its keyword and ends with its last token that counts.  Their spans follow
one another, and inside of each of them everything is in its place. -/
theorem spans_of_declarationsOf {source : String} {ds : List (Located Declaration)}
    (h : declarationsOf source = .ok ds) :
    (∃ ts, tokensOf source = .ok ts ∧ Divides ts ds) ∧
    (ds.map (·.span)).Pairwise (fun s s' => s.stop ≤ s'.start) ∧
    ∀ d ∈ ds, WellPlaced source d := by
  obtain ⟨ts, hts, hds⟩ := declarationsOf_eq_ok.1 h
  have hinOrder := (inOrder_of_tokensOf hts).1
  have hdivides := divides_of_declarations (declarationsOfTokens_eq_ok.1 hds) hinOrder
  refine ⟨⟨ts, hts, hdivides⟩, hdivides.pairwise hinOrder, fun d hd => ?_⟩
  obtain ⟨before, u, r, rfl, hdone, hread⟩ := hdivides.exists_place hd
  exact wellPlaced_of_readFrom hts hdone hread

/-- An actor and a use case with two lines, the first of them with a comment behind it. -/
def tillSource : String :=
  "actor user Ann\nuse_case Pay \x7b\n  when Ann pays // now\n  Till opens\n\x7d"

/-- What is read from it. -/
def tillDeclarations : List (Located Declaration) :=
  [⟨.actor ⟨⟨"user", .between 6 10⟩, ⟨"Ann", .between 11 14⟩⟩, .between 0 14⟩,
    ⟨.useCase ⟨⟨"Pay", .between 24 27⟩, [⟨⟨.external "Ann" "pays" [], .between 32 45⟩,
      [⟨.internal "Till" "opens" none [], .between 55 65⟩]⟩]⟩, .between 15 67⟩]

/-- The comment belongs to no line; the line feed behind it parts the two. -/
theorem spans_of_declarationsOf_till :
    declarationsOf tillSource = .ok tillDeclarations ∧
    (tillDeclarations.map (·.span)).Pairwise (fun s s' => s.stop ≤ s'.start) ∧
    '\n' ∉ ((Span.between 32 45).slice tillSource).toList ∧
    LineBetween tillSource (.between 32 45) (.between 55 65) := by
  have hread : declarationsOf tillSource = .ok tillDeclarations := by decide +kernel
  obtain ⟨-, hpairwise, hplaced⟩ := spans_of_declarationsOf hread
  obtain ⟨hfree, hchain⟩ := (hplaced _ (List.mem_cons_of_mem _ List.mem_cons_self)).lines _
    List.mem_cons_self
  exact ⟨hread, hpairwise, hfree _ List.mem_cons_self, (List.isChain_cons_cons.1 hchain).1⟩

end ArchLang
