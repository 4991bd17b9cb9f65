import ArchLang.Proofs.FormlessLines

/-!
# From the first token to the last

The span of a record is a union of spans that were met on the way, and which they are differs from
construct to construct.  Over tokens in order such a union reaches from the first token of the
record to the last one.

* `Encloses u span` — the span reaches from the first of the tokens `u` to the last, and neither is
  trivia.
* `Spans s span r` — so it does over the tokens that were read from `s` up to `r`.  Two such spans
  are united over whatever stands between them (`Spans.union`).
* `Reaches k start s d r` — the declaration `d` begins with its keyword `k` at `start`, and its span
  reaches up to `r`.  There is one such lemma for each declaration.
* **`encloses_declaration`** — a declaration reaches from its keyword to the last token that was
  read.
-/

namespace ArchLang

open ArchLang.Parser ArchLang.Grammar

/-! ## Spans over tokens in order -/

namespace InOrder

variable {u v : Tokens}

lemma left (h : InOrder (u ++ v)) : InOrder u := (List.pairwise_append.1 h).1

lemma right (h : InOrder (u ++ v)) : InOrder v := (List.pairwise_append.1 h).2.1

lemma le (h : InOrder (u ++ v)) {t t' : Located Token} (ht : t ∈ u) (ht' : t' ∈ v) :
    t.span.stop ≤ t'.span.start := (List.pairwise_append.1 h).2.2 t ht t' ht'

end InOrder

/-- The span reaches from the first of the tokens to the last, and neither of them is trivia. -/
structure Encloses (u : Tokens) (span : Span) : Prop where
  first : ∃ t ∈ u.head?, t.value.isTrivia = false ∧ t.span.start = span.start
  last : ∃ t ∈ u.getLast?, t.value.isTrivia = false ∧ t.span.stop = span.stop

/-- No byte of the span lies outside of the other one. -/
def Span.Within (s t : Span) : Prop := t.start ≤ s.start ∧ s.stop ≤ t.stop

lemma Span.Within.trans {s t u : Span} (h : s.Within t) (h' : t.Within u) : s.Within u :=
  ⟨h'.1.trans h.1, h.2.trans h'.2⟩

lemma Span.Within.union {s t u : Span} (h : s.Within u) (h' : t.Within u) :
    (s.union t).Within u :=
  ⟨Nat.le_min.2 ⟨h.1, h'.1⟩, Nat.max_le.2 ⟨h.2, h'.2⟩⟩

lemma encloses_singleton {t : Located Token} (ht : t.value.isTrivia = false) :
    Encloses [t] t.span := ⟨⟨t, rfl, ht, rfl⟩, ⟨t, rfl, ht, rfl⟩⟩

namespace Encloses

variable {u v w : Tokens} {a b : Span}

lemma ne_nil (h : Encloses u a) : u ≠ [] := by
  rintro rfl
  obtain ⟨t, ht, -⟩ := h.first
  cases ht

/-- What is enclosed further behind begins later. -/
lemma le_start (hu : Encloses u a) (hv : Encloses v b) (h : InOrder (u ++ w)) (hvw : v ⊆ w) :
    a.stop ≤ b.start := by
  obtain ⟨last, hlast, -, hstop⟩ := hu.last
  obtain ⟨first, hfirst, -, hstart⟩ := hv.first
  rw [← hstop, ← hstart]
  exact h.le (List.mem_of_getLast? hlast) (hvw (List.mem_of_mem_head? hfirst))

/-- The least span over two enclosed parts encloses what lies between them too. -/
lemma union (hu : Encloses u a) (hv : Encloses v b) (h : InOrder (u ++ (w ++ v))) :
    Encloses (u ++ (w ++ v)) (a.union b) := by
  obtain ⟨first, hfirst, hfirstCounts, hstart⟩ := hu.first
  obtain ⟨last, hlast, hlastCounts, hstop⟩ := hv.last
  have hle := hu.le_start hv h (List.subset_append_right w v)
  have ha := a.start_le_stop
  have hb := b.start_le_stop
  refine ⟨⟨first, ?_, hfirstCounts, ?_⟩, ⟨last, ?_, hlastCounts, ?_⟩⟩
  · rw [List.head?_append, hfirst, Option.some_or]
    rfl
  · rw [hstart, Span.union_start]
    omega
  · rw [List.getLast?_append, List.getLast?_append, hlast, Option.some_or, Option.some_or]
    rfl
  · rw [hstop, Span.union_stop]
    omega

/-- The tokens lie within the span that encloses them. -/
lemma within (h : Encloses u a) (hu : InOrder u) {t : Located Token} (ht : t ∈ u) :
    t.span.Within a := by
  obtain ⟨first, hfirst, -, hstart⟩ := h.first
  obtain ⟨last, hlast, -, hstop⟩ := h.last
  refine ⟨?_, ?_⟩
  · obtain ⟨v, rfl⟩ := List.head?_eq_some_iff.1 hfirst
    rw [← hstart]
    rcases List.mem_cons.1 ht with rfl | ht
    · exact Nat.le_refl _
    · exact first.span.start_le_stop.trans ((List.pairwise_cons.1 hu).1 t ht)
  · obtain ⟨v, rfl⟩ := List.getLast?_eq_some_iff.1 hlast
    rw [← hstop]
    rcases List.mem_append.1 ht with ht | ht
    · exact (hu.le ht List.mem_cons_self).trans last.span.start_le_stop
    · rw [List.mem_singleton.1 ht]

lemma within_of_subset (h : Encloses u a) (hu : InOrder u) (hv : Encloses v b) (hvu : v ⊆ u) :
    b.Within a := by
  obtain ⟨first, hfirst, -, hstart⟩ := hv.first
  obtain ⟨last, hlast, -, hstop⟩ := hv.last
  exact ⟨hstart ▸ (h.within hu (hvu (List.mem_of_mem_head? hfirst))).1,
    hstop ▸ (h.within hu (hvu (List.mem_of_getLast? hlast))).2⟩

end Encloses

/-- Over the tokens that were read from `s` up to `r`, the span reaches from the first to the
last. -/
def Spans (s : Tokens) (span : Span) (r : Tokens) : Prop :=
  ∃ u, s = u ++ r ∧ (InOrder u → Encloses u span)

lemma spans_cons {t : Located Token} (ht : t.value.isTrivia = false) (s : Tokens) :
    Spans (t :: s) t.span s := ⟨[t], rfl, fun _ => encloses_singleton ht⟩

lemma Spans.union {s s' s'' r : Tokens} {a b : Span} (h : Spans s a s') (hs : s'' <:+ s')
    (h' : Spans s'' b r) : Spans s (a.union b) r := by
  obtain ⟨u, rfl, hu⟩ := h
  obtain ⟨w, rfl⟩ := hs
  obtain ⟨v, rfl, hv⟩ := h'
  refine ⟨u ++ (w ++ v), by simp, fun h => ?_⟩
  exact (hu h.left).union (hv h.right.right) h

/-! ## Names and blocks -/

section Readers

variable {α : Type} {s r : Tokens}

lemma spans_anyName {x : Text} (h : anyName s = .done x r) : Spans s x.span r := by
  obtain ⟨t, rfl, ht, hspan⟩ := token_eq_done.1 (label_done.1 h)
  rw [hspan]
  exact spans_cons (not_trivia_of_name ht) r

lemma spans_mark {m : Mark} {span : Span} (h : mark m s = .done span r) : Spans s span r := by
  obtain ⟨t, rfl, ht⟩ := mark_eq_done h
  rw [mark_cons_of_eq r ht] at h
  cases h
  exact spans_cons (by rw [ht]; rfl) r

/-- A block reaches from brace to brace. -/
lemma spans_block {item : Parser α} [Consumes item] [Forward item] {body : List α × Span}
    (h : block item s = .done body r) : Spans s body.2 r := by
  obtain ⟨opening, s', found, hopening, hfound, rfl⟩ := block_eq_done h
  obtain ⟨s'', hs'', hclosing⟩ := exists_stop_of_manyUntil hfound
  exact (spans_mark hopening).union hs'' (spans_mark hclosing)

lemma spans_domain {d : Located DomainDecl} (h : domain s = .done d r) : Spans s d.span r := by
  obtain ⟨name, s₁, s₂, body, hname, hgap, hbody, rfl⟩ := domain_eq_done h
  exact (spans_anyName hname).union (suffix_of_done hgap) (spans_block hbody)

lemma spans_service {d : Located ServiceDecl} (h : service s = .done d r) : Spans s d.span r := by
  obtain ⟨name, s₁, s₂, body, hname, hgap, hbody, rfl⟩ := service_eq_done h
  exact (spans_anyName hname).union (suffix_of_done hgap) (spans_block hbody)

end Readers

/-! ## Declarations -/

/-- The declaration begins with the keyword `k` at `start`, and what was read behind it from `s` up
to `r` is the rest of its span, but for some tokens in front. -/
structure Reaches (k : Keyword) (start : Span) (s : Tokens) (d : Located Declaration)
    (r : Tokens) : Prop where
  keyword : d.value.keyword = k
  spans : ∃ s' span, s' <:+ s ∧ Spans s' span r ∧ d.span = start.union span

section Bodies

variable {start : Span} {s r : Tokens} {d : Located Declaration}

lemma reaches_actorBody (h : actorBody start s = .done d r) : Reaches .actor start s d r := by
  obtain ⟨s₁, found, hgap, hfound, rfl⟩ := actorBody_eq_done h
  obtain ⟨kind, s₂, s₃, name, hkind, hgap', hname, rfl⟩ := actor_eq_done hfound
  exact ⟨rfl, s₃, name.span,
    (suffix_of_done hgap').trans ((suffix_of_done hkind).trans (suffix_of_done hgap)),
    spans_anyName hname, rfl⟩

lemma reaches_actorsBody (h : actorsBody start s = .done d r) : Reaches .actors start s d r := by
  obtain ⟨s₁, body, hgap, hbody, rfl⟩ := actorsBody_eq_done h
  exact ⟨rfl, s₁, body.2, suffix_of_done hgap, spans_block hbody, rfl⟩

lemma reaches_domainBody (h : domainBody start s = .done d r) : Reaches .domain start s d r := by
  obtain ⟨s₁, found, hgap, hfound, rfl⟩ := domainBody_eq_done h
  exact ⟨rfl, s₁, found.span, suffix_of_done hgap, spans_domain hfound, rfl⟩

lemma reaches_domainsBody (h : domainsBody start s = .done d r) :
    Reaches .domains start s d r := by
  obtain ⟨s₁, body, hgap, hbody, rfl⟩ := domainsBody_eq_done h
  exact ⟨rfl, s₁, body.2, suffix_of_done hgap, spans_block hbody, rfl⟩

lemma reaches_serviceBody (h : serviceBody start s = .done d r) : Reaches .service start s d r := by
  obtain ⟨s₁, found, hgap, hfound, rfl⟩ := serviceBody_eq_done h
  exact ⟨rfl, s₁, found.span, suffix_of_done hgap, spans_service hfound, rfl⟩

lemma reaches_servicesBody (h : servicesBody start s = .done d r) :
    Reaches .services start s d r := by
  obtain ⟨s₁, body, hgap, hbody, rfl⟩ := servicesBody_eq_done h
  exact ⟨rfl, s₁, body.2, suffix_of_done hgap, spans_block hbody, rfl⟩

lemma reaches_exposureBody (h : exposureBody start s = .done d r) :
    Reaches .exposure start s d r := by
  obtain ⟨s₁, name, s₂, s₃, body, hgap, hname, hgap', hbody, rfl⟩ := exposureBody_eq_done h
  exact ⟨rfl, s₃, body.2,
    (suffix_of_done hgap').trans ((suffix_of_done hname).trans (suffix_of_done hgap)),
    spans_block hbody, rfl⟩

lemma reaches_archBody (h : archBody start s = .done d r) : Reaches .arch start s d r := by
  obtain ⟨s₁, name, s₂, s₃, body, hgap, hname, hgap', hbody, rfl⟩ := archBody_eq_done h
  exact ⟨rfl, s₃, body.2,
    (suffix_of_done hgap').trans ((suffix_of_done hname).trans (suffix_of_done hgap)),
    spans_block hbody, rfl⟩

lemma reaches_useCaseBody (h : useCaseBody start s = .done d r) :
    Reaches .useCase start s d r := by
  obtain ⟨s₁, name, s₂, s₃, body, hgap, hname, hgap', hbody, rfl⟩ := useCaseBody_eq_done h
  exact ⟨rfl, s₃, body.2,
    (suffix_of_done hgap').trans ((suffix_of_done hname).trans (suffix_of_done hgap)),
    spans_block hbody, rfl⟩

lemma reaches_declarationBody {k : Keyword} (h : declarationBody start k s = .done d r)
    (hk : declarationKeywordOf (.keyword k) = some k) : Reaches k start s d r := by
  cases k with
  | actors => exact reaches_actorsBody h
  | actor => exact reaches_actorBody h
  | domains => exact reaches_domainsBody h
  | domain => exact reaches_domainBody h
  | services => exact reaches_servicesBody h
  | service => exact reaches_serviceBody h
  | exposure => exact reaches_exposureBody h
  | arch => exact reaches_archBody h
  | useCase => exact reaches_useCaseBody h
  | when | dataStores => cases hk

/-- **Declarations.**  A declaration begins with its keyword, and over tokens in order its span
reaches from there to the last token that was read. -/
theorem encloses_declaration (h : declaration s = .done d r) :
    ∃ u, s = u ++ r ∧ (∃ t ∈ u.head?, t.value = .keyword d.value.keyword) ∧
      (InOrder u → Encloses u d.span) := by
  obtain ⟨t, k, s', rfl, hvalue, hk, hbody⟩ := declaration_eq_done h
  obtain ⟨hkeyword, _, span, ⟨w, rfl⟩, ⟨v, rfl, hv⟩, hd⟩ := reaches_declarationBody hbody hk
  refine ⟨t :: (w ++ v), by simp, ⟨t, rfl, by rw [hvalue, hkeyword]⟩, fun hinOrder => ?_⟩
  have hcounts : t.value.isTrivia = false := by rw [hvalue]; rfl
  have hall : InOrder ([t] ++ (w ++ v)) := hinOrder
  rw [hd]
  exact (encloses_singleton hcounts).union (hv hall.right.right) hall

end Bodies

end ArchLang
