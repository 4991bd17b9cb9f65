import ArchLang.Proofs.Places
import ArchLang.Proofs.Spacing
import ArchLang.Proofs.UseCaseBodies

/-!
# Respaced tokens

Readers pass over trivia in four ways: over any, over some at least, over those of one line, and up
to a line end.  None of them tells respaced tokens apart (`Proofs.Spacing`), and this file goes with
that through every combinator and every construct of the grammar.

* `Agree R o o'` — the outcomes have the same value, or are failures that are reported under the
  same code; what is left is in the relation `R`.
* `Follows R R' p p'` — on inputs in the relation `R` the parsers agree, and what they leave is in
  the relation `R'`.  The two are the same parser but for the tokens that they remember.
* `Wants p` — without tokens `p` fails.  So it does not matter at the end of the tokens whether
  there are trivia before it.
* **`reading_of_respaced`** — respaced tokens are the same declarations, or are refused under the
  same code.
-/

namespace ArchLang

open ArchLang.Parser ArchLang.Grammar

variable {α β : Type}

/-! ## Parsers that follow -/

/-- The first relation is part of the second. -/
class Within (R R' : Tokens → Tokens → Prop) : Prop where
  imp : ∀ {s s'}, R s s' → R' s s'

/-- Related tokens are blank together. -/
class Level (R : Tokens → Tokens → Prop) : Prop where
  blank_iff : ∀ {s s'}, R s s' → (Blank s ↔ Blank s')

instance (R : Tokens → Tokens → Prop) : Within R R := ⟨id⟩

instance (σ : Site) : Within (AtToken σ) (Respaced σ) := ⟨AtToken.respaced⟩

instance (σ : Site) : Within (Respaced σ) (BehindGap σ) := ⟨Respaced.behindGap⟩

instance (σ : Site) : Within (AtToken σ) (BehindGap σ) := ⟨fun h => h.respaced.behindGap⟩

instance : Within PastBlanks (Respaced .inside) := ⟨PastBlanks.respaced⟩

instance (σ : Site) : Level (BehindGap σ) := ⟨BehindGap.blank_iff⟩

instance (σ : Site) : Level (Respaced σ) := ⟨fun h => h.behindGap.blank_iff⟩

instance (σ : Site) : Level (AtToken σ) := ⟨fun h => h.respaced.behindGap.blank_iff⟩

/-- The same value with related tokens left, or two failures that are reported under one code. -/
inductive Agree (R : Tokens → Tokens → Prop) : Outcome α → Outcome α → Prop where
  | done {a : α} {r r' : Tokens} : R r r' → Agree R (.done a r) (.done a r')
  | failed {e e' : Failure} : e.committed = e'.committed → (Blank e.rest ↔ Blank e'.rest) →
      Agree R (.failed e) (.failed e')

lemma Agree.map {R : Tokens → Tokens → Prop} {o o' : Outcome α} (h : Agree R o o') (f : α → β) :
    Agree R (o.map f) (o'.map f) := by
  cases h with
  | done hr => exact .done hr
  | failed hc hb => exact .failed hc hb

namespace Parser

/-- On related tokens the parsers come to the same end and leave related tokens. -/
class Follows (R : Tokens → Tokens → Prop) (R' : outParam (Tokens → Tokens → Prop))
    (p p' : Parser α) : Prop where
  agree : ∀ {s s'}, R s s' → Agree R' (p s) (p' s')

section Follows

variable {R R₁ R₂ : Tokens → Tokens → Prop}

/-- The two ways in which parsers come to the same end. -/
lemma Follows.cases (p p' : Parser α) [Follows R R₁ p p'] {s s' : Tokens} (h : R s s') :
    (∃ a r r', p s = .done a r ∧ p' s' = .done a r' ∧ R₁ r r') ∨
      ∃ e e', p s = .failed e ∧ p' s' = .failed e' ∧ e.committed = e'.committed ∧
        (Blank e.rest ↔ Blank e'.rest) := by
  have hagree : Agree R₁ (p s) (p' s') := Follows.agree h
  revert hagree
  cases p s <;> cases p' s' <;> rintro (hr | ⟨hc, hb⟩)
  · exact .inl ⟨_, _, _, rfl, rfl, hr⟩
  · exact .inr ⟨_, _, rfl, rfl, hc, hb⟩

lemma Follows.of_within [Within R R₁] {p p' : Parser α} (h : Follows R₁ R₂ p p') :
    Follows R R₂ p p' :=
  ⟨fun hs => h.agree (Within.imp hs)⟩

/-- What is left may be of no interest. -/
lemma Follows.forget {p p' : Parser α} (h : Follows R R₁ p p') :
    Follows R (fun _ _ => True) p p' := by
  refine ⟨fun hR => ?_⟩
  obtain ⟨a, r, r', hs, hs', -⟩ | ⟨e, e', hs, hs', hc, hb⟩ := Follows.cases p p' hR
  · rw [hs, hs']
    exact .done trivial
  · rw [hs, hs']
    exact .failed hc hb

instance (priority := low) follows_atToken (σ : Site) (p p' : Parser α)
    [h : Follows (Respaced σ) R₂ p p'] : Follows (AtToken σ) R₂ p p' := h.of_within

instance (priority := low) follows_pastBlanks (p p' : Parser α)
    [h : Follows (Respaced .inside) R₂ p p'] : Follows PastBlanks R₂ p p' := h.of_within

instance follows_pure (a : α) : Follows R R (pure a : Parser α) (pure a) := ⟨.done⟩

lemma follows_reject [Level R] (start start' : Tokens) (what : Expected) :
    Follows R R₁ (reject start what : Parser α) (reject start' what) :=
  ⟨fun h => .failed rfl (Level.blank_iff h)⟩

instance follows_bind (p p' : Parser α) (f f' : α → Parser β) [Follows R R₁ p p']
    [∀ a, Follows R₁ R₂ (f a) (f' a)] : Follows R R₂ (p >>= f) (p' >>= f') := by
  refine ⟨fun h => ?_⟩
  obtain ⟨a, r, r', hs, hs', hr⟩ | ⟨e, e', hs, hs', hc, hb⟩ := Follows.cases p p' h
  · rw [bind_of_done f hs, bind_of_done f' hs']
    exact Follows.agree hr
  · rw [bind_of_failed f hs, bind_of_failed f' hs']
    exact .failed hc hb

instance follows_here_bind (f f' : Tokens → Parser β)
    [∀ start start', Follows R R₁ (f start) (f' start')] :
    Follows R R₁ (here >>= f) (here >>= f') :=
  ⟨fun {s s'} h => (inferInstance : Follows R R₁ (f s) (f' s')).agree h⟩

instance follows_label (what : Expected) (p p' : Parser α) [Follows R R₁ p p'] :
    Follows R R₁ (label what p) (label what p') := by
  refine ⟨fun h => ?_⟩
  obtain ⟨a, r, r', hs, hs', hr⟩ | ⟨e, e', hs, hs', hc, hb⟩ := Follows.cases p p' h
  · rw [label_done.2 hs, label_done.2 hs']
    exact .done hr
  · rw [label_of_failed what hs, label_of_failed what hs']
    exact .failed hc hb

instance follows_commit (p p' : Parser α) [Follows R R₁ p p'] :
    Follows R R₁ (commit p) (commit p') := by
  refine ⟨fun h => ?_⟩
  obtain ⟨a, r, r', hs, hs', hr⟩ | ⟨e, e', hs, hs', hc, hb⟩ := Follows.cases p p' h
  · rw [commit_done.2 hs, commit_done.2 hs']
    exact .done hr
  · rw [commit_of_failed hs, commit_of_failed hs']
    exact .failed rfl hb

instance follows_optional (p p' : Parser α) [Follows R R₁ p p'] [Within R R₁] :
    Follows R R₁ (optional p) (optional p') := by
  refine ⟨fun h => ?_⟩
  obtain ⟨a, r, r', hs, hs', hr⟩ | ⟨e, e', hs, hs', hc, hb⟩ := Follows.cases p p' h
  · rw [optional_of_done hs, optional_of_done hs']
    exact .done hr
  · cases he : e.committed with
    | true =>
        rw [optional_of_committed hs he, optional_of_committed hs' (hc ▸ he)]
        exact .failed hc hb
    | false =>
        rw [optional_of_open hs he, optional_of_open hs' (hc ▸ he)]
        exact .done (Within.imp h)

instance follows_orElse (p p' q q' : Parser α) [Follows R R₁ p p'] [Follows R R₁ q q'] [Level R] :
    Follows R R₁ (orElse p q) (orElse p' q') := by
  refine ⟨fun h => ?_⟩
  obtain ⟨a, r, r', hs, hs', hr⟩ | ⟨e, e', hs, hs', hc, hb⟩ := Follows.cases p p' h
  · rw [orElse_of_done hs, orElse_of_done hs']
    exact .done hr
  cases he : e.committed with
  | true =>
      rw [orElse_of_committed hs he, orElse_of_committed hs' (hc ▸ he)]
      exact .failed hc hb
  | false =>
      obtain ⟨a, r, r', hq, hq', hr⟩ | ⟨d, d', hq, hq', hd, hdb⟩ := Follows.cases q q' h
      · rw [orElse_of_open_done hs he hq, orElse_of_open_done hs' (hc ▸ he) hq']
        exact .done hr
      cases hcd : d.committed with
      | true =>
          rw [orElse_of_open_committed hs he hq hcd,
            orElse_of_open_committed hs' (hc ▸ he) hq' (hd ▸ hcd)]
          exact .failed hd hdb
      | false =>
          rw [orElse_of_open_open hs he hq hcd, orElse_of_open_open hs' (hc ▸ he) hq' (hd ▸ hcd)]
          exact .failed hd (Level.blank_iff h)

instance follows_lookahead (p p' : Parser α) [Follows R R₁ p p'] [Level R] :
    Follows R R (lookahead p) (lookahead p') := by
  refine ⟨fun h => ?_⟩
  obtain ⟨a, r, r', hs, hs', hr⟩ | ⟨e, e', hs, hs', hc, hb⟩ := Follows.cases p p' h
  · rw [lookahead_of_done hs, lookahead_of_done hs']
    exact .done h
  · cases he : e.committed with
    | true =>
        rw [lookahead_of_committed hs he, lookahead_of_committed hs' (hc ▸ he)]
        exact .failed hc hb
    | false =>
        rw [lookahead_of_open hs he, lookahead_of_open hs' (hc ▸ he)]
        exact .failed hc (Level.blank_iff h)

instance follows_many (item : Parser α) [Consumes item] [Follows R R item item] :
    Follows R R (many item) (many item) := by
  refine ⟨fun {s s'} h => ?_⟩
  induction hlen : s.length using Nat.strong_induction_on generalizing s s' with
  | _ k ih =>
      obtain ⟨a, r, r', hs, hs', hr⟩ | ⟨e, e', hs, hs', hc, hb⟩ := Follows.cases item item h
      · rw [many_of_done item hs, many_of_done item hs']
        exact (ih r.length (hlen ▸ Consumes.lt hs) hr rfl).map _
      · rw [many_of_failed item hs, many_of_failed item hs', hc]
        cases e'.committed
        · exact .done h
        · exact .failed hc hb

instance follows_separated (item : Parser α) (separator : Parser β) [Consumes item]
    [Keeps separator] [Follows R R item item] [Follows R R₁ separator separator]
    [Follows R₁ R item item] :
    Follows R R (separated item separator) (separated item separator) := by
  unfold separated; infer_instance

instance follows_manyUntil (σ : Site) (stop : Parser β) (item : Parser α) [Consumes item]
    [Follows (AtToken σ) R₁ stop stop] [Follows (AtToken σ) R₂ item item]
    [Within R₂ (BehindGap σ)] :
    Follows (BehindGap σ) R₁ (manyUntil Token.isTrivia stop item)
      (manyUntil Token.isTrivia stop item) := by
  refine ⟨fun {s s'} h => ?_⟩
  induction hlen : s.length using Nat.strong_induction_on generalizing s s' with
  | _ k ih =>
      have hd : AtToken σ _ _ := h
      obtain ⟨b, r, r', hs, hs', hr⟩ | ⟨e, e', hs, hs', hc, hb⟩ := Follows.cases stop stop hd
      · rw [manyUntil_of_stop item stop rfl hs, manyUntil_of_stop item stop rfl hs']
        exact .done hr
      cases he : e.committed with
      | true =>
          rw [manyUntil_of_committed item stop rfl hs he,
            manyUntil_of_committed item stop rfl hs' (hc ▸ he)]
          exact .failed hc hb
      | false =>
          obtain ⟨a, r, r', hi, hi', hr⟩ | ⟨f, f', hi, hi', hf, hfb⟩ :=
              Follows.cases item item hd
          · have hlt : r.length < k := hlen ▸ length_lt_of_dropWhile item hi
            rw [manyUntil_of_done item stop rfl hs he hi,
              manyUntil_of_done item stop rfl hs' (hc ▸ he) hi']
            exact (ih r.length hlt (Within.imp hr) rfl).map _
          · rw [manyUntil_of_failed item stop rfl hs he hi,
              manyUntil_of_failed item stop rfl hs' (hc ▸ he) hi']
            exact .failed hf hfb

instance follows_manyUntil_respaced (σ : Site) (stop : Parser β) (item : Parser α) [Consumes item]
    [h : Follows (BehindGap σ) R₁ (manyUntil Token.isTrivia stop item)
      (manyUntil Token.isTrivia stop item)] :
    Follows (Respaced σ) R₁ (manyUntil Token.isTrivia stop item)
      (manyUntil Token.isTrivia stop item) := h.of_within

/-- Takes no trivia. -/
class Solid (accept : Token → Option α) : Prop where
  not_trivia : ∀ {t : Token} {a : α}, accept t = some a → t.isTrivia = false

lemma token_of_blank {accept : Token → Option α} [Solid accept] {s : Tokens} (h : Blank s) :
    token accept s = .failed ⟨false, [], s, none⟩ := by
  cases s with
  | nil => rfl
  | cons t s =>
      simp only [token]
      cases ht : accept t.value with
      | none => rfl
      | some a =>
          have hsig := Solid.not_trivia ht
          rw [(blank_cons.1 h).1] at hsig
          cases hsig

lemma Solid.eq_none {accept : Token → Option α} [Solid accept] {t : Token}
    (ht : t.isTrivia = true) : accept t = none := by
  by_contra hne
  obtain ⟨a, ha⟩ := Option.ne_none_iff_exists'.1 hne
  rw [Solid.not_trivia ha] at ht
  cases ht

/-- A token that is taken has no gap in front of it on either side. -/
lemma follows_token_of_after {σ σ' : Site} (accept : Token → Option α) [Solid accept]
    (h : ∀ {t a}, accept t = some a → σ.after t = σ') :
    Follows (Respaced σ) (Respaced σ') (token accept) (token accept) := by
  refine ⟨fun hs => ?_⟩
  cases hs with
  | blank hs hs' =>
      rw [token_of_blank hs, token_of_blank hs']
      exact .failed rfl (iff_of_true hs hs')
  | @gap _ g g' w w' t hg ht hw =>
      have hleft : ∀ g w, ¬ Blank (g ++ t :: w) :=
        fun g w hb => not_blank_cons ht w (blank_append.1 hb).2
      rcases hg.cases with ⟨rfl, rfl⟩ | ⟨x, u, x', u', rfl, rfl, hx, hx'⟩
      · simp only [List.nil_append, token]
        cases ha : accept t.value with
        | none => exact .failed rfl (iff_of_false (hleft [] w) (hleft [] w'))
        | some a => exact .done (h ha ▸ hw)
      · simp only [List.cons_append, token, Solid.eq_none hx, Solid.eq_none hx']
        exact .failed rfl (iff_of_false (hleft (x :: u) w) (hleft (x' :: u') w'))

instance follows_token (σ : Site) (accept : Token → Option α) [Unmoved Site.after σ accept]
    [Solid accept] : Follows (Respaced σ) (Respaced σ) (token accept) (token accept) :=
  follows_token_of_after accept Unmoved.step_eq

instance follows_atEnd (σ : Site) : Follows (AtToken σ) (AtToken σ) atEnd atEnd := by
  refine ⟨fun h => ?_⟩
  cases h with
  | nil => exact .done .nil
  | cons ht hw => exact .failed rfl (iff_of_false (not_blank_cons ht _) (not_blank_cons ht _))

/-- Without tokens the parser fails openly, right where it began. -/
class Wants (p : Parser α) : Prop where
  refuses : ∃ what, p [] = .failed ⟨false, what, [], none⟩

instance wants_token (accept : Token → Option α) : Wants (token accept) := ⟨[], rfl⟩

instance wants_label (what : Expected) (p : Parser α) [Wants p] : Wants (label what p) := by
  obtain ⟨_, h⟩ := Wants.refuses (p := p)
  exact ⟨_, label_of_failed what h⟩

instance wants_bind (p : Parser α) (f : α → Parser β) [Wants p] : Wants (p >>= f) := by
  obtain ⟨_, h⟩ := Wants.refuses (p := p)
  exact ⟨_, bind_of_failed f h⟩

end Follows

end Parser

/-! ## The grammar -/

namespace Grammar

variable (σ : Site)

instance : Follows (Respaced σ) (AtToken σ) gap gap := ⟨fun h => .done h.behindGap⟩

lemma gap1_of_not_trivia {t : Located Token} (ht : t.value.isTrivia = false) (w : Tokens) :
    gap1 (t :: w) = .failed ⟨false, [], t :: w, none⟩ := by
  refine bind_of_failed _ ?_
  simp [token, ht]

lemma gap1_of_trivia {x : Located Token} (hx : x.value.isTrivia = true) (w : Tokens) :
    gap1 (x :: w) = .done () (w.dropWhile fun t => t.value.isTrivia) := by
  have htoken : token (fun t => if t.isTrivia then some () else none) (x :: w)
      = .done ⟨(), x.span⟩ w := by
    simp [token, hx]
  exact bind_of_done _ htoken

/-- At the end of the tokens it makes no difference whether there are trivia, if what comes behind
them needs a token. -/
instance follows_gap1_bind (f f' : Unit → Parser α) {R : Tokens → Tokens → Prop} [Wants (f ())]
    [Wants (f' ())] [Follows (AtToken σ) R (f ()) (f' ())] :
    Follows (Respaced σ) R (gap1 >>= f) (gap1 >>= f') := by
  have hend : ∀ (f : Unit → Parser α) [Wants (f ())] {s : Tokens}, Blank s →
      ∃ what, (gap1 >>= f) s = .failed ⟨false, what, [], none⟩ := by
    intro f _ s hs
    cases s with
    | nil => exact ⟨[], rfl⟩
    | cons x s =>
        obtain ⟨hx, hs⟩ := blank_cons.1 hs
        rw [bind_of_done f (gap1_of_trivia hx s), dropWhile_trivia_of_blank hs]
        exact Wants.refuses
  refine ⟨fun h => ?_⟩
  cases h with
  | blank hs hs' =>
      obtain ⟨_, he⟩ := hend f hs
      obtain ⟨_, he'⟩ := hend f' hs'
      rw [he, he']
      exact .failed rfl Iff.rfl
  | @gap _ g g' w w' t hg ht hw =>
      rcases hg.cases with ⟨rfl, rfl⟩ | ⟨x, u, x', u', rfl, rfl, hx, hx'⟩
      · rw [List.nil_append, List.nil_append, bind_of_failed f (gap1_of_not_trivia ht w),
          bind_of_failed f' (gap1_of_not_trivia ht w')]
        exact .failed rfl (iff_of_false (not_blank_cons ht w) (not_blank_cons ht w'))
      · have hu := (blank_cons.1 hg.blank).2
        have hu' := (blank_cons.1 hg.blank').2
        rw [List.cons_append, List.cons_append, bind_of_done f (gap1_of_trivia hx _),
          bind_of_done f' (gap1_of_trivia hx' _), dropWhile_trivia_append hu ht,
          dropWhile_trivia_append hu' ht]
        exact Follows.agree (AtToken.cons ht hw)

/-! ### Marks and words -/

instance : CalmNames Site.after σ := by
  refine ⟨fun {t} hmark huse => ?_⟩
  cases t with
  | mark m => exact absurd rfl (hmark m)
  | keyword k => cases k <;> first | rfl | exact absurd rfl huse
  | _ => rfl

instance : CalmWords Site.after .inside := by
  refine ⟨fun {t} hmark => ?_⟩
  cases t with
  | mark m => exact absurd rfl (hmark m)
  | keyword k => cases k <;> rfl
  | _ => rfl

instance : Calm Site.after σ (.mark .comma) := ⟨rfl⟩

instance : Calm Site.after σ (.mark .colon) := ⟨rfl⟩

instance : Calm Site.after σ (.mark .arrow) := ⟨rfl⟩

instance : Calm Site.after σ (.mark .greater) := ⟨rfl⟩

instance : Calm Site.after σ (.mark .leftParen) := ⟨rfl⟩

instance : Calm Site.after σ (.mark .rightParen) := ⟨rfl⟩

instance : Calm Site.after σ (.mark .rightBracket) := ⟨rfl⟩

lemma follows_exactly {σ σ' : Site} (what : Expected) {x : Token} (hx : x.isTrivia = false)
    (h : σ.after x = σ') :
    Follows (Respaced σ) (Respaced σ') (exactly what (· = x)) (exactly what (· = x)) := by
  have hsome : ∀ {t : Token} {a : Unit}, (if decide (t = x) then some () else none) = some a →
      t = x := by
    intro t a ha
    by_contra hne
    rw [if_neg (by simpa using hne)] at ha
    cases ha
  have : Solid fun t => if decide (t = x) then some () else none :=
    ⟨fun ha => hsome ha ▸ hx⟩
  have : Follows (Respaced σ) (Respaced σ')
      (token fun t => if decide (t = x) then some () else none)
      (token fun t => if decide (t = x) then some () else none) :=
    follows_token_of_after _ fun ha => hsome ha ▸ h
  unfold exactly
  infer_instance

instance (m : Mark) [Calm Site.after σ (.mark m)] :
    Follows (Respaced σ) (Respaced σ) (mark m) (mark m) :=
  follows_exactly _ rfl Calm.step_eq

instance (k : Keyword) [Calm Site.after σ (.keyword k)] :
    Follows (Respaced σ) (Respaced σ) (keyword k) (keyword k) :=
  follows_exactly _ rfl Calm.step_eq

instance (depth : ℕ) : Follows (Respaced (.outside depth)) (Respaced (.outside (depth + 1)))
    (mark .leftBrace) (mark .leftBrace) := follows_exactly _ rfl rfl

instance (depth : ℕ) : Follows (Respaced (.outside (depth + 1))) (Respaced (.outside depth))
    (mark .rightBrace) (mark .rightBrace) := follows_exactly _ rfl rfl

instance : Follows (Respaced .heading) (Respaced .inside) (mark .leftBrace) (mark .leftBrace) :=
  follows_exactly _ rfl rfl

instance : Follows (Respaced .inside) (Respaced (.outside 0)) (mark .rightBrace)
    (mark .rightBrace) := follows_exactly _ rfl rfl

instance : Solid nameOf := ⟨fun {t _} h => by cases t <;> first | rfl | cases h⟩

instance : Solid identifierOf := ⟨fun {t _} h => by cases t <;> first | rfl | cases h⟩

instance : Solid actorKindOf := ⟨fun {t _} h => by cases t <;> first | rfl | cases h⟩

instance : Solid percentageOf := ⟨fun {t _} h => by cases t <;> first | rfl | cases h⟩

instance : Solid propertyKeyOf := ⟨fun {t _} h => by cases t <;> first | rfl | cases h⟩

instance : Solid modifierValueOf := ⟨fun {t _} h => by cases t <;> first | rfl | cases h⟩

instance : Solid wordOf := ⟨fun {t _} h => by cases t <;> first | rfl | cases h⟩

instance : Follows (Respaced σ) (Respaced σ) anyName anyName := by unfold anyName; infer_instance

instance : Wants anyName := by unfold anyName; infer_instance

instance : Follows (Respaced σ) (Respaced σ) bareName bareName := by
  unfold bareName; infer_instance

instance (m : Mark) [Calm Site.after σ (.mark m)] :
    Follows (Respaced σ) (AtToken σ) (around m) (around m) := by unfold around; infer_instance

instance : Follows (Respaced σ) (AtToken σ) listComma listComma := by
  unfold listComma; infer_instance

instance : Follows (Respaced σ) (Respaced σ) names names := by unfold names; infer_instance

instance {σ σ₁ : Site} {R R₂ : Tokens → Tokens → Prop} (item : Parser α) [Consumes item]
    [Follows (Respaced σ) (Respaced σ₁) (mark .leftBrace) (mark .leftBrace)]
    [Follows (AtToken σ₁) R₂ item item] [Within R₂ (BehindGap σ₁)]
    [Follows (AtToken σ₁) R (mark .rightBrace) (mark .rightBrace)] :
    Follows (Respaced σ) R (block item) (block item) := by
  unfold block; infer_instance

/-! ### Entities -/

section Entities

variable (depth : ℕ)

instance : Follows (Respaced σ) (Respaced σ) actor actor := by unfold actor; infer_instance

instance : Wants actor := by unfold actor; infer_instance

instance : Follows (Respaced (.outside depth)) (Respaced (.outside depth)) domain domain := by
  unfold domain; infer_instance

instance : Wants domain := by unfold domain; infer_instance

instance : Follows (Respaced σ) (Respaced σ) rule rule := by unfold rule; infer_instance

instance : Follows (Respaced σ) (Respaced σ) rules rules := by unfold rules; infer_instance

instance (kind : Text) (opening : Option Span) : Follows (Respaced σ) (Respaced σ)
    (rulesBehind kind opening) (rulesBehind kind opening) := by
  cases opening <;> (unfold rulesBehind; infer_instance)

instance : Follows (Respaced σ) (Respaced σ) rollout rollout := by
  rw [rollout_eq]; infer_instance

instance (start start' : Tokens) (key : String) : Follows (Respaced σ) (Respaced σ)
    (propertyValue start key) (propertyValue start' key) := by
  unfold propertyValue
  split_ifs
  all_goals first | infer_instance | exact follows_reject start start' _

instance : Follows (Respaced σ) (Respaced σ) property property := by
  unfold property; infer_instance

instance : Follows (Respaced (.outside depth)) (Respaced (.outside depth)) service service := by
  unfold service; infer_instance

instance : Wants service := by unfold service; infer_instance

instance (start start' : Tokens) (field : Option ExposureKey) : Follows (Respaced σ) (Respaced σ)
    (exposureLineOf start field) (exposureLineOf start' field) := by
  cases field with
  | none => exact follows_reject start start' _
  | some field => unfold exposureLineOf; infer_instance

instance : Follows (Respaced σ) (Respaced σ) exposureLine exposureLine := by
  unfold exposureLine; infer_instance

end Entities

/-! ### Architectures -/

section Architectures

variable (depth : ℕ)

instance : Follows (Respaced σ) (Respaced σ) modifier modifier := by unfold modifier; infer_instance

instance : Follows (Respaced σ) (Respaced σ) modifiers modifiers := by
  unfold modifiers; infer_instance

section Blanks

variable {g w : Tokens} {t : Located Token}

/-- Trivia are blanks or line ends. -/
lemma isInlineTrivia_of_ne {x : Token} (hx : x.isTrivia = true) (hne : x ≠ .newline) :
    x.isInlineTrivia = true := by
  cases x with
  | newline => exact absurd rfl hne
  | lineComment | whitespace => rfl
  | _ => cases hx

lemma not_isInlineTrivia {x : Token} (hx : x.isTrivia = false) : x.isInlineTrivia = false := by
  cases x with
  | lineComment | whitespace => cases hx
  | _ => rfl

lemma blanks_of_not_broken (hg : Blank g) (hbroken : ¬ Broken g) (ht : t.value.isTrivia = false) :
    blanks (g ++ t :: w) = .done () (t :: w) := by
  have hinline : ∀ x ∈ g, x.value.isInlineTrivia = true :=
    fun x hx => isInlineTrivia_of_ne (hg x hx) fun hne => hbroken ⟨x, hx, hne⟩
  change Outcome.done () _ = _
  rw [List.dropWhile_append_of_pos hinline,
    List.dropWhile_cons_of_neg (by simp [not_isInlineTrivia ht])]

/-- Blanks are read up to the first line end. -/
lemma blanks_of_broken (hg : Blank g) (hbroken : Broken g) (s : Tokens) :
    ∃ n u, blanks (g ++ s) = .done () (n :: (u ++ s)) ∧ n.value = .newline ∧ Blank u := by
  induction g with
  | nil =>
      obtain ⟨x, hx, -⟩ := hbroken
      cases hx
  | cons x g ih =>
      obtain ⟨hx, hg⟩ := blank_cons.1 hg
      by_cases hnew : x.value = .newline
      · refine ⟨x, g, ?_, hnew, hg⟩
        exact congrArg (Outcome.done ()) (List.dropWhile_cons_of_neg (by simp [hnew]; rfl))
      · have hbroken' : Broken g := by
          obtain ⟨y, hy, hyn⟩ := hbroken
          rcases List.mem_cons.1 hy with rfl | hy
          · exact absurd hyn hnew
          · exact ⟨y, hy, hyn⟩
        obtain ⟨n, u, hblanks, hn, hu⟩ := ih hg hbroken'
        refine ⟨n, u, Eq.trans ?_ hblanks, hn, hu⟩
        exact congrArg (Outcome.done ()) (List.dropWhile_cons_of_pos (isInlineTrivia_of_ne hx hnew))

lemma bracketed_of_attached (hg : Blank g) (hbroken : ¬ Broken g)
    (ht : t.value = .mark .leftBracket) : bracketed (g ++ t :: w) = modifiers w :=
  (bind_of_done _ (blanks_of_not_broken hg hbroken (by rw [ht]; rfl))).trans
    (bind_of_done _ (mark_cons_of_eq w ht))

/-- Behind a line end no bracket is looked for. -/
lemma bracketed_of_not_attached (hg : Blank g) (ht : t.value.isTrivia = false)
    (h : Broken g ∨ t.value ≠ .mark .leftBracket) :
    ∃ r, bracketed (g ++ t :: w) = .failed ⟨false, [.mark .leftBracket], r, none⟩ ∧
      ¬ Blank r := by
  by_cases hbroken : Broken g
  · obtain ⟨n, u, hblanks, hn, -⟩ := blanks_of_broken hg hbroken (t :: w)
    have hne : n.value ≠ .mark .leftBracket := by simp [hn]
    refine ⟨_, (bind_of_done _ hblanks).trans (bind_of_failed _ (mark_cons_of_ne _ hne)), ?_⟩
    exact fun hb => not_blank_cons ht w (blank_append.1 (blank_cons.1 hb).2).2
  · have hne := h.resolve_left hbroken
    exact ⟨_, (bind_of_done _ (blanks_of_not_broken hg hbroken ht)).trans
      (bind_of_failed _ (mark_cons_of_ne w hne)), not_blank_cons ht w⟩

end Blanks

instance : Follows (Respaced σ) (Respaced σ) bracketed bracketed := by
  refine ⟨fun h => ?_⟩
  cases h with
  | blank hs hs' =>
      obtain ⟨r, he, hr⟩ := bracketed_of_blank hs
      obtain ⟨r', he', hr'⟩ := bracketed_of_blank hs'
      rw [he, he']
      exact .failed rfl (iff_of_true hr hr')
  | @gap _ g g' w w' t hg ht hw =>
      by_cases hat : ¬ Broken g ∧ t.value = .mark .leftBracket
      · obtain ⟨hbroken, hx⟩ := hat
        rw [bracketed_of_attached hg.blank hbroken hx,
          bracketed_of_attached hg.blank' (mt (hg.broken_iff (.inr hx)).2 hbroken) hx]
        rw [hx] at hw
        exact Follows.agree (R := Respaced σ) hw
      · have hat' : ¬ (¬ Broken g' ∧ t.value = .mark .leftBracket) := fun ⟨hbroken, hx⟩ =>
          hat ⟨mt (hg.broken_iff (.inr hx)).1 hbroken, hx⟩
        obtain ⟨r, he, hr⟩ := bracketed_of_not_attached (w := w) hg.blank ht (by tauto)
        obtain ⟨r', he', hr'⟩ := bracketed_of_not_attached (w := w') hg.blank' ht (by tauto)
        rw [he, he']
        exact .failed rfl (iff_of_false hr hr')

instance : Follows (Respaced σ) (Respaced σ) node node := by unfold node; infer_instance

instance : Follows (Respaced σ) (Respaced σ) chain chain := by unfold chain; infer_instance

instance : Follows (Respaced σ) (Respaced σ) header header := by unfold header; infer_instance

instance : Follows (AtToken (.outside (depth + 1))) (AtToken (.outside (depth + 1))) sectionEnd
    sectionEnd := by
  have : Follows (AtToken (.outside (depth + 1))) (AtToken (.outside (depth + 1)))
      (lookahead (mark .rightBrace >>= fun _ => pure ()))
      (lookahead (mark .rightBrace >>= fun _ => pure ())) := inferInstance
  unfold sectionEnd
  infer_instance

instance : Follows (Respaced (.outside (depth + 1))) (AtToken (.outside (depth + 1))) components
    components := by
  unfold components; infer_instance

instance {R : Tokens → Tokens → Prop} [Level R] (start start' : Tokens)
    (components : List ComponentDecl) (layer : Option Layer) :
    Follows R R (layered start components layer) (layered start' components layer) := by
  cases layer with
  | none => exact follows_reject start start' _
  | some layer => unfold layered; infer_instance

instance : Follows (Respaced (.outside (depth + 1))) (AtToken (.outside (depth + 1))) layer
    layer := by
  unfold layer; infer_instance

end Architectures

/-! ### Use cases -/

section UseCases

/-- A line end in the gap stays there, and so does all behind it. -/
instance : Follows (Respaced .inside) PastBlanks blanks blanks := by
  refine ⟨fun h => ?_⟩
  cases h with
  | blank hs hs' =>
      have hhead : ∀ s : Tokens, ∀ t ∈ (s.dropWhile fun t => t.value.isInlineTrivia).head?,
          t.value.isInlineTrivia = false := fun s t ht => by
        have hnot := List.head?_dropWhile_not (fun t : Located Token => t.value.isInlineTrivia) s
        rw [Option.mem_def.1 ht] at hnot
        simpa using hnot
      have hrest := hs.suffix (List.dropWhile_suffix fun t => t.value.isInlineTrivia)
      have hrest' := hs'.suffix (List.dropWhile_suffix fun t => t.value.isInlineTrivia)
      exact .done ⟨.blank hrest hrest', hhead _, hhead _⟩
  | @gap _ g g' w w' t hg ht hw =>
      by_cases hbroken : Broken g
      · have hbroken' := (hg.broken_iff (.inl rfl)).1 hbroken
        obtain ⟨n, u, hblanks, hn, hu⟩ := blanks_of_broken hg.blank hbroken (t :: w)
        obtain ⟨n', u', hblanks', hn', hu'⟩ := blanks_of_broken hg.blank' hbroken' (t :: w')
        have hline : ∀ {n : Located Token}, n.value = .newline → n.value.isInlineTrivia = false :=
          fun hn => hn ▸ rfl
        rw [hblanks, hblanks']
        exact .done ⟨.gap (sameGap_of_newline hn hn' hu hu') ht hw, by simpa using hline hn,
          by simpa using hline hn'⟩
      · have hbroken' := mt (hg.broken_iff (.inl rfl)).2 hbroken
        have hsolid := not_isInlineTrivia ht
        rw [blanks_of_not_broken hg.blank hbroken ht, blanks_of_not_broken hg.blank' hbroken' ht]
        exact .done ⟨.gap (sameGap_nil _ _) ht hw, by simpa using hsolid, by simpa using hsolid⟩

lemma endOfLine_newline {n : Located Token} (hn : n.value = .newline) (s : Tokens) :
    endOfLine (n :: s) = .done () s := by
  simp [endOfLine, label, orElse, lineBreak, exactly, token, bind_apply, pure_apply, hn]

lemma endOfLine_brace {x : Located Token} (hx : x.value = .mark .rightBrace) (s : Tokens) :
    endOfLine (x :: s) = .done () (x :: s) := by
  simp [endOfLine, label, orElse, lookahead, lineBreak, mark, exactly, token, bind_apply,
    pure_apply, hx]

lemma endOfLine_of_ne {x : Located Token} (hn : x.value ≠ .newline)
    (hx : x.value ≠ .mark .rightBrace) (s : Tokens) :
    ∃ what, endOfLine (x :: s) = .failed ⟨false, what, x :: s, none⟩ := by
  simp [endOfLine, label, orElse, lookahead, atEnd, lineBreak, mark, exactly, token, bind_apply,
    hn, hx]

instance : Follows PastBlanks (BehindGap .inside) endOfLine endOfLine := by
  refine ⟨fun {s s'} ⟨h, hhead, hhead'⟩ => ?_⟩
  -- trivia behind blanks begin with a line end
  have hline : ∀ {x : Located Token} {u : Tokens}, x.value.isTrivia = true →
      (∀ t ∈ (x :: u).head?, t.value.isInlineTrivia = false) → x.value = .newline := by
    intro x u hx hhead
    by_contra hne
    have hblank := hhead x rfl
    rw [isInlineTrivia_of_ne hx hne] at hblank
    cases hblank
  cases h with
  | blank hs hs' =>
      have hend : ∀ {s : Tokens}, Blank s → (∀ t ∈ s.head?, t.value.isInlineTrivia = false) →
          ∃ r, endOfLine s = .done () r ∧ Blank r := by
        intro s hs hhead
        cases s with
        | nil => exact ⟨[], rfl, blank_nil⟩
        | cons x s =>
            obtain ⟨hx, hs⟩ := blank_cons.1 hs
            exact ⟨s, endOfLine_newline (hline hx hhead) s, hs⟩
      obtain ⟨r, he, hr⟩ := hend hs hhead
      obtain ⟨r', he', hr'⟩ := hend hs' hhead'
      rw [he, he']
      exact .done (Respaced.blank hr hr').behindGap
  | @gap _ g g' w w' t hg ht hw =>
      rcases hg.cases with ⟨rfl, rfl⟩ | ⟨x, u, x', u', rfl, rfl, hx, hx'⟩
      · rw [List.nil_append, List.nil_append]
        by_cases hbrace : t.value = .mark .rightBrace
        · rw [endOfLine_brace hbrace, endOfLine_brace hbrace]
          exact .done (AtToken.cons ht hw).respaced.behindGap
        · have hn : t.value ≠ .newline := fun hn => by rw [hn] at ht; cases ht
          obtain ⟨_, he⟩ := endOfLine_of_ne hn hbrace w
          obtain ⟨_, he'⟩ := endOfLine_of_ne hn hbrace w'
          rw [he, he']
          exact .failed rfl (iff_of_false (not_blank_cons ht w) (not_blank_cons ht w'))
      · rw [List.cons_append, List.cons_append, endOfLine_newline (hline hx hhead),
          endOfLine_newline (hline hx' hhead')]
        refine .done ?_
        rw [BehindGap, dropWhile_trivia_append (blank_cons.1 hg.blank).2 ht,
          dropWhile_trivia_append (blank_cons.1 hg.blank').2 ht]
        exact .cons ht hw

instance : Follows (Respaced .inside) (Respaced .inside) lineWord lineWord := by
  unfold lineWord; infer_instance

instance : Follows (Respaced .inside) (BehindGap .inside) words words := by
  unfold words; infer_instance

instance {R : Tokens → Tokens → Prop} [Level R] (start start' : Tokens) (what : Expected)
    (span : Span) (form : Option α) :
    Follows R R (classified start what span form) (classified start' what span form) := by
  cases form with
  | none => exact follows_reject start start' what
  | some form => unfold classified; infer_instance

instance (start : Span) :
    Follows (Respaced .inside) (BehindGap .inside) (triggerBody start) (triggerBody start) := by
  unfold triggerBody; infer_instance

instance : Follows (Respaced .inside) (BehindGap .inside) trigger trigger := by
  unfold trigger; infer_instance

instance : Follows (Respaced .inside) (BehindGap .inside) action action := by
  unfold action; infer_instance

/-- Whatever it looks at, a lookahead leaves its input. -/
instance : Follows (AtToken .inside) (AtToken .inside) scenarioEnd scenarioEnd := by
  have hbrace : Follows (AtToken .inside) (fun _ _ => True) (mark .rightBrace >>= fun _ => pure ())
      (mark .rightBrace >>= fun _ => pure ()) := Follows.forget inferInstance
  have hwhen : Follows (AtToken .inside) (fun _ _ => True) (keyword .when >>= fun _ => pure ())
      (keyword .when >>= fun _ => pure ()) := Follows.forget inferInstance
  unfold scenarioEnd
  infer_instance

instance : Follows (AtToken .inside) (AtToken .inside) scenario scenario := by
  unfold scenario; infer_instance

end UseCases

/-! ### Declarations -/

section Declarations

variable (start : Span) (depth : ℕ)

instance : Follows (Respaced (.outside depth)) (Respaced (.outside depth)) (actorsBody start)
    (actorsBody start) := by
  unfold actorsBody; infer_instance

instance : Follows (Respaced (.outside depth)) (Respaced (.outside depth)) (actorBody start)
    (actorBody start) := by
  unfold actorBody; infer_instance

instance : Follows (Respaced (.outside depth)) (Respaced (.outside depth)) (domainsBody start)
    (domainsBody start) := by
  unfold domainsBody; infer_instance

instance : Follows (Respaced (.outside depth)) (Respaced (.outside depth)) (domainBody start)
    (domainBody start) := by
  unfold domainBody; infer_instance

instance : Follows (Respaced (.outside depth)) (Respaced (.outside depth)) (servicesBody start)
    (servicesBody start) := by
  unfold servicesBody; infer_instance

instance : Follows (Respaced (.outside depth)) (Respaced (.outside depth)) (serviceBody start)
    (serviceBody start) := by
  unfold serviceBody; infer_instance

instance : Follows (Respaced (.outside depth)) (Respaced (.outside depth)) (exposureBody start)
    (exposureBody start) := by
  unfold exposureBody; infer_instance

instance : Follows (Respaced (.outside depth)) (Respaced (.outside depth)) (archBody start)
    (archBody start) := by
  unfold archBody; infer_instance

instance : Follows (Respaced .heading) (Respaced (.outside 0)) (useCaseBody start)
    (useCaseBody start) := by
  unfold useCaseBody; infer_instance

lemma follows_declarationBody {k : Keyword} (hk : declarationKeywordOf (.keyword k) = some k) :
    Follows (Respaced (Site.after (.outside 0) (.keyword k))) (Respaced (.outside 0))
      (declarationBody start k) (declarationBody start k) := by
  cases k with
  | when | dataStores => cases hk
  | useCase =>
      change Follows (Respaced .heading) _ (useCaseBody start) (useCaseBody start)
      infer_instance
  | _ =>
      change Follows (Respaced (.outside 0)) _ _ _
      unfold declarationBody
      infer_instance

/-- The keyword decides where the tokens behind it stand. -/
instance : Follows (AtToken (.outside 0)) (Respaced (.outside 0)) declaration declaration := by
  have hopen : Follows (AtToken (.outside 0)) (Respaced (.outside 0))
      (label (.keyword .useCase) (token declarationKeywordOf) >>= fun opening =>
        commit (declarationBody opening.span opening.value))
      (label (.keyword .useCase) (token declarationKeywordOf) >>= fun opening =>
        commit (declarationBody opening.span opening.value)) := by
    refine ⟨fun h => ?_⟩
    cases h with
    | nil => exact .failed rfl Iff.rfl
    | @cons w w' t ht hw =>
        cases hk : declarationKeywordOf t.value with
        | none =>
            have hrefused : ∀ w, label (.keyword .useCase) (token declarationKeywordOf) (t :: w)
                = .failed ⟨false, [.keyword .useCase], t :: w, none⟩ := fun w => by
              simp [label, token, hk]
            rw [bind_of_failed _ (hrefused w), bind_of_failed _ (hrefused w')]
            exact .failed rfl (iff_of_false (not_blank_cons ht w) (not_blank_cons ht w'))
        | some k =>
            have hopened : ∀ w, label (.keyword .useCase) (token declarationKeywordOf) (t :: w)
                = .done ⟨k, t.span⟩ w := fun w => by
              simp [label, token, hk]
            have hkey := eq_keyword_of_declarationKeywordOf hk
            have := follows_declarationBody t.span (hkey ▸ hk)
            rw [bind_of_done _ (hopened w), bind_of_done _ (hopened w')]
            rw [hkey] at hw
            exact Follows.agree hw
  unfold declaration
  infer_instance

instance : Follows (Respaced (.outside 0)) (AtToken (.outside 0)) declarations declarations := by
  unfold declarations; infer_instance

end Declarations

end Grammar

/-! ## Token lists -/

/-- The declarations that tokens are, or the code under which they are refused. -/
def reading (ts : Tokens) : Except (Option DiagnosticCode) (List (Located Declaration)) :=
  (declarationsOfTokens ts).mapError (·.code)

/-- **Only what matters of a gap matters.** -/
theorem reading_of_respaced {s s' : Tokens} (h : Respaced (.outside 0) s s') :
    reading s' = reading s := by
  unfold reading declarationsOfTokens
  obtain ⟨ds, r, r', hs, hs', -⟩ | ⟨e, e', hs, hs', -, hb⟩ :=
    Follows.cases declarations declarations h
  · rw [hs, hs']
  · rw [hs, hs']
    exact congrArg Except.error (Failure.code_eq e' e hb.symm s' s)

end ArchLang
