import ArchLang.Proofs.Lookahead

/-!
# Declarations one behind the other

Declarations that were read are read again when more tokens stand behind them
(`declarations_append`), so a failure in the later tokens is the same failure as without the
declarations before it.  Its diagnostic need not be.  The labels of a diagnostic are made from the
place at which the failing construct went past the point of no return; where there is no such place,
or nothing that counts stands behind it, they are made from all tokens.

* **`declarationsOfTokens_append`** — behind declarations that were read, more tokens are accepted
  exactly if they are alone, and every declaration is the same as without its neighbours.
* `Failure.Anchored` — such a place is known, and something stands behind it if the input is
  incomplete.
* `Failure.seen` — the tokens up to the one at which a failure stands.
* **`diagnostic_behind_declarations`** — code, message and help are those of the later tokens alone;
  so are the labels if the failure is anchored, and otherwise the primary label begins with the
  first token of all.
* **`diagnostic_not_always_local`** — a failure that is not anchored, with a label that covers the
  declaration before it.
-/

namespace ArchLang

open ArchLang.Parser ArchLang.Grammar

/-! ## More declarations behind -/

namespace Grammar

/-- No declaration depends on what comes behind it. -/
lemma declaration_append {s r : Tokens} {d : Located Declaration} (h : declaration s = .done d r)
    (t : Tokens) : declaration (s ++ t) = .done d (r ++ t) := by
  obtain ⟨w, rfl⟩ := exists_taken h
  rw [List.append_assoc]
  exact Closed.done (p := declaration) h (r ++ t)

/-- What was read of the first tokens comes before what is read of the others. -/
lemma manyUntil_declaration_append {s r : Tokens} {found : List (Located Declaration) × Unit}
    (h : manyUntil Token.isTrivia atEnd declaration s = .done found r) (t : Tokens) :
    manyUntil Token.isTrivia atEnd declaration (s ++ t)
      = (manyUntil Token.isTrivia atEnd declaration t).map fun later =>
          (found.1 ++ later.1, later.2) := by
  induction hlen : s.length using Nat.strong_induction_on generalizing s found with
  | _ k ih =>
      rcases exists_blank_append s with hs | ⟨g, x, w, rfl, hg, hx⟩
      · rw [manyUntil_of_stop declaration atEnd (dropWhile_trivia_of_blank hs) rfl] at h
        cases h
        rw [manyUntil_blank_append declaration atEnd hs]
        cases manyUntil Token.isTrivia atEnd declaration t <;> rfl
      rw [manyUntil_blank_append declaration atEnd hg] at h
      rcases exists_turn declaration atEnd hx h with
        ⟨b, hend, -⟩ | ⟨e, d, r', found', -, -, hi, hm, rfl⟩
      · cases hend
      have hmore : manyUntil Token.isTrivia atEnd declaration (g ++ x :: w ++ t)
          = (manyUntil Token.isTrivia atEnd declaration (r' ++ t)).map fun found =>
              (d :: found.1, found.2) := by
        rw [List.append_assoc, manyUntil_blank_append declaration atEnd hg]
        exact manyUntil_of_done declaration atEnd (dropWhile_trivia_cons hx _) rfl rfl
          (declaration_append hi t)
      have hlt : r'.length < k := by
        have hshort := Consumes.lt hi
        rw [List.length_append] at hlen
        omega
      rw [hmore, ih r'.length hlt hm rfl]
      cases manyUntil Token.isTrivia atEnd declaration t <;> rfl

/-- Declarations that are complete are read the same with more tokens behind, and what is read of
those, or why it cannot be read, is the same as without the declarations before them. -/
lemma declarations_append {s r : Tokens} {ds : List (Located Declaration)}
    (h : declarations s = .done ds r) (t : Tokens) :
    declarations (s ++ t) = (declarations t).map (ds ++ ·) := by
  obtain ⟨found, hfound, rfl⟩ := declarations_eq_done h
  unfold declarations
  rw [bind_apply, bind_apply, manyUntil_declaration_append hfound t]
  cases manyUntil Token.isTrivia atEnd declaration t <;> rfl

end Grammar

/-- **Declarations concatenate.**  Tokens behind declarations that were accepted are accepted if and
only if they are accepted alone, and the result is what was read of the first tokens, followed by
what is read of the others.  A declaration takes nothing of the next one, also where no mark closes
it. -/
theorem declarationsOfTokens_append {ts₁ : Tokens} {ds₁ : List (Located Declaration)}
    (h₁ : declarationsOfTokens ts₁ = .ok ds₁) (ts₂ : Tokens) (ds : List (Located Declaration)) :
    declarationsOfTokens (ts₁ ++ ts₂) = .ok ds ↔
      ∃ ds₂, declarationsOfTokens ts₂ = .ok ds₂ ∧ ds = ds₁ ++ ds₂ := by
  simp only [declarationsOfTokens_eq_ok] at h₁ ⊢
  rw [declarations_append h₁ ts₂]
  cases hread : declarations ts₂ with
  | failed f =>
      constructor
      · intro h
        cases h
      · rintro ⟨ds₂, h₂, -⟩
        cases h₂
  | done ds₂ r =>
      obtain rfl := declarations_done hread
      constructor
      · intro h
        cases h
        exact ⟨ds₂, rfl, rfl⟩
      · rintro ⟨ds₃, h₃, rfl⟩
        cases h₃
        rfl

/-- The tokens of `actor user Customer`, a declaration without a closing mark, and a line end. -/
def customerTokens : Tokens :=
  [⟨.keyword .actor, .between 0 5⟩, ⟨.whitespace, .between 5 6⟩,
    ⟨.identifier "user", .between 6 10⟩, ⟨.whitespace, .between 10 11⟩,
    ⟨.identifier "Customer", .between 11 19⟩, ⟨.newline, .between 19 20⟩]

/-- The tokens of `actor system Clock`, behind those of `customerTokens`. -/
def clockTokens : Tokens :=
  [⟨.keyword .actor, .between 20 25⟩, ⟨.whitespace, .between 25 26⟩,
    ⟨.identifier "system", .between 26 32⟩, ⟨.whitespace, .between 32 33⟩,
    ⟨.identifier "Clock", .between 33 38⟩]

/-- Two actors, one behind the other. -/
theorem declarationsOfTokens_append_actors :
    declarationsOfTokens customerTokens = .ok
        [⟨.actor ⟨⟨"user", .between 6 10⟩, ⟨"Customer", .between 11 19⟩⟩, .between 0 19⟩] ∧
      declarationsOfTokens (customerTokens ++ clockTokens) = .ok
        [⟨.actor ⟨⟨"user", .between 6 10⟩, ⟨"Customer", .between 11 19⟩⟩, .between 0 19⟩,
          ⟨.actor ⟨⟨"system", .between 26 32⟩, ⟨"Clock", .between 33 38⟩⟩, .between 20 38⟩] := by
  have h₁ : declarationsOfTokens customerTokens = .ok
      [⟨.actor ⟨⟨"user", .between 6 10⟩, ⟨"Customer", .between 11 19⟩⟩, .between 0 19⟩] := by
    decide +kernel
  exact ⟨h₁, (declarationsOfTokens_append h₁ clockTokens _).2 ⟨_, by decide +kernel, rfl⟩⟩

/-! ## The labels of a diagnostic -/

lemma extent?_append_of_blank {g : Tokens} (hg : Blank g) (s : Tokens) :
    extent? (g ++ s) = extent? s := by
  rw [extent?, List.filter_append, filter_of_blank hg, List.nil_append, extent?]

lemma extent?_of_not_blank {s : Tokens} (h : ¬ Blank s) : ∃ span, extent? s = some span := by
  cases hs : s.filter fun t => !t.value.isTrivia with
  | nil => exact absurd (fun t ht => by simpa using List.filter_eq_nil_iff.1 hs t ht) h
  | cons first rest => exact ⟨_, by rw [extent?, hs]⟩

lemma extent?_of_blank {s : Tokens} (h : Blank s) : extent? s = none := by
  simpa [extent?] using extent?_append_of_blank h []

/-- What is examined without a place to begin from reaches back over all tokens before. -/
lemma examined_append {s t rest : Tokens} (hrest : rest <:+ t) (hs : s ≠ []) :
    examined (s ++ t) rest = s ++ t.take (t.length - rest.length + 1) := by
  have hlen := hrest.length_le
  have hpos := List.length_pos_iff.2 hs
  rw [examined, if_pos (by rw [List.length_append]; omega), List.length_append,
    show s.length + t.length - rest.length + 1 = s.length + (t.length - rest.length + 1) by omega,
    List.take_length_add_append]

lemma examined_eq_take {t rest : Tokens} (hrest : rest <:+ t) :
    examined t rest = t.take (t.length - rest.length + 1) := by
  have hlen := hrest.length_le
  by_cases hlt : rest.length < t.length
  · rw [examined, if_pos hlt]
  · obtain rfl := hrest.eq_of_length (by omega)
    rw [examined, if_neg hlt, Nat.sub_self]

namespace Failure

/-- The failure knows where its declaration went past the point of no return and, when only trivia
are left, something stands behind that point. -/
def Anchored (f : Failure) : Prop :=
  ∃ start, f.start? = some start ∧ (Blank f.rest → ¬ Blank start)

/-- The tokens up to the one at which a failure stands, all of them when only trivia are left. -/
def seen (f : Failure) (tokens : Tokens) : Tokens :=
  if Blank f.rest then tokens else tokens.take (tokens.length - f.rest.length + 1)

variable {f : Failure}

/-- The diagnostic of an anchored failure does not depend on the tokens before. -/
lemma Anchored.diagnostic_eq (h : f.Anchored) (s t : Tokens) : f.diagnostic s = f.diagnostic t := by
  obtain ⟨start, hstart, hblank⟩ := h
  by_cases hrest : Blank f.rest
  · obtain ⟨span, hspan⟩ := extent?_of_not_blank (hblank hrest)
    rw [diagnostic_of_blank hrest, diagnostic_of_blank hrest]
    simp only [incomplete, hstart, Option.getD_some, hspan, Option.some_or]
  · obtain ⟨found, hfound⟩ := diagnostic_of_not_blank hrest
    rw [hfound, hfound, unexpected, unexpected, unexpectedSpan, unexpectedSpan, hstart]
    rfl

/-- Only the labels can depend on the tokens before. -/
lemma diagnostic_but_labels (f : Failure) (s t : Tokens) :
    { f.diagnostic s with labels := (f.diagnostic t).labels } = f.diagnostic t := by
  by_cases hrest : Blank f.rest
  · rw [diagnostic_of_blank hrest, diagnostic_of_blank hrest]
    rfl
  · obtain ⟨found, hfound⟩ := diagnostic_of_not_blank hrest
    rw [hfound, hfound]
    simp only [unexpected]
    split <;> split <;> rfl

/-- The primary label of a failure that is not anchored begins with the first token of all. -/
lemma primaryPlace_of_not_anchored (h : ¬ f.Anchored) {s t : Tokens} (hrest : f.rest <:+ t)
    (hs : ¬ Blank s) : (f.diagnostic (s ++ t)).primaryPlace = extent? (s ++ f.seen t) := by
  have hblank : ∀ u, ¬ Blank (s ++ u) := fun u hu => hs (blank_append.1 hu).1
  by_cases hr : Blank f.rest
  · obtain ⟨span, hspan⟩ := extent?_of_not_blank (hblank t)
    have hstart : extent? (f.start?.getD (s ++ t)) = none ∨
        extent? (f.start?.getD (s ++ t)) = some span := by
      cases hst : f.start? with
      | none => exact Or.inr hspan
      | some start =>
          refine Or.inl (extent?_of_blank ?_)
          by_contra hne
          exact h ⟨start, hst, fun _ => hne⟩
    have hor : (extent? (f.start?.getD (s ++ t))).or (extent? (s ++ t)) = some span := by
      rcases hstart with hst | hst <;> rw [hst, hspan] <;> rfl
    rw [diagnostic_of_blank hr, seen, if_pos hr, incomplete, hor, hspan]
    rfl
  · obtain ⟨found, hfound⟩ := diagnostic_of_not_blank hr
    have hst : f.start? = none := by
      cases hst : f.start? with
      | none => rfl
      | some start => exact absurd ⟨start, hst, fun hr' => absurd hr' hr⟩ h
    have hs' : s ≠ [] := by
      rintro rfl
      exact hs blank_nil
    obtain ⟨span, hspan⟩ := extent?_of_not_blank (hblank (f.seen t))
    have hexamined : extent? (examined (f.start?.getD (s ++ t)) f.rest) = some span := by
      rw [hst, Option.getD_none, examined_append hrest hs', ← hspan, seen, if_neg hr]
    rw [hfound, unexpected, unexpectedSpan, hexamined, hspan]
    simp only [Option.getD_some]
    split <;> rfl

/-- Trivia before do not count. -/
lemma diagnostic_append_of_blank {g t : Tokens} (hg : Blank g) (hrest : f.rest <:+ t) :
    f.diagnostic (g ++ t) = f.diagnostic t := by
  by_cases hr : Blank f.rest
  · rw [diagnostic_of_blank hr, diagnostic_of_blank hr]
    cases hst : f.start? <;> simp only [incomplete, hst, Option.getD_some, Option.getD_none,
      extent?_append_of_blank hg]
  · obtain ⟨found, hfound⟩ := diagnostic_of_not_blank hr
    have hspan : f.unexpectedSpan (g ++ t) = f.unexpectedSpan t := by
      rw [unexpectedSpan, unexpectedSpan]
      cases f.start? with
      | some start => rfl
      | none =>
          cases g with
          | nil => rfl
          | cons x g =>
              rw [Option.getD_none, Option.getD_none, examined_append hrest (by simp),
                extent?_append_of_blank hg, examined_eq_take hrest]
    rw [hfound, hfound, unexpected, unexpected, hspan]

end Failure

/-- Earlier declarations have no influence on a failure behind them: the diagnostic is that of the
later tokens alone if the failure is anchored.  If it is not, everything but the labels is the same,
and the primary label begins with the first of the earlier declarations. -/
theorem diagnostic_behind_declarations {ts₁ ts₂ : Tokens} {ds : List (Located Declaration)}
    {d₂ : Diagnostic} (h₁ : declarationsOfTokens ts₁ = .ok ds)
    (h₂ : declarationsOfTokens ts₂ = .error d₂) :
    ∃ f d, declarations ts₂ = .failed f ∧ declarationsOfTokens (ts₁ ++ ts₂) = .error d ∧
      { d with labels := d₂.labels } = d₂ ∧ (f.Anchored ∨ Blank ts₁ → d = d₂) ∧
      (¬ f.Anchored → ¬ Blank ts₁ → d.primaryPlace = extent? (ts₁ ++ f.seen ts₂)) := by
  cases hs : declarations ts₁ with
  | failed e => simp [declarationsOfTokens, hs] at h₁
  | done found r =>
  cases ht : declarations ts₂ with
  | done later r' => simp [declarationsOfTokens, ht] at h₂
  | failed f =>
      have hd₂ : f.diagnostic ts₂ = d₂ := by simpa [declarationsOfTokens, ht] using h₂
      have happend : declarations (ts₁ ++ ts₂) = .failed f := by
        rw [declarations_append hs, ht]
        rfl
      have hrest : f.rest <:+ ts₂ := suffix_of_failed ht
      refine ⟨f, f.diagnostic (ts₁ ++ ts₂), rfl, by rw [declarationsOfTokens, happend], ?_, ?_, ?_⟩
      · rw [← hd₂]
        exact f.diagnostic_but_labels _ _
      · rw [← hd₂]
        rintro (hanchored | hblank)
        · exact hanchored.diagnostic_eq _ _
        · exact f.diagnostic_append_of_blank hblank hrest
      · exact fun hanchored hblank => f.primaryPlace_of_not_anchored hanchored hrest hblank

/-- The tokens of `domain Orders\x7bCart\x7d`. -/
def ordersTokens : Tokens :=
  [⟨.keyword .domain, .between 0 6⟩, ⟨.whitespace, .between 6 7⟩,
    ⟨.identifier "Orders", .between 7 13⟩, ⟨.mark .leftBrace, .between 13 14⟩,
    ⟨.identifier "Cart", .between 14 18⟩, ⟨.mark .rightBrace, .between 18 19⟩]

/-- The declaration that they are. -/
def ordersDeclaration : Located Declaration :=
  ⟨.domain ⟨⟨"Orders", .between 7 13⟩, [⟨"Cart", .between 14 18⟩]⟩, .between 0 19⟩

/-- The tokens of `domain Payments\x7d`, behind those of `ordersTokens`. -/
def unopenedTokens : Tokens :=
  [⟨.keyword .domain, .between 19 25⟩, ⟨.whitespace, .between 25 26⟩,
    ⟨.identifier "Payments", .between 26 34⟩, ⟨.mark .rightBrace, .between 34 35⟩]

/-- A failure behind `Orders` that is anchored. -/
theorem diagnostic_behind_orders :
    declarationsOfTokens ordersTokens = .ok [ordersDeclaration] ∧
      ∃ d, declarationsOfTokens unopenedTokens = .error d ∧
        declarationsOfTokens (ordersTokens ++ unopenedTokens) = .error d := by
  have h₁ : declarationsOfTokens ordersTokens = .ok [ordersDeclaration] := by decide +kernel
  have hfailed : declarations unopenedTokens = .failed ⟨true, [.mark .leftBrace, .declaration],
      unopenedTokens.drop 3, some (unopenedTokens.drop 1)⟩ := by decide +kernel
  obtain ⟨d₂, h₂⟩ : ∃ d, declarationsOfTokens unopenedTokens = .error d :=
    ⟨_, by rw [declarationsOfTokens, hfailed]⟩
  obtain ⟨f, d, hf, hd, -, hsame, -⟩ := diagnostic_behind_declarations h₁ h₂
  obtain rfl : f = _ := Outcome.failed.inj (hf.symm.trans hfailed)
  obtain rfl := hsame (Or.inl ⟨_, rfl, fun h => absurd h (by decide)⟩)
  exact ⟨h₁, d, h₂, hd⟩

/-- The tokens of `Payments\x7b\x7d`, behind those of `ordersTokens`. -/
def keywordlessTokens : Tokens :=
  [⟨.identifier "Payments", .between 19 27⟩, ⟨.mark .leftBrace, .between 27 28⟩,
    ⟨.mark .rightBrace, .between 28 29⟩]

/-- Where the keyword of a declaration is missing, the label covers the declarations before. -/
theorem diagnostic_not_always_local :
    ¬ ∀ ts₁ ts₂ ds d₂, declarationsOfTokens ts₁ = .ok ds → declarationsOfTokens ts₂ = .error d₂ →
      declarationsOfTokens (ts₁ ++ ts₂) = .error d₂ := by
  intro h
  have h₁ : declarationsOfTokens ordersTokens = .ok [ordersDeclaration] := by decide +kernel
  cases h₂ : declarationsOfTokens keywordlessTokens with
  | ok ds =>
      have herror : (declarationsOfTokens keywordlessTokens).isOk = false := by decide +kernel
      rw [h₂] at herror
      cases herror
  | error d₂ =>
      have hsame := (h _ _ _ _ h₁ h₂).trans h₂.symm
      exact absurd hsame (by decide +kernel)

end ArchLang
