import ArchLang.Proofs.Reading

/-!
# Gaps between tokens

White space, line ends and comments are read over nearly everywhere, so little of what stands
between two tokens should matter.  This file says how little: whether anything stands there at all,
in the body of a use case whether a line end does, and likewise in front of an opening bracket, for
modifiers stand on the line of their node.

* `Site` — where a token stands, with the braces counted.
* `Respaced σ s s'` — from the site `σ` on, the same tokens that count, with gaps in front of them
  that are the same as far as they matter.
* `AtToken`, `BehindGap`, `PastBlanks` — the same where a reader has passed over trivia.
* `spacing` — the tokens that count, each with what stands in front of it; the trivia behind the
  last of them are dropped.
* **`respaced_of_spacing`** — spacings that are the same as far as they matter make respaced tokens.
-/

namespace ArchLang

open ArchLang.Parser

/-! ## Sites -/

/-- Where a token stands. -/
inductive Site where
  /-- in no use case, but in so many braces -/
  | outside (depth : ℕ)
  /-- behind the keyword of a use case -/
  | heading
  /-- in the braces of a use case -/
  | inside
  deriving DecidableEq

namespace Site

/-- Where the next token stands.  A use case begins at its keyword, unless a brace is open there,
its body at the next opening brace, and the body ends at the closing brace that follows. -/
def after (σ : Site) : Token → Site
  | .keyword .useCase =>
    match σ with
    | outside 0 => heading
    | σ => σ
  | .mark .leftBrace =>
    match σ with
    | outside depth => outside (depth + 1)
    | _ => inside
  | .mark .rightBrace =>
    match σ with
    | outside depth => outside (depth - 1)
    | heading => heading
    | inside => outside 0
  | _ => σ

/-- Whether it matters that a line end stands in front of a token. -/
def Minds (σ : Site) (t : Token) : Prop := σ = inside ∨ t = .mark .leftBracket

end Site

/-! ## The same tokens in other gaps -/

/-- A line end stands among the tokens. -/
def Broken (g : Tokens) : Prop := ∃ t ∈ g, t.value = .newline

/-- Two gaps in front of a token that are the same as far as they matter. -/
structure SameGap (σ : Site) (t : Token) (g g' : Tokens) : Prop where
  blank : Blank g
  blank' : Blank g'
  nil_iff : g = [] ↔ g' = []
  broken_iff : σ.Minds t → (Broken g ↔ Broken g')

/-- The same tokens that count, in gaps that are the same as far as they matter.  Nothing matters
behind the last of them. -/
inductive Respaced : Site → Tokens → Tokens → Prop where
  | blank {σ : Site} {s s' : Tokens} : Blank s → Blank s' → Respaced σ s s'
  | gap {σ : Site} {g g' w w' : Tokens} {t : Located Token} : SameGap σ t.value g g' →
      t.value.isTrivia = false → Respaced (σ.after t.value) w w' →
      Respaced σ (g ++ t :: w) (g' ++ t :: w')

/-- Respaced tokens without trivia in front. -/
inductive AtToken (σ : Site) : Tokens → Tokens → Prop where
  | nil : AtToken σ [] []
  | cons {w w' : Tokens} {t : Located Token} : t.value.isTrivia = false →
      Respaced (σ.after t.value) w w' → AtToken σ (t :: w) (t :: w')

/-- Respaced tokens but for the trivia in front, which may be any. -/
def BehindGap (σ : Site) (s s' : Tokens) : Prop :=
  AtToken σ (s.dropWhile fun t => t.value.isTrivia) (s'.dropWhile fun t => t.value.isTrivia)

/-- Respaced tokens of a line without blanks in front. -/
structure PastBlanks (s s' : Tokens) : Prop where
  respaced : Respaced .inside s s'
  head : ∀ t ∈ s.head?, t.value.isInlineTrivia = false
  head' : ∀ t ∈ s'.head?, t.value.isInlineTrivia = false

lemma sameGap_nil (σ : Site) (t : Token) : SameGap σ t [] [] :=
  ⟨blank_nil, blank_nil, Iff.rfl, fun _ => Iff.rfl⟩

lemma sameGap_of_newline {σ : Site} {t : Token} {n n' : Located Token} {u u' : Tokens}
    (hn : n.value = .newline) (hn' : n'.value = .newline) (hu : Blank u) (hu' : Blank u') :
    SameGap σ t (n :: u) (n' :: u') where
  blank := blank_cons.2 ⟨hn ▸ rfl, hu⟩
  blank' := blank_cons.2 ⟨hn' ▸ rfl, hu'⟩
  nil_iff := by simp
  broken_iff _ := iff_of_true ⟨n, by simp, hn⟩ ⟨n', by simp, hn'⟩

lemma SameGap.cases {σ : Site} {t : Token} {g g' : Tokens} (h : SameGap σ t g g') :
    (g = [] ∧ g' = []) ∨ ∃ x u x' u', g = x :: u ∧ g' = x' :: u' ∧ x.value.isTrivia = true ∧
      x'.value.isTrivia = true := by
  rcases g with - | ⟨x, u⟩
  · exact .inl ⟨rfl, h.nil_iff.1 rfl⟩
  · rcases g' with - | ⟨x', u'⟩
    · exact absurd (h.nil_iff.2 rfl) (List.cons_ne_nil x u)
    · exact .inr ⟨x, u, x', u', rfl, rfl, (blank_cons.1 h.blank).1, (blank_cons.1 h.blank').1⟩

lemma AtToken.respaced {σ : Site} {s s' : Tokens} (h : AtToken σ s s') : Respaced σ s s' := by
  cases h with
  | nil => exact .blank blank_nil blank_nil
  | cons ht hw => exact .gap (sameGap_nil σ _) ht hw

lemma Respaced.behindGap {σ : Site} {s s' : Tokens} (h : Respaced σ s s') : BehindGap σ s s' := by
  cases h with
  | blank hs hs' =>
      rw [BehindGap, dropWhile_trivia_of_blank hs, dropWhile_trivia_of_blank hs']
      exact .nil
  | gap hg ht hw =>
      rw [BehindGap, dropWhile_trivia_append hg.blank ht, dropWhile_trivia_append hg.blank' ht]
      exact .cons ht hw

lemma AtToken.nil_iff {σ : Site} {s s' : Tokens} (h : AtToken σ s s') : s = [] ↔ s' = [] := by
  cases h <;> simp

/-- Both hold a token that counts, or neither does. -/
lemma BehindGap.blank_iff {σ : Site} {s s' : Tokens} (h : BehindGap σ s s') :
    Blank s ↔ Blank s' := by
  simpa only [List.dropWhile_eq_nil_iff, Blank] using AtToken.nil_iff h

/-! ## Spacings -/

/-- What stands in front of a token, as far as it can matter. -/
inductive Space where
  | none
  /-- white space and comments on one line -/
  | blank
  /-- trivia with a line end among them -/
  | broken
  deriving DecidableEq

/-- The space with one more token of trivia. -/
def Space.push : Space → Token → Space
  | _, .newline => broken
  | broken, _ => broken
  | _, _ => blank

/-- The tokens that count, each with the space in front of it.  A space has been met already. -/
def spacing (met : Space) : Tokens → List (Space × Located Token)
  | [] => []
  | t :: s => if t.value.isTrivia then spacing (met.push t.value) s else (met, t) :: spacing .none s

/-- The same tokens, in spaces that are the same as far as they matter. -/
inductive SameSpacing : Site → List (Space × Located Token) → List (Space × Located Token) →
    Prop where
  | nil {σ : Site} : SameSpacing σ [] []
  | cons {σ : Site} {sp sp' : Space} {t : Located Token} {l l' : List (Space × Located Token)} :
      (sp = .none ↔ sp' = .none) → (σ.Minds t.value → sp = sp') →
      SameSpacing (σ.after t.value) l l' → SameSpacing σ ((sp, t) :: l) ((sp', t) :: l')

lemma sameSpacing_refl (l : List (Space × Located Token)) (σ : Site) : SameSpacing σ l l := by
  induction l generalizing σ with
  | nil => exact .nil
  | cons x l ih => exact .cons Iff.rfl (fun _ => rfl) (ih _)

/-- What stands in a gap. -/
def spaceOf (g : Tokens) : Space := g.foldl (fun sp t => sp.push t.value) .none

section Spacing

variable {g s : Tokens} {t : Located Token} {sp : Space}

lemma spacing_cons_of_trivia (ht : t.value.isTrivia = true) :
    spacing sp (t :: s) = spacing (sp.push t.value) s := if_pos ht

lemma spacing_cons (ht : t.value.isTrivia = false) :
    spacing sp (t :: s) = (sp, t) :: spacing .none s := if_neg (by simp [ht])

lemma spacing_blank_append (hg : Blank g) :
    spacing sp (g ++ s) = spacing (g.foldl (fun sp t => sp.push t.value) sp) s := by
  induction g generalizing sp with
  | nil => rfl
  | cons t g ih =>
      obtain ⟨ht, hg⟩ := blank_cons.1 hg
      rw [List.cons_append, spacing_cons_of_trivia ht, ih hg, List.foldl_cons]

lemma spacing_gap (hg : Blank g) (ht : t.value.isTrivia = false) :
    spacing .none (g ++ t :: s) = (spaceOf g, t) :: spacing .none s := by
  rw [spacing_blank_append hg, spacing_cons ht, spaceOf]

lemma spacing_of_blank (hs : Blank s) : spacing sp s = [] := by
  rw [← List.append_nil s, spacing_blank_append hs]
  rfl

lemma push_ne_none (sp : Space) (t : Token) : sp.push t ≠ .none := by
  cases sp <;> cases t <;> simp [Space.push]

lemma push_eq_broken_iff {sp : Space} {t : Token} :
    sp.push t = .broken ↔ sp = .broken ∨ t = .newline := by
  cases sp <;> cases t <;> simp [Space.push]

lemma foldl_push_eq_none_iff (g : Tokens) (sp : Space) :
    g.foldl (fun sp t => sp.push t.value) sp = .none ↔ sp = .none ∧ g = [] := by
  induction g generalizing sp with
  | nil => simp
  | cons t g ih => simp [ih, push_ne_none]

lemma foldl_push_eq_broken_iff (g : Tokens) (sp : Space) :
    g.foldl (fun sp t => sp.push t.value) sp = .broken ↔ sp = .broken ∨ Broken g := by
  induction g generalizing sp with
  | nil => simp [Broken]
  | cons t g ih => simp [ih, push_eq_broken_iff, Broken, or_assoc]

lemma spaceOf_eq_none_iff : spaceOf g = .none ↔ g = [] := by
  simp [spaceOf, foldl_push_eq_none_iff]

lemma spaceOf_eq_broken_iff : spaceOf g = .broken ↔ Broken g := by
  simp [spaceOf, foldl_push_eq_broken_iff]

end Spacing

lemma sameGap_of_spaceOf {σ : Site} {t : Token} {g g' : Tokens} (hg : Blank g) (hg' : Blank g')
    (hnone : spaceOf g = .none ↔ spaceOf g' = .none)
    (hminds : σ.Minds t → spaceOf g = spaceOf g') : SameGap σ t g g' where
  blank := hg
  blank' := hg'
  nil_iff := by rwa [spaceOf_eq_none_iff, spaceOf_eq_none_iff] at hnone
  broken_iff h := by rw [← spaceOf_eq_broken_iff, ← spaceOf_eq_broken_iff, hminds h]

/-- **Spacings say it all.** -/
theorem respaced_of_spacing {σ : Site} {s s' : Tokens}
    (h : SameSpacing σ (spacing .none s) (spacing .none s')) : Respaced σ s s' := by
  induction hlen : s.length using Nat.strong_induction_on generalizing σ s s' with
  | _ k ih =>
      rcases exists_blank_append s with hs | ⟨g, t, w, rfl, hg, ht⟩ <;>
        rcases exists_blank_append s' with hs' | ⟨g', t', w', rfl, hg', ht'⟩
      · exact .blank hs hs'
      · rw [spacing_of_blank hs, spacing_gap hg' ht'] at h
        cases h
      · rw [spacing_of_blank hs', spacing_gap hg ht] at h
        cases h
      · rw [spacing_gap hg ht, spacing_gap hg' ht'] at h
        cases h with
        | cons hnone hminds hrest =>
            have hlt : w.length < k := by
              rw [← hlen, List.length_append, List.length_cons]
              omega
            exact .gap (sameGap_of_spaceOf hg hg' hnone hminds) ht (ih _ hlt hrest rfl)

end ArchLang
