import ArchLang.Assembly.Entities
import ArchLang.Proofs.Readers
import Mathlib.Data.List.Basic
import Mathlib.Tactic.Common

/-!
# Where use cases stand

The body of a use case is what stands in its braces, and it can be found without a parser: a use
case begins at its keyword, its body at the next opening brace, and the body ends at the closing
brace that follows.  Neither names nor lines contain a brace, and no other declaration contains the
keyword.

* `Region` — outside of use cases, in a heading, in a body; `Region.exit` is the token that ends
  each.
* `useCaseBodies ts` — the bodies in a token list, in order.
* `bodiesFrom_append` — tokens that do not end a region do not count.
* **`bodiesFrom_of_declarationBody`** — what is read behind the keyword of another declaration is
  outside of use cases and stays there.

The last is said by an automaton that goes off at the keyword of a use case (`noticed`).
-/

namespace ArchLang

open ArchLang.Parser ArchLang.Grammar

/-! ## Regions -/

/-- Where a token stands. -/
inductive Region where
  /-- in no use case -/
  | outside
  /-- behind `use_case` -/
  | heading
  /-- in the braces of a use case -/
  | inside

/-- The token that ends a region. -/
def Region.exit : Region → Token
  | outside => .keyword .useCase
  | heading => .mark .leftBrace
  | inside => .mark .rightBrace

/-- The tokens up to the next closing brace. -/
def untilBrace (s : Tokens) : Tokens := s.takeWhile fun t => t.value ≠ .mark .rightBrace

/-- What stands in the braces of use cases, if the tokens begin in a region. -/
def bodiesFrom (region : Region) : Tokens → List Tokens
  | [] => []
  | t :: s =>
    if t.value = region.exit then
      match region with
      | .outside => bodiesFrom .heading s
      | .heading => untilBrace s :: bodiesFrom .inside s
      | .inside => bodiesFrom .outside s
    else bodiesFrom region s

/-- The bodies of the use cases in a token list. -/
def useCaseBodies (ts : Tokens) : List Tokens := bodiesFrom .outside ts

lemma untilBrace_append {u : Tokens} (h : ∀ t ∈ u, t.value ≠ .mark .rightBrace) (s : Tokens) :
    untilBrace (u ++ s) = u ++ untilBrace s :=
  List.takeWhile_append_of_pos fun t ht => decide_eq_true (h t ht)

lemma untilBrace_brace {t : Located Token} (ht : t.value = .mark .rightBrace) (s : Tokens) :
    untilBrace (t :: s) = [] := List.takeWhile_cons_of_neg (by simp [ht])

section Exits

variable {t : Located Token} (s : Tokens)

lemma bodiesFrom_useCase (ht : t.value = .keyword .useCase) :
    bodiesFrom .outside (t :: s) = bodiesFrom .heading s := if_pos ht

lemma bodiesFrom_leftBrace (ht : t.value = .mark .leftBrace) :
    bodiesFrom .heading (t :: s) = untilBrace s :: bodiesFrom .inside s := if_pos ht

lemma bodiesFrom_rightBrace (ht : t.value = .mark .rightBrace) :
    bodiesFrom .inside (t :: s) = bodiesFrom .outside s := if_pos ht

end Exits

lemma bodiesFrom_cons_of_ne {region : Region} {t : Located Token} (h : t.value ≠ region.exit)
    (s : Tokens) : bodiesFrom region (t :: s) = bodiesFrom region s := by
  cases region <;> exact if_neg h

lemma bodiesFrom_append {region : Region} {u : Tokens} (h : ∀ t ∈ u, t.value ≠ region.exit)
    (s : Tokens) : bodiesFrom region (u ++ s) = bodiesFrom region s := by
  induction u with
  | nil => rfl
  | cons t u ih =>
      rw [List.forall_mem_cons] at h
      rw [List.cons_append, bodiesFrom_cons_of_ne h.1, ih h.2]

lemma ne_of_blank {g : Tokens} (hg : Blank g) {x : Token} (hx : x.isTrivia = false) :
    ∀ t ∈ g, t.value ≠ x := by
  rintro t ht rfl
  rw [hg t ht] at hx
  cases hx

/-! ## Other declarations -/

/-- Whether the keyword of a use case has gone by. -/
def noticed (before : Bool) (t : Token) : Bool := before || t = .keyword .useCase

instance : CalmNames noticed false := ⟨fun _ huse => decide_eq_false huse⟩

instance (m : Mark) : Calm noticed false (.mark m) := ⟨rfl⟩

lemma scanned_noticed_true (u : Tokens) : scanned noticed true u = true := by
  induction u with
  | nil => rfl
  | cons t u ih =>
      cases ht : t.value.isTrivia with
      | true =>
          have hone : Blank [t] := blank_cons.2 ⟨ht, blank_nil⟩
          rw [← List.singleton_append, scanned_append, scanned_of_blank _ hone, ih]
      | false => rw [scanned_cons _ _ ht, noticed, Bool.true_or, ih]

/-- An automaton that has not gone off has not met the keyword. -/
lemma ne_useCase_of_scanned {u : Tokens} (h : scanned noticed false u = false) :
    ∀ t ∈ u, t.value ≠ .keyword .useCase := by
  intro t ht hkey
  obtain ⟨v, w, rfl⟩ := List.append_of_mem ht
  rw [scanned_append, scanned_cons _ _ (by rw [hkey]; rfl), hkey, noticed, decide_eq_true rfl,
    Bool.or_true, scanned_noticed_true] at h
  cases h

/-- Other declarations declare no use case. -/
lemma useCaseDecls_of_declarationBody {start : Span} {k : Keyword} {s r : Tokens}
    {d : Located Declaration} (h : declarationBody start k s = .done d r)
    (hk : declarationKeywordOf (.keyword k) = some k) (huse : k ≠ .useCase) :
    d.value.useCaseDecls = [] := by
  have hkeyword := keyword_of_declarationBody h hk
  cases hvalue : d.value with
  | useCase u =>
      rw [hvalue] at hkeyword
      exact absurd hkeyword.symm huse
  | _ => rfl

/-- **Other declarations hold no use case.**  What stands behind their keywords does not leave the
outside. -/
theorem bodiesFrom_of_declarationBody {start : Span} {k : Keyword} {s r : Tokens}
    {d : Located Declaration} (h : declarationBody start k s = .done d r)
    (hk : declarationKeywordOf (.keyword k) = some k) (huse : k ≠ .useCase) :
    bodiesFrom .outside s = bodiesFrom .outside r := by
  have hsteady : Steady noticed false (declarationBody start k) := by
    cases k with
    | useCase => exact absurd rfl huse
    | when | dataStores => cases hk
    | _ => unfold declarationBody; infer_instance
  obtain ⟨u, rfl, hu⟩ := Steady.exists_append noticed false h
  exact bodiesFrom_append (ne_useCase_of_scanned hu) r

end ArchLang
