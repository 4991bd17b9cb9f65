import ArchLang.Proofs.Reading

/-!
# What holds of every failure

A failure starts at a token that does not fit or where something read is rejected.  On its way out
it is labelled, committed, or moved back to where an attempt began.  What all of these steps keep
holds of every failure of the grammar, and this file goes through the grammar once for all such
properties.

The lines of a scenario are left to the property: a line is rejected from its first word on, and
where that is depends on the lines around it.

* `Lasting whole Q` — the steps keep the property `Q`, in a text with the tokens `whole`.  The forms
  of lines do not count (`Expected.isForm`).
* `Fails whole Q p` — on last tokens of `whole`, the failures of the parser `p` have the property.
* **`holds_of_failed`** — with the scenarios, all failures of a program have it.
-/

namespace ArchLang

open ArchLang.Parser ArchLang.Grammar

/-- The form of a whole line, as something that would have fitted. -/
@[reducible]
def Expected.isForm : Expected → Bool
  | triggerForm | actionForm => true
  | _ => false

/-- What else would have fitted is no form of a line, by evaluation. -/
instance fact_false : Fact (false = false) := ⟨rfl⟩

namespace Parser

variable {α β : Type}

/-- The property of failures is kept on their way out, in a text with the tokens `whole`. -/
class Lasting (whole : Tokens) (Q : Failure → Prop) : Prop where
  opened : ∀ s, Q ⟨false, [], s, none⟩
  labelled : ∀ {e what}, what.isForm = false → Q e → Q { e with expected := e.expected ++ [what] }
  committed : ∀ {e s}, s <:+ whole → Q e →
    Q { e with committed := true, start? := e.start?.or (some s) }
  moved : ∀ {e} s, e.committed = false → Q e → Q { e with rest := s }
  rejected : ∀ {start s what}, what.isForm = false → start <:+ whole →
    Q ⟨true, [what], s, some start⟩

/-- On last tokens of `whole`, the failures of the parser have the property. -/
class Fails (whole : Tokens) (Q : Failure → Prop) (p : Parser α) : Prop where
  holds : ∀ {s e}, s <:+ whole → p s = .failed e → Q e

section Fails

variable (whole : Tokens) (Q : Failure → Prop)

/-- A parser that never fails. -/
lemma fails_of_never {p : Parser α} (h : ∀ {s e}, p s ≠ .failed e) : Fails whole Q p :=
  ⟨fun _ he => absurd he h⟩

instance fails_pure (a : α) : Fails whole Q (pure a : Parser α) := fails_of_never whole Q nofun

instance fails_skip (kind : Token → Bool) : Fails whole Q (skip kind) :=
  fails_of_never whole Q nofun

instance fails_bind (p : Parser α) (f : α → Parser β) [Forward p] [Fails whole Q p]
    [∀ a, Fails whole Q (f a)] : Fails whole Q (p >>= f) := by
  refine ⟨fun {s e} hs he => ?_⟩
  cases hp : p s with
  | done a r =>
      rw [bind_of_done f hp] at he
      exact Fails.holds ((suffix_of_done hp).trans hs) he
  | failed e' =>
      rw [bind_of_failed f hp] at he
      cases he
      exact Fails.holds hs hp

/-- What stands behind `here` may reject from the tokens at hand. -/
lemma fails_here_bind {f : Tokens → Parser β}
    (h : ∀ start, [Fact (start <:+ whole)] → Fails whole Q (f start)) :
    Fails whole Q (here >>= f) := by
  refine ⟨fun {s e} hs he => ?_⟩
  have : Fact (s <:+ whole) := ⟨hs⟩
  rw [here_bind_apply] at he
  exact (h s).holds hs he

instance fails_optional (p : Parser α) [Fails whole Q p] : Fails whole Q (optional p) := by
  refine ⟨fun {s e} hs he => ?_⟩
  unfold optional at he
  split at he
  · cases he
  · next e' hp =>
    split at he <;> cases he
    exact Fails.holds hs hp

instance fails_many (item : Parser α) [Consumes item] [Forward item] [Fails whole Q item] :
    Fails whole Q (many item) := by
  refine ⟨fun {s e} hs he => ?_⟩
  fun_induction many item s generalizing e with
  | case1 s e' hp =>
      cases he
      exact Fails.holds hs hp
  | case2 => cases he
  | case3 s a r hp ih =>
      cases hm : many item r with
      | done as r' => rw [hm] at he; cases he
      | failed e' =>
          rw [hm] at he
          cases he
          exact ih ((suffix_of_done hp).trans hs) hm

instance fails_manyUntil (stop : Parser β) (item : Parser α) [Consumes item] [Forward item]
    [Fails whole Q stop] [Fails whole Q item] :
    Fails whole Q (manyUntil Token.isTrivia stop item) := by
  refine ⟨fun {s e} hs he => ?_⟩
  fun_induction manyUntil Token.isTrivia stop item s generalizing e with
  | case1 => cases he
  | case2 s e' hstop hc =>
      cases he
      exact Fails.holds ((List.dropWhile_suffix _).trans hs) hstop
  | case3 s e' hstop hc e'' hi =>
      cases he
      exact Fails.holds ((List.dropWhile_suffix _).trans hs) hi
  | case4 s e' hstop hc a r hi ih =>
      cases hm : manyUntil Token.isTrivia stop item r with
      | done found r' => rw [hm] at he; cases he
      | failed e'' =>
          rw [hm] at he
          cases he
          exact ih ((suffix_of_done hi).trans ((List.dropWhile_suffix _).trans hs)) hm

instance fails_separated (item : Parser α) (separator : Parser β) [Consumes item]
    [Keeps separator] [Forward item] [Forward separator] [Fails whole Q item]
    [Fails whole Q separator] : Fails whole Q (separated item separator) := by
  unfold separated; infer_instance

variable [Lasting whole Q]

instance fails_token (accept : Token → Option α) : Fails whole Q (token accept) := by
  refine ⟨fun {s e} _ he => ?_⟩
  cases s with
  | nil =>
      cases he
      exact Lasting.opened whole []
  | cons t rest =>
      simp only [token] at he
      split at he <;> cases he
      exact Lasting.opened whole _

instance fails_atEnd : Fails whole Q atEnd := by
  refine ⟨fun {s e} _ he => ?_⟩
  cases s <;> cases he
  exact Lasting.opened whole _

instance fails_reject (start : Tokens) (what : Expected) [hwhat : Fact (what.isForm = false)]
    [hstart : Fact (start <:+ whole)] : Fails whole Q (reject start what : Parser α) := by
  refine ⟨fun {s e} _ he => ?_⟩
  cases he
  exact Lasting.rejected hwhat.out hstart.out

instance fails_label (what : Expected) (p : Parser α) [hwhat : Fact (what.isForm = false)]
    [Fails whole Q p] : Fails whole Q (label what p) := by
  refine ⟨fun {s e} hs he => ?_⟩
  cases hp : p s with
  | done a r =>
      rw [label_done.2 hp] at he
      cases he
  | failed e' =>
      rw [label_of_failed what hp] at he
      cases he
      exact Lasting.labelled whole hwhat.out (Fails.holds hs hp)

instance fails_commit (p : Parser α) [Fails whole Q p] : Fails whole Q (commit p) := by
  refine ⟨fun {s e} hs he => ?_⟩
  cases hp : p s with
  | done a r =>
      rw [commit_done.2 hp] at he
      cases he
  | failed e' =>
      rw [commit_of_failed hp] at he
      cases he
      exact Lasting.committed hs (Fails.holds hs hp)

instance fails_orElse (p q : Parser α) [Fails whole Q p] [Fails whole Q q] :
    Fails whole Q (orElse p q) := by
  refine ⟨fun {s e} hs he => ?_⟩
  unfold orElse at he
  split at he
  · cases he
  · next e' hp =>
    split at he
    · cases he
      exact Fails.holds hs hp
    · split at he
      · cases he
      · next e'' hq =>
        have hholds : Q e'' := Fails.holds hs hq
        split at he <;> cases he
        · exact hholds
        · next hopen => exact Lasting.moved whole s (by simpa using hopen) hholds

instance fails_lookahead (p : Parser α) [Fails whole Q p] : Fails whole Q (lookahead p) := by
  refine ⟨fun {s e} hs he => ?_⟩
  unfold lookahead at he
  split at he
  · cases he
  · next e' hp =>
    have hholds : Q e' := Fails.holds hs hp
    split at he <;> cases he
    · exact hholds
    · next hopen => exact Lasting.moved whole s (by simpa using hopen) hholds

end Fails

end Parser

namespace Grammar

variable {α : Type} (whole : Tokens) (Q : Failure → Prop)

/-! ### The smallest readers -/

variable [Lasting whole Q]

instance (what : Expected) (kind : Token → Bool) [Fact (what.isForm = false)] :
    Fails whole Q (exactly what kind) := by
  unfold exactly; infer_instance

instance (m : Mark) : Fails whole Q (mark m) := by unfold mark; infer_instance

instance (k : Keyword) : Fails whole Q (keyword k) := by unfold keyword; infer_instance

instance : Fails whole Q lineBreak := by unfold lineBreak; infer_instance

instance : Fails whole Q anyName := by unfold anyName; infer_instance

instance : Fails whole Q bareName := by unfold bareName; infer_instance

instance : Fails whole Q gap := by unfold gap; infer_instance

instance : Fails whole Q blanks := by unfold blanks; infer_instance

instance : Fails whole Q gap1 := by unfold gap1; infer_instance

instance (m : Mark) : Fails whole Q (around m) := by unfold around; infer_instance

instance : Fails whole Q listComma := by unfold listComma; infer_instance

instance : Fails whole Q names := by unfold names; infer_instance

instance (item : Parser α) [Consumes item] [Forward item] [Fails whole Q item] :
    Fails whole Q (block item) := by
  unfold block; infer_instance

/-! ### Entities -/

instance : Fails whole Q actor := by unfold actor; infer_instance

instance : Fails whole Q domain := by unfold domain; infer_instance

instance : Fails whole Q rule := by unfold rule; infer_instance

instance : Fails whole Q rules := by unfold rules; infer_instance

instance (kind : Text) (opening : Option Span) : Fails whole Q (rulesBehind kind opening) := by
  cases opening <;> (unfold rulesBehind; infer_instance)

instance : Fails whole Q rollout := by rw [rollout_eq]; infer_instance

instance (start : Tokens) (key : String) [Fact (start <:+ whole)] :
    Fails whole Q (propertyValue start key) := by
  unfold propertyValue
  repeat' split
  all_goals infer_instance

instance : Fails whole Q property :=
  fails_here_bind whole Q fun _ => inferInstance

instance : Fails whole Q service := by unfold service; infer_instance

instance (start : Tokens) (field : Option ExposureKey) [Fact (start <:+ whole)] :
    Fails whole Q (exposureLineOf start field) := by
  cases field <;> (unfold exposureLineOf; infer_instance)

instance : Fails whole Q exposureLine :=
  fails_here_bind whole Q fun _ => inferInstance

/-! ### Architectures -/

instance : Fails whole Q modifier := by unfold modifier; infer_instance

instance : Fails whole Q modifiers := by unfold modifiers; infer_instance

instance : Fails whole Q bracketed := by unfold bracketed; infer_instance

instance : Fails whole Q node := by unfold node; infer_instance

instance : Fails whole Q chain := by unfold chain; infer_instance

instance : Fails whole Q header := by unfold header; infer_instance

instance : Fails whole Q sectionEnd := by unfold sectionEnd; infer_instance

instance : Fails whole Q components := by unfold components; infer_instance

instance (start : Tokens) (components : List ComponentDecl) (layer : Option Layer)
    [Fact (start <:+ whole)] : Fails whole Q (layered start components layer) := by
  cases layer <;> (unfold layered; infer_instance)

instance : Fails whole Q layer :=
  fails_here_bind whole Q fun _ => inferInstance

/-! ### Use cases -/

instance : Fails whole Q lineWord := by unfold lineWord; infer_instance

instance : Fails whole Q endOfLine := by unfold endOfLine; infer_instance

instance : Fails whole Q words := by unfold words; infer_instance

instance : Fails whole Q scenarioEnd := by unfold scenarioEnd; infer_instance

/-! ### Declarations

The first three instances say nothing new.  They keep the search for the others short. -/

instance (item : Parser α) [Consumes item] [Forward item] : Forward (block item) := inferInstance

instance : Forward exposureLine := inferInstance

instance : Forward layer := inferInstance

variable [Fails whole Q scenario]

instance (start : Span) (k : Keyword) : Fails whole Q (declarationBody start k) := by
  cases k <;> (unfold declarationBody)
  · unfold actorsBody; infer_instance
  · unfold actorBody; infer_instance
  · unfold domainsBody; infer_instance
  · unfold domainBody; infer_instance
  · unfold servicesBody; infer_instance
  · unfold serviceBody; infer_instance
  · unfold exposureBody; infer_instance
  · unfold archBody; infer_instance
  all_goals unfold useCaseBody; infer_instance

instance : Fails whole Q declaration := by unfold declaration; infer_instance

instance : Fails whole Q declarations := by unfold declarations; infer_instance

end Grammar

/-- **Every failure.**  What is kept on the way out and holds of the scenarios holds of the failure
of a whole program. -/
theorem holds_of_failed {s : Tokens} {Q : Failure → Prop} [Lasting s Q]
    [Fails s Q scenario] {f : Failure} (h : declarations s = .failed f) : Q f :=
  Fails.holds (List.suffix_refl s) h

end ArchLang
