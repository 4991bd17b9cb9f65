import ArchLang.Proofs.Failing

/-!
# Loops come to an end

The grammar has two kinds of loop: items up to something that ends them, and lists.  Neither counts
its turns.  That they come to an end rests on the items: each of them uses up a token, so there are
at most as many turns as there are tokens, whatever these are and however the loop ends.

* `manyWithin`, `manyUntilWithin` — the loops with a budget of turns, which can run out.
* `Repeats stop item`, `Lists item` — the loops of the grammar.
* `Advances item` — every turn uses up at least one token, and nothing but the front.
* `turns_of_repeats`, `turns_of_lists` — every turn advances, and a budget of one turn for each
  token does not run out.
-/

namespace ArchLang

namespace Parser

variable {α β : Type}

/-! ## Loops with a budget -/

/-- `many` with at most `n` items; there is no result if one more could be read. -/
def manyWithin (item : Parser α) (n : ℕ) (s : Tokens) : Option (Outcome (List α)) :=
  match item s with
  | .failed e => some (if e.committed then .failed e else .done [] s)
  | .done a r =>
    match n with
    | 0 => none
    | n + 1 => (manyWithin item n r).map (Outcome.map (a :: ·))

/-- `manyUntil` with at most `n` items; there is no result if one more could be read. -/
def manyUntilWithin (between : Token → Bool) (stop : Parser β) (item : Parser α) (n : ℕ)
    (s : Tokens) : Option (Outcome (List α × β)) :=
  match stop (s.dropWhile fun t => between t.value) with
  | .done b r => some (.done ([], b) r)
  | .failed e =>
    if e.committed then some (.failed e)
    else
      match item (s.dropWhile fun t => between t.value) with
      | .failed e' => some (.failed e')
      | .done a r =>
        match n with
        | 0 => none
        | n + 1 =>
          (manyUntilWithin between stop item n r).map
            (Outcome.map fun found => (a :: found.1, found.2))

section Budget

variable {between : Token → Bool} {stop : Parser β} {item : Parser α} [Consumes item]

/-- One item for each token is enough. -/
lemma manyWithin_eq {n : ℕ} {s : Tokens} (hn : s.length ≤ n) :
    manyWithin item n s = some (many item s) := by
  fun_induction many item s generalizing n with
  | case1 s e hs hc | case2 s e hs hc => rw [manyWithin.eq_def, hs]; simp [hc]
  | case3 s a r hs ih =>
      have hlt := Consumes.lt hs
      cases n with
      | zero => omega
      | succ n =>
          rw [manyWithin, hs]
          simp only
          rw [ih (by omega)]
          rfl

lemma manyUntilWithin_eq {n : ℕ} {s : Tokens} (hn : s.length ≤ n) :
    manyUntilWithin between stop item n s = some (manyUntil between stop item s) := by
  fun_induction manyUntil between stop item s generalizing n with
  | case1 s b r hs => rw [manyUntilWithin.eq_def, hs]
  | case2 s e hs hc => rw [manyUntilWithin.eq_def, hs]; simp [hc]
  | case3 s e hs hc e' hi => rw [manyUntilWithin.eq_def, hs]; simp [hc, hi]
  | case4 s e hs hc a r hi ih =>
      have hlt := Consumes.lt hi
      have hle := (List.dropWhile_sublist (l := s) fun t => between t.value).length_le
      cases n with
      | zero => omega
      | succ n =>
          rw [manyUntilWithin, hs]
          simp only [hc, hi, Bool.false_eq_true, if_false]
          rw [ih (by omega)]
          rfl

end Budget

end Parser

/-! ## The loops of the grammar -/

namespace Grammar

open ArchLang.Parser

/-- The loops that read items, with trivia between them, up to what ends them. -/
inductive Repeats : {α β : Type} → Parser β → Parser α → Prop where
  | declarations : Repeats atEnd declaration
  | actors : Repeats (mark .rightBrace) actor
  | domains : Repeats (mark .rightBrace) domain
  | subDomains : Repeats (mark .rightBrace) anyName
  | services : Repeats (mark .rightBrace) service
  | properties : Repeats (mark .rightBrace) property
  | exposureLines : Repeats (mark .rightBrace) exposureLine
  | layers : Repeats (mark .rightBrace) layer
  | components : Repeats sectionEnd chain
  | scenarios : Repeats (mark .rightBrace) scenario
  | actions : Repeats scenarioEnd action

/-- The loops that read on for as long as an item follows. -/
inductive Lists : {α : Type} → Parser α → Prop where
  | words : Lists lineWord
  | names : Lists (listComma >>= fun _ => anyName)
  | rules : Lists (listComma >>= fun _ => rule)
  | modifiers : Lists (listComma >>= fun _ => modifier)
  | nodes : Lists (around .greater >>= fun _ => node)

/-- Whenever a reader succeeds it has taken tokens from the front, at least one. -/
def Advances {α : Type} (item : Parser α) : Prop :=
  ∀ s a r, item s = .done a r → ∃ read, read ≠ [] ∧ s = read ++ r

section Advances

variable {α β : Type} {stop : Parser β} {item : Parser α}

lemma advances [Consumes item] [Forward item] : Advances item := by
  intro s a r h
  obtain ⟨read, rfl⟩ := exists_taken h
  refine ⟨read, ?_, rfl⟩
  rintro rfl
  exact absurd (Consumes.lt h) (Nat.lt_irrefl _)

/-- Everything that is read in a loop uses up a token and nothing but the front. -/
lemma exists_consumes_of_repeats (h : Repeats stop item) : ∃ _ : Consumes item, Advances item := by
  cases h <;> exact ⟨inferInstance, advances⟩

lemma exists_consumes_of_lists (h : Lists item) : ∃ _ : Consumes item, Advances item := by
  cases h <;> exact ⟨inferInstance, advances⟩

/-- A loop that something ends takes at most as many turns as there are tokens, and each of them
uses one up. -/
theorem turns_of_repeats (h : Repeats stop item) : Advances item ∧ ∃ _ : Consumes item, ∀ s,
    manyUntilWithin Token.isTrivia stop item s.length s
      = some (manyUntil Token.isTrivia stop item s) := by
  obtain ⟨hconsumes, hadvances⟩ := exists_consumes_of_repeats h
  exact ⟨hadvances, hconsumes, fun s => manyUntilWithin_eq (Nat.le_refl _)⟩

/-- And so does a list. -/
theorem turns_of_lists (h : Lists item) : Advances item ∧ ∃ _ : Consumes item, ∀ s,
    manyWithin item s.length s = some (many item s) := by
  obtain ⟨hconsumes, hadvances⟩ := exists_consumes_of_lists h
  exact ⟨hadvances, hconsumes, fun s => manyWithin_eq (Nat.le_refl _)⟩

end Advances

end Grammar

end ArchLang
