import ArchLang.Grammar.Program
import Mathlib.Data.List.Basic
import Mathlib.Data.List.Infix
import Mathlib.Data.List.TakeWhile
import Mathlib.Tactic.Common

/-!
# What a parser takes from its tokens

A parser reads from the front, so what it leaves are the last tokens of those it got, both when it
succeeds and when it fails.  This file says so for every reader of the grammar, together with what
was read: an automaton that watches the tokens go by comes back to the state in which it was.

* `Blank s` — nothing but trivia.
* `scanned step q s` — the state of an automaton behind the tokens `s`; trivia do not count.
* `many_of_done`, `exists_turn`, `manyUntil_induction` and their neighbours — what one step, one
  attempt and one turn of a loop can do.  No later proof opens a combinator.
* `Steady step q p` — `p` takes tokens from the front, and those that it reads lead the automaton
  from `q` back to `q`.  `Forward p` is the case of an automaton that watches nothing.
* `Takes p` — among the tokens that `p` reads is one that counts.
* `Around m u` — a mark with trivia around it, and what a reader of a separator can meet.
* `Failure.code_of_blank`, `Failure.code_of_not_blank` — which code a failure is reported under.

Which automaton it is depends on what one wants to know about the tokens that were read, so the
instances for the grammar ask only which marks leave it alone (`Calm`) and whether words do: all of
them (`CalmWords`), or all but the one that opens a use case (`CalmNames`).
-/

namespace ArchLang

/-! ## Trivia -/

/-- Nothing but white space, line ends and comments. -/
def Blank (s : Tokens) : Prop := ∀ t ∈ s, t.value.isTrivia = true

instance : DecidablePred Blank := fun s =>
  inferInstanceAs (Decidable (∀ t ∈ s, t.value.isTrivia = true))

lemma blank_nil : Blank [] := by simp [Blank]

lemma blank_append {u s : Tokens} : Blank (u ++ s) ↔ Blank u ∧ Blank s := by
  simp [Blank, or_imp, forall_and]

lemma blank_cons {t : Located Token} {s : Tokens} :
    Blank (t :: s) ↔ t.value.isTrivia = true ∧ Blank s := by
  simp [Blank]

lemma not_blank_cons {t : Located Token} (ht : t.value.isTrivia = false) (s : Tokens) :
    ¬ Blank (t :: s) := fun h => by
  rw [(blank_cons.1 h).1] at ht
  cases ht

lemma Blank.suffix {s r : Tokens} (h : Blank s) (hr : r <:+ s) : Blank r :=
  fun t ht => h t (hr.subset ht)

lemma blank_takeWhile (s : Tokens) : Blank (s.takeWhile fun t => t.value.isTrivia) :=
  fun _ ht => List.mem_takeWhile_imp (p := fun t : Located Token => t.value.isTrivia) ht

/-- Trivia and, if anything is left, a token that counts. -/
lemma exists_blank_append (s : Tokens) : Blank s ∨
    ∃ g t w, s = g ++ t :: w ∧ Blank g ∧ t.value.isTrivia = false := by
  cases hd : s.dropWhile fun t => t.value.isTrivia with
  | nil => exact Or.inl fun t ht => List.dropWhile_eq_nil_iff.1 hd t ht
  | cons t w =>
      refine Or.inr ⟨s.takeWhile fun t => t.value.isTrivia, t, w, ?_, blank_takeWhile s, ?_⟩
      · rw [← hd, List.takeWhile_append_dropWhile]
      · have := List.head?_dropWhile_not (fun t : Located Token => t.value.isTrivia) s
        simpa [hd] using this

lemma dropWhile_trivia_append {g w : Tokens} {t : Located Token} (hg : Blank g)
    (ht : t.value.isTrivia = false) :
    (g ++ t :: w).dropWhile (fun t => t.value.isTrivia) = t :: w := by
  rw [List.dropWhile_append_of_pos hg, List.dropWhile_cons_of_neg (by simp [ht])]

lemma dropWhile_trivia_cons {t : Located Token} (ht : t.value.isTrivia = false) (w : Tokens) :
    (t :: w).dropWhile (fun t => t.value.isTrivia) = t :: w :=
  dropWhile_trivia_append blank_nil ht

lemma dropWhile_trivia_of_blank {s : Tokens} (h : Blank s) :
    s.dropWhile (fun t => t.value.isTrivia) = [] :=
  List.dropWhile_eq_nil_iff.2 h

lemma filter_of_blank {s : Tokens} (h : Blank s) :
    s.filter (fun t => !t.value.isTrivia) = [] :=
  List.filter_eq_nil_iff.2 fun t ht => by simp [h t ht]

/-! ## Automata that watch tokens -/

section Automata

variable {σ : Type} (step : σ → Token → σ)

/-- The state behind some tokens; trivia do not count. -/
def scanned (q : σ) (s : Tokens) : σ :=
  (s.filter fun t => !t.value.isTrivia).foldl (fun q t => step q t.value) q

variable {step}

lemma scanned_append (q : σ) (u s : Tokens) :
    scanned step q (u ++ s) = scanned step (scanned step q u) s := by
  rw [scanned, List.filter_append, List.foldl_append]
  rfl

lemma scanned_of_blank (q : σ) {s : Tokens} (h : Blank s) : scanned step q s = q := by
  rw [scanned, filter_of_blank h, List.foldl_nil]

lemma scanned_cons (q : σ) {t : Located Token} (s : Tokens) (ht : t.value.isTrivia = false) :
    scanned step q (t :: s) = scanned step (step q t.value) s := by
  rw [scanned, List.filter_cons_of_pos (by simp [ht]), List.foldl_cons]
  rfl

end Automata

/-! ## One step, one attempt, one turn of a loop -/

namespace Parser

variable {α β γ : Type}

lemma bind_eq_done {p : Parser α} {f : α → Parser β} {s r : Tokens} {b : β} :
    (p >>= f) s = .done b r ↔ ∃ a r', p s = .done a r' ∧ f a r' = .done b r := by
  rw [bind_apply]
  cases p s <;> simp

lemma bind_of_done {p : Parser α} (f : α → Parser β) {s r : Tokens} {a : α}
    (h : p s = .done a r) : (p >>= f) s = f a r := by
  rw [bind_apply, h]

lemma bind_of_failed {p : Parser α} (f : α → Parser β) {s : Tokens} {e : Failure}
    (h : p s = .failed e) : (p >>= f) s = .failed e := by
  rw [bind_apply, h]

/-- A step and what is made of its value. -/
lemma bind_pure_eq_done {p : Parser α} {f : α → β} {s r : Tokens} {b : β}
    (h : (p >>= fun a => pure (f a)) s = .done b r) : ∃ a, p s = .done a r ∧ b = f a := by
  obtain ⟨a, r', hp, h⟩ := bind_eq_done.1 h
  cases h
  exact ⟨a, hp, rfl⟩

/-- Two steps and what is made of their values. -/
lemma pair_eq_done {p : Parser α} {q : Parser β} {f : α → β → γ} {s r : Tokens} {c : γ}
    (h : (p >>= fun a => q >>= fun b => pure (f a b)) s = .done c r) :
    ∃ a s' b, p s = .done a s' ∧ q s' = .done b r ∧ c = f a b := by
  obtain ⟨a, s', hp, h⟩ := bind_eq_done.1 h
  obtain ⟨b, hq, hc⟩ := bind_pure_eq_done h
  exact ⟨a, s', b, hp, hq, hc⟩

/-- Two steps with something between them that has no value. -/
lemma apart_eq_done {p : Parser α} {between : Parser Unit} {q : Parser β} {f : α → β → γ}
    {s r : Tokens} {c : γ}
    (h : (p >>= fun a => between >>= fun _ => q >>= fun b => pure (f a b)) s = .done c r) :
    ∃ a s₁ s₂ b, p s = .done a s₁ ∧ between s₁ = .done () s₂ ∧ q s₂ = .done b r ∧ c = f a b := by
  obtain ⟨a, s₁, hp, h⟩ := bind_eq_done.1 h
  obtain ⟨_, s₂, b, hbetween, hq, hc⟩ := pair_eq_done h
  exact ⟨a, s₁, s₂, b, hp, hbetween, hq, hc⟩

lemma here_bind_apply (f : Tokens → Parser β) (s : Tokens) : (here >>= f) s = f s s := rfl

lemma token_eq_done {accept : Token → Option α} {s r : Tokens} {a : Located α} :
    token accept s = .done a r ↔
      ∃ x, s = x :: r ∧ accept x.value = some a.value ∧ a.span = x.span := by
  cases s with
  | nil => simp [token]
  | cons x w =>
      obtain ⟨v, sp⟩ := a
      simp only [token]
      cases hx : accept x.value <;> simp [hx, and_comm, and_assoc, eq_comm]

section Attempts

variable {p q : Parser α} {s r : Tokens} {a : α} {e e' : Failure}

lemma label_of_failed (what : Expected) (h : p s = .failed e) :
    label what p s = .failed { e with expected := e.expected ++ [what] } := by
  rw [label, h]

lemma commit_of_failed (h : p s = .failed e) :
    commit p s = .failed { e with committed := true, start? := e.start?.or (some s) } := by
  rw [commit, h]

lemma optional_of_done (h : p s = .done a r) : optional p s = .done (some a) r := by
  rw [optional, h]

lemma optional_of_committed (h : p s = .failed e) (he : e.committed = true) :
    optional p s = .failed e := by
  rw [optional, h]
  exact if_pos he

lemma optional_of_open (h : p s = .failed e) (he : e.committed = false) :
    optional p s = .done none s := by
  rw [optional, h]
  exact if_neg (by simp [he])

lemma orElse_of_done (h : p s = .done a r) : orElse p q s = .done a r := by
  rw [orElse, h]

lemma orElse_of_committed (h : p s = .failed e) (he : e.committed = true) :
    orElse p q s = .failed e := by
  rw [orElse, h]
  exact if_pos he

lemma orElse_of_open_done (h : p s = .failed e) (he : e.committed = false)
    (hq : q s = .done a r) : orElse p q s = .done a r := by
  rw [orElse, h, hq]
  exact if_neg (by simp [he])

lemma orElse_of_open_committed (h : p s = .failed e) (he : e.committed = false)
    (hq : q s = .failed e') (he' : e'.committed = true) : orElse p q s = .failed e' := by
  rw [orElse, h, hq]
  exact (if_neg (by simp [he])).trans (if_pos he')

lemma orElse_of_open_open (h : p s = .failed e) (he : e.committed = false)
    (hq : q s = .failed e') (he' : e'.committed = false) :
    orElse p q s = .failed { e' with rest := s } := by
  rw [orElse, h, hq]
  exact (if_neg (by simp [he])).trans (if_neg (by simp [he']))

/-- A choice gives what one of its parts gives. -/
lemma orElse_eq_done (h : orElse p q s = .done a r) : p s = .done a r ∨ q s = .done a r := by
  unfold orElse at h
  split at h
  · next hp =>
    cases h
    exact .inl hp
  · split at h
    · cases h
    · split at h
      · next hq =>
        cases h
        exact .inr hq
      · split at h <;> cases h

lemma lookahead_of_done (h : p s = .done a r) : lookahead p s = .done a s := by
  rw [lookahead, h]

lemma lookahead_eq_done (h : lookahead p s = .done a r) : r = s ∧ ∃ r', p s = .done a r' := by
  unfold lookahead at h
  split at h
  · next r' hp =>
    cases h
    exact ⟨rfl, r', hp⟩
  · split at h <;> cases h

lemma lookahead_of_committed (h : p s = .failed e) (he : e.committed = true) :
    lookahead p s = .failed e := by
  rw [lookahead, h]
  exact if_pos he

lemma lookahead_of_open (h : p s = .failed e) (he : e.committed = false) :
    lookahead p s = .failed { e with rest := s } := by
  rw [lookahead, h]
  exact if_neg (by simp [he])

end Attempts

section Loops

variable (item : Parser α) [Consumes item]

lemma many_of_failed {s : Tokens} {e : Failure} (h : item s = .failed e) :
    many item s = if e.committed then .failed e else .done [] s := by
  rw [many]
  split
  · next e' h' => rw [h] at h'; cases h'; rfl
  · next h' => rw [h] at h'; cases h'

lemma many_of_done {s r : Tokens} {a : α} (h : item s = .done a r) :
    many item s = (many item r).map (a :: ·) := by
  rw [many]
  split
  · next h' => rw [h] at h'; cases h'
  · next h' => rw [h] at h'; cases h'; rfl

/-- What an item leaves behind trivia is shorter than what the loop began with. -/
lemma length_lt_of_dropWhile {between : Token → Bool} {s r : Tokens} {a : α}
    (h : item (s.dropWhile fun t => between t.value) = .done a r) : r.length < s.length :=
  Nat.lt_of_lt_of_le (Consumes.lt h) (List.dropWhile_sublist _).length_le

variable (stop : Parser β)

lemma manyUntil_of_stop {between : Token → Bool} {s s' r : Tokens} {b : β}
    (hs : s.dropWhile (fun t => between t.value) = s') (h : stop s' = .done b r) :
    manyUntil between stop item s = .done ([], b) r := by
  rw [manyUntil, hs, h]

lemma manyUntil_of_committed {between : Token → Bool} {s s' : Tokens} {e : Failure}
    (hs : s.dropWhile (fun t => between t.value) = s') (h : stop s' = .failed e)
    (he : e.committed = true) : manyUntil between stop item s = .failed e := by
  rw [manyUntil, hs, h]
  simp [he]

lemma manyUntil_of_failed {between : Token → Bool} {s s' : Tokens} {e e' : Failure}
    (hs : s.dropWhile (fun t => between t.value) = s') (h : stop s' = .failed e)
    (he : e.committed = false) (hi : item s' = .failed e') :
    manyUntil between stop item s = .failed e' := by
  subst hs
  rw [manyUntil, h]
  simp only [he, Bool.false_eq_true, if_false]
  split
  · next h' => rw [hi] at h'; cases h'; rfl
  · next h' => rw [hi] at h'; cases h'

lemma manyUntil_of_done {between : Token → Bool} {s s' r : Tokens} {e : Failure} {a : α}
    (hs : s.dropWhile (fun t => between t.value) = s') (h : stop s' = .failed e)
    (he : e.committed = false) (hi : item s' = .done a r) :
    manyUntil between stop item s
      = (manyUntil between stop item r).map fun found => (a :: found.1, found.2) := by
  subst hs
  rw [manyUntil, h]
  simp only [he, Bool.false_eq_true, if_false]
  split
  · next h' => rw [hi] at h'; cases h'
  · next h' => rw [hi] at h'; cases h'; rfl

/-- Trivia in front of a loop that passes over them change nothing. -/
lemma manyUntil_blank_append {g : Tokens} (hg : Blank g) (s : Tokens) :
    manyUntil Token.isTrivia stop item (g ++ s) = manyUntil Token.isTrivia stop item s := by
  have hd : (g ++ s).dropWhile (fun t => t.value.isTrivia)
      = s.dropWhile fun t => t.value.isTrivia := List.dropWhile_append_of_pos hg
  cases hs : stop (s.dropWhile fun t => t.value.isTrivia) with
  | done b r => rw [manyUntil_of_stop item stop hd hs, manyUntil_of_stop item stop rfl hs]
  | failed e =>
      cases he : e.committed with
      | true =>
          rw [manyUntil_of_committed item stop hd hs he, manyUntil_of_committed item stop rfl hs he]
      | false =>
          cases hi : item (s.dropWhile fun t => t.value.isTrivia) with
          | failed e' =>
              rw [manyUntil_of_failed item stop hd hs he hi,
                manyUntil_of_failed item stop rfl hs he hi]
          | done a r =>
              rw [manyUntil_of_done item stop hd hs he hi, manyUntil_of_done item stop rfl hs he hi]

/-- The next turn of a loop that comes to its end. -/
lemma exists_turn {y : Located Token} {w r : Tokens} {found : List α × β}
    (hy : y.value.isTrivia = false)
    (h : manyUntil Token.isTrivia stop item (y :: w) = .done found r) :
    (∃ b, stop (y :: w) = .done b r ∧ found = ([], b)) ∨
      ∃ e a r' found', stop (y :: w) = .failed e ∧ e.committed = false ∧
        item (y :: w) = .done a r' ∧ manyUntil Token.isTrivia stop item r' = .done found' r ∧
        found = (a :: found'.1, found'.2) := by
  have hd := dropWhile_trivia_cons hy w
  cases hs : stop (y :: w) with
  | done b r' =>
      rw [manyUntil_of_stop item stop hd hs] at h
      cases h
      exact Or.inl ⟨b, rfl, rfl⟩
  | failed e =>
      cases he : e.committed with
      | true =>
          rw [manyUntil_of_committed item stop hd hs he] at h
          cases h
      | false =>
          cases hi : item (y :: w) with
          | failed e' =>
              rw [manyUntil_of_failed item stop hd hs he hi] at h
              cases h
          | done a r' =>
              rw [manyUntil_of_done item stop hd hs he hi] at h
              cases hm : manyUntil Token.isTrivia stop item r' with
              | failed e' => rw [hm] at h; cases h
              | done found' r'' =>
                  rw [hm] at h
                  cases h
                  exact Or.inr ⟨e, a, r', found', rfl, he, rfl, hm, rfl⟩

/-- What holds of the result where a loop stops, and is carried back over trivia and over every
turn, holds of the result where the loop begins. -/
lemma manyUntil_found_induction {motive : Tokens → List α × β → Prop} {s r : Tokens}
    {found : List α × β} (h : manyUntil Token.isTrivia stop item s = .done found r)
    (blank : ∀ {g s found}, Blank g → motive s found → motive (g ++ s) found)
    (done : ∀ {s b}, stop s = .done b r → motive s ([], b))
    (turn : ∀ {y w e a r' found}, y.value.isTrivia = false → stop (y :: w) = .failed e →
      item (y :: w) = .done a r' → motive r' found → motive (y :: w) (a :: found.1, found.2)) :
    motive s found := by
  fun_induction manyUntil Token.isTrivia stop item s generalizing found r with
  | case1 s b r' hs =>
      cases h
      rw [← s.takeWhile_append_dropWhile (p := fun t => t.value.isTrivia)]
      exact blank (blank_takeWhile s) (done hs)
  | case2 => cases h
  | case3 => cases h
  | case4 s e hs hc a r' hi ih =>
      cases hm : manyUntil Token.isTrivia stop item r' with
      | failed e => rw [hm] at h; cases h
      | done found' r'' =>
          rw [hm] at h
          cases h
          have hrest := ih hm done
          rcases exists_blank_append s with hblank | ⟨g, y, w, rfl, hg, hy⟩
          · rw [dropWhile_trivia_of_blank hblank] at hi
            exact absurd (Consumes.lt hi) (Nat.not_lt_zero _)
          · rw [dropWhile_trivia_append hg hy] at hs hi
            exact blank hg (turn hy hs hi hrest)

/-- The same for what is said of the items alone. -/
lemma manyUntil_induction {motive : Tokens → List α → Prop} {s r : Tokens} {found : List α × β}
    (h : manyUntil Token.isTrivia stop item s = .done found r)
    (blank : ∀ {g s as}, Blank g → motive s as → motive (g ++ s) as)
    (done : ∀ {s b}, stop s = .done b r → motive s [])
    (turn : ∀ {y w e a r' as}, y.value.isTrivia = false → stop (y :: w) = .failed e →
      item (y :: w) = .done a r' → motive r' as → motive (y :: w) (a :: as)) :
    motive s found.1 :=
  manyUntil_found_induction item stop (motive := fun s found => motive s found.1) h blank done turn

/-- There are no items among trivia. -/
lemma eq_nil_of_blank {s r : Tokens} {found : List α × β} (hs : Blank s)
    (h : manyUntil Token.isTrivia stop item s = .done found r) : found.1 = [] := by
  have hd := dropWhile_trivia_of_blank hs
  cases hstop : stop [] with
  | done b r' =>
      rw [manyUntil_of_stop item stop hd hstop] at h
      cases h
      rfl
  | failed e =>
      cases he : e.committed with
      | true =>
          rw [manyUntil_of_committed item stop hd hstop he] at h
          cases h
      | false =>
          cases hi : item [] with
          | done a r' => exact absurd (Consumes.lt hi) (Nat.not_lt_zero _)
          | failed e' =>
              rw [manyUntil_of_failed item stop hd hstop he hi] at h
              cases h

end Loops

/-! ## Readers that lead an automaton back -/

/-- What a parser reads stands in front and leads the automaton from `q` back to `q`; where it fails
it stands before some last tokens of those that it got. -/
class Steady {σ : Type} (step : σ → Token → σ) (q : σ) (p : Parser α) : Prop where
  reads : ∀ {s : Tokens} {a : α} {r : Tokens}, p s = .done a r →
    ∃ u, s = u ++ r ∧ scanned step q u = q
  stops : ∀ {s : Tokens} {e : Failure}, p s = .failed e → e.rest <:+ s

/-- The tokens that are accepted do not move the automaton. -/
class Unmoved {σ : Type} (step : σ → Token → σ) (q : σ) (accept : Token → Option α) : Prop where
  step_eq : ∀ {t : Token} {a : α}, accept t = some a → step q t = q

/-- The automaton with one state. -/
def unwatched (_ : Unit) (_ : Token) : Unit := ()

/-- With one state only, being steady says no more than that a parser takes tokens from the
front. -/
abbrev Forward (p : Parser α) : Prop := Steady unwatched () p

instance (accept : Token → Option α) : Unmoved unwatched () accept := ⟨fun _ => rfl⟩

section Steady

variable {σ : Type} (step : σ → Token → σ) (q : σ)

lemma Steady.exists_append {p : Parser α} [Steady step q p] {s r : Tokens} {a : α}
    (h : p s = .done a r) : ∃ u, s = u ++ r ∧ scanned step q u = q := Steady.reads h

lemma Steady.suffix {p : Parser α} [Steady step q p] {s r : Tokens} {a : α}
    (h : p s = .done a r) : r <:+ s := by
  obtain ⟨u, rfl, _⟩ := Steady.exists_append step q h
  exact List.suffix_append u r

instance steady_pure (a : α) : Steady step q (pure a : Parser α) := by
  refine ⟨fun h => ?_, fun h => (nomatch h)⟩
  cases h
  exact ⟨[], rfl, rfl⟩

instance steady_here : Steady step q here := by
  refine ⟨fun h => ?_, fun h => (nomatch h)⟩
  cases h
  exact ⟨[], rfl, rfl⟩

instance steady_atEnd : Steady step q atEnd := by
  refine ⟨fun {s a r} h => ?_, fun {s e} h => ?_⟩
  · cases s <;> cases h
    exact ⟨[], rfl, rfl⟩
  · cases s <;> cases h
    exact List.suffix_refl _

instance steady_reject (start : Tokens) (what : Expected) :
    Steady step q (reject start what : Parser α) := by
  refine ⟨fun h => (nomatch h), fun h => ?_⟩
  cases h
  exact List.suffix_refl _

instance steady_token (accept : Token → Option α) [Unmoved step q accept] :
    Steady step q (token accept) := by
  refine ⟨fun {s a r} h => ?_, fun {s e} h => ?_⟩
  · cases s with
    | nil => cases h
    | cons t rest =>
        simp only [token] at h
        split at h
        · next v hv =>
          cases h
          refine ⟨[t], rfl, ?_⟩
          cases ht : t.value.isTrivia with
          | true => exact scanned_of_blank q (by simpa [Blank] using ht)
          | false =>
              rw [scanned_cons q [] ht, (Unmoved.step_eq hv : step q t.value = q)]
              rfl
        · cases h
  · cases s with
    | nil => cases h; exact List.suffix_refl _
    | cons t rest =>
        simp only [token] at h
        split at h <;> cases h
        exact List.suffix_refl _

lemma steady_skip (kind : Token → Bool) (hkind : ∀ t, kind t = true → t.isTrivia = true) :
    Steady step q (skip kind) := by
  refine ⟨fun {s a r} h => ?_, fun h => by cases h⟩
  cases h
  refine ⟨_, List.takeWhile_append_dropWhile.symm, scanned_of_blank q fun t ht => hkind _ ?_⟩
  exact List.mem_takeWhile_imp (p := fun t : Located Token => kind t.value) ht

instance steady_bind (p : Parser α) (f : α → Parser β) [Steady step q p]
    [∀ a, Steady step q (f a)] : Steady step q (p >>= f) := by
  refine ⟨fun {s b r} h => ?_, fun {s e} h => ?_⟩
  · rw [bind_apply] at h
    split at h
    · next a r' hp =>
      obtain ⟨u, rfl, hu⟩ := Steady.exists_append step q hp
      obtain ⟨v, rfl, hv⟩ := Steady.exists_append step q h
      exact ⟨u ++ v, (List.append_assoc _ _ _).symm, by rw [scanned_append, hu, hv]⟩
    · cases h
  · rw [bind_apply] at h
    split at h
    · next a r' hp =>
      exact (Steady.stops step q h).trans (Steady.suffix step q hp)
    · next e' hp =>
      cases h
      exact Steady.stops step q hp

instance steady_label (what : Expected) (p : Parser α) [Steady step q p] :
    Steady step q (label what p) := by
  refine ⟨fun h => Steady.reads (label_done.1 h), fun {s e} h => ?_⟩
  unfold label at h
  split at h
  · cases h
  · next e' hp =>
    cases h
    exact (Steady.stops step q hp :)

instance steady_commit (p : Parser α) [Steady step q p] : Steady step q (commit p) := by
  refine ⟨fun h => Steady.reads (commit_done.1 h), fun {s e} h => ?_⟩
  unfold commit at h
  split at h
  · cases h
  · next e' hp =>
    cases h
    exact (Steady.stops step q hp :)

instance steady_optional (p : Parser α) [Steady step q p] : Steady step q (optional p) := by
  refine ⟨fun {s a r} h => ?_, fun {s e} h => ?_⟩
  · unfold optional at h
    split at h
    · next hp => cases h; exact Steady.reads hp
    · split at h <;> cases h
      exact ⟨[], rfl, rfl⟩
  · unfold optional at h
    split at h
    · cases h
    · next hp =>
      split at h <;> cases h
      exact Steady.stops step q hp

instance steady_orElse (p p' : Parser α) [Steady step q p] [Steady step q p'] :
    Steady step q (orElse p p') := by
  refine ⟨fun {s a r} h => ?_, fun {s e} h => ?_⟩
  · unfold orElse at h
    split at h
    · next hp => cases h; exact Steady.reads hp
    · split at h
      · cases h
      · split at h
        · next hp => cases h; exact Steady.reads hp
        · split at h <;> cases h
  · unfold orElse at h
    split at h
    · cases h
    · next hp =>
      split at h
      · cases h; exact Steady.stops step q hp
      · split at h
        · cases h
        · next hp' =>
          split at h <;> cases h
          · exact Steady.stops step q hp'
          · exact List.suffix_refl _

instance steady_lookahead (p : Parser α) [Steady step q p] : Steady step q (lookahead p) := by
  refine ⟨fun {s a r} h => ?_, fun {s e} h => ?_⟩
  · unfold lookahead at h
    split at h
    · cases h; exact ⟨[], rfl, rfl⟩
    · split at h <;> cases h
  · unfold lookahead at h
    split at h
    · cases h
    · next hp =>
      split at h <;> cases h
      · exact Steady.stops step q hp
      · exact List.suffix_refl _

lemma steady_many_reads (item : Parser α) [Consumes item] [Steady step q item] {s r : Tokens}
    {as : List α} (h : many item s = .done as r) : ∃ u, s = u ++ r ∧ scanned step q u = q := by
  fun_induction many item s generalizing as r with
  | case1 => cases h
  | case2 =>
      cases h
      exact ⟨[], rfl, rfl⟩
  | case3 s a r' hp ih =>
      cases hm : many item r' with
      | done as' r'' =>
          rw [hm] at h
          cases h
          obtain ⟨u, rfl, hu⟩ := Steady.exists_append step q hp
          obtain ⟨v, rfl, hv⟩ := ih hm
          exact ⟨u ++ v, (List.append_assoc _ _ _).symm, by rw [scanned_append, hu, hv]⟩
      | failed e => rw [hm] at h; cases h

instance steady_many (item : Parser α) [Consumes item] [Steady step q item] :
    Steady step q (many item) := by
  refine ⟨steady_many_reads step q item, fun {s e} h => ?_⟩
  fun_induction many item s generalizing e with
  | case1 s e' hp =>
      cases h
      exact Steady.stops step q hp
  | case2 => cases h
  | case3 s a r' hp ih =>
      cases hm : many item r' with
      | done as' r'' => rw [hm] at h; cases h
      | failed e =>
          rw [hm] at h
          cases h
          exact (ih hm).trans (Steady.suffix step q hp)

lemma steady_manyUntil_reads (stop : Parser β) (item : Parser α) [Consumes item]
    [Steady step q stop] [Steady step q item] {s r : Tokens} {found : List α × β}
    (h : manyUntil Token.isTrivia stop item s = .done found r) :
    ∃ u, s = u ++ r ∧ scanned step q u = q := by
  refine manyUntil_induction item stop
    (motive := fun s _ => ∃ u, s = u ++ r ∧ scanned step q u = q) h ?blank ?done ?turn
  case blank =>
    rintro g s - hg ⟨u, rfl, hu⟩
    exact ⟨g ++ u, (List.append_assoc _ _ _).symm, by
      rw [scanned_append, scanned_of_blank q hg, hu]⟩
  case done =>
    intro s b hs
    exact Steady.exists_append step q hs
  case turn =>
    rintro y w e a r' - - - ha ⟨v, rfl, hv⟩
    obtain ⟨u, hu, huq⟩ := Steady.exists_append step q ha
    exact ⟨u ++ v, by rw [hu, List.append_assoc], by rw [scanned_append, huq, hv]⟩

instance steady_manyUntil (stop : Parser β) (item : Parser α) [Consumes item]
    [Steady step q stop] [Steady step q item] :
    Steady step q (manyUntil Token.isTrivia stop item) := by
  refine ⟨steady_manyUntil_reads step q stop item, fun {s e} h => ?_⟩
  fun_induction manyUntil Token.isTrivia stop item s generalizing e with
  | case1 => cases h
  | case2 s e' hs =>
      cases h
      exact (Steady.stops step q hs).trans (List.dropWhile_suffix _)
  | case3 s e' hs hc e'' hi =>
      cases h
      exact (Steady.stops step q hi).trans (List.dropWhile_suffix _)
  | case4 s e' hs hc a r' hi ih =>
      cases hm : manyUntil Token.isTrivia stop item r' with
      | done found' r'' => rw [hm] at h; cases h
      | failed e =>
          rw [hm] at h
          cases h
          exact ((ih hm).trans (Steady.suffix step q hi)).trans (List.dropWhile_suffix _)

instance steady_separated (item : Parser α) (separator : Parser β) [Consumes item]
    [Keeps separator] [Steady step q item] [Steady step q separator] :
    Steady step q (separated item separator) := by
  unfold separated; infer_instance

end Steady

section Forward

variable {p : Parser α} [Forward p] {s r : Tokens}

lemma exists_taken {a : α} (h : p s = .done a r) : ∃ u, s = u ++ r := by
  obtain ⟨u, hu, -⟩ := Steady.exists_append unwatched () h
  exact ⟨u, hu⟩

lemma suffix_of_done {a : α} (h : p s = .done a r) : r <:+ s := Steady.suffix unwatched () h

lemma suffix_of_failed {e : Failure} (h : p s = .failed e) : e.rest <:+ s :=
  Steady.stops unwatched () h

end Forward

/-- A loop that comes to its end gives and leaves what its last stop does. -/
lemma exists_stop_of_manyUntil {stop : Parser β} {item : Parser α} [Consumes item] [Forward item]
    {s r : Tokens} {found : List α × β} (h : manyUntil Token.isTrivia stop item s = .done found r) :
    ∃ s', s' <:+ s ∧ stop s' = .done found.2 r := by
  refine manyUntil_found_induction item stop
    (motive := fun s found => ∃ s', s' <:+ s ∧ stop s' = .done found.2 r) h ?blank ?done ?turn
  case blank =>
    rintro g s found - ⟨s', hs', hb⟩
    exact ⟨s', hs'.trans (List.suffix_append g s), hb⟩
  case done =>
    intro s b hs
    exact ⟨s, List.suffix_refl s, hs⟩
  case turn =>
    rintro y w e a r' found - - ha ⟨s', hs', hb⟩
    exact ⟨s', hs'.trans (suffix_of_done ha), hb⟩

/-! ## Readers that take a token that counts -/

/-- Among the tokens that the parser reads is one that counts. -/
class Takes (p : Parser α) : Prop where
  takes : ∀ {s a r}, p s = .done a r → ∃ u, s = u ++ r ∧ ¬ Blank u

section Takes

lemma not_blank_of_done {p : Parser α} [Takes p] {s r : Tokens} {a : α} (h : p s = .done a r) :
    ¬ Blank s := fun hs => by
  obtain ⟨u, rfl, hu⟩ := Takes.takes h
  exact hu (blank_append.1 hs).1

lemma takes_token {accept : Token → Option α}
    (h : ∀ {x a}, accept x = some a → x.isTrivia = false) : Takes (token accept) := by
  refine ⟨fun {s a r} hs => ?_⟩
  obtain ⟨x, rfl, hx, -⟩ := token_eq_done.1 hs
  exact ⟨[x], rfl, not_blank_cons (h hx) []⟩

instance takes_label (what : Expected) (p : Parser α) [Takes p] : Takes (label what p) :=
  ⟨fun h => Takes.takes (label_done.1 h)⟩

instance takes_bind_left (p : Parser α) (f : α → Parser β) [Takes p] [∀ a, Forward (f a)] :
    Takes (p >>= f) := by
  refine ⟨fun {s b r} h => ?_⟩
  obtain ⟨a, r', hp, hf⟩ := bind_eq_done.1 h
  obtain ⟨u, rfl, hu⟩ := Takes.takes hp
  obtain ⟨v, rfl⟩ := exists_taken hf
  exact ⟨u ++ v, by simp, fun huv => hu (blank_append.1 huv).1⟩

instance (priority := low) takes_bind_right (p : Parser α) (f : α → Parser β) [Forward p]
    [∀ a, Takes (f a)] : Takes (p >>= f) := by
  refine ⟨fun {s b r} h => ?_⟩
  obtain ⟨a, r', hp, hf⟩ := bind_eq_done.1 h
  obtain ⟨u, rfl⟩ := exists_taken hp
  obtain ⟨v, rfl, hv⟩ := Takes.takes hf
  exact ⟨u ++ v, by simp, fun huv => hv (blank_append.1 huv).2⟩

end Takes

end Parser

/-! ## The smallest readers -/

namespace Grammar

open ArchLang.Parser

lemma exactly_eq_done {what : Expected} {x : Token} {s r : Tokens} {sp : Span}
    (h : exactly what (· = x) s = .done sp r) : ∃ t, s = t :: r ∧ t.value = x := by
  obtain ⟨a, s', ht, h⟩ := bind_eq_done.1 h
  cases h
  obtain ⟨t, rfl, hx, -⟩ := token_eq_done.1 (label_done.1 ht)
  refine ⟨t, rfl, ?_⟩
  by_contra hne
  rw [if_neg (by simpa using hne)] at hx
  cases hx

lemma keyword_cons_of_eq {k : Keyword} {x : Located Token} (w : Tokens)
    (hx : x.value = .keyword k) : keyword k (x :: w) = .done x.span w := by
  simp [keyword, exactly, label, token, bind_apply, pure_apply, hx]

lemma mark_nil (m : Mark) : mark m [] = .failed ⟨false, [.mark m], [], none⟩ := rfl

lemma mark_cons_of_eq {m : Mark} {x : Located Token} (w : Tokens) (hx : x.value = .mark m) :
    mark m (x :: w) = .done x.span w := by
  simp [mark, exactly, label, token, bind_apply, pure_apply, hx]

lemma mark_cons_of_ne {m : Mark} {x : Located Token} (w : Tokens) (hx : x.value ≠ .mark m) :
    mark m (x :: w) = .failed ⟨false, [.mark m], x :: w, none⟩ := by
  simp [mark, exactly, label, token, bind_apply, hx]

lemma mark_of_blank {m : Mark} {s : Tokens} (hs : Blank s) :
    mark m s = .failed ⟨false, [.mark m], s, none⟩ := by
  cases s with
  | nil => exact mark_nil m
  | cons x w =>
      refine mark_cons_of_ne w fun hx => ?_
      have hsig := (blank_cons.1 hs).1
      rw [hx] at hsig
      cases hsig

lemma mark_failed {m : Mark} {s : Tokens} {e : Failure} (h : mark m s = .failed e) :
    e = ⟨false, [.mark m], s, none⟩ := by
  cases s with
  | nil =>
      rw [mark_nil] at h
      cases h
      rfl
  | cons x w =>
      by_cases hx : x.value = .mark m
      · rw [mark_cons_of_eq w hx] at h
        cases h
      · rw [mark_cons_of_ne w hx] at h
        cases h
        rfl

lemma mark_eq_done {m : Mark} {s r : Tokens} {sp : Span} (h : mark m s = .done sp r) :
    ∃ x, s = x :: r ∧ x.value = .mark m := exactly_eq_done h

section Gap

variable {β : Type} (f : Unit → Parser β)

lemma gap_bind_of_blank {s : Tokens} (hs : Blank s) : (gap >>= f) s = f () [] :=
  congrArg (f ()) (dropWhile_trivia_of_blank hs)

lemma gap_bind_append {g w : Tokens} {x : Located Token} (hg : Blank g)
    (hx : x.value.isTrivia = false) : (gap >>= f) (g ++ x :: w) = f () (x :: w) :=
  congrArg (f ()) (dropWhile_trivia_append hg hx)

end Gap

lemma gap_eq_done {s r : Tokens} (h : gap s = .done () r) : ∃ g, s = g ++ r ∧ Blank g := by
  cases h
  exact ⟨_, List.takeWhile_append_dropWhile.symm, blank_takeWhile s⟩

lemma gap1_eq_done {s r : Tokens} (h : gap1 s = .done () r) : ∃ g, s = g ++ r ∧ Blank g := by
  obtain ⟨a, s', ht, hgap⟩ := bind_eq_done.1 h
  obtain ⟨t, rfl, hsome, -⟩ := token_eq_done.1 ht
  obtain ⟨g, rfl, hg⟩ := gap_eq_done hgap
  have htrivia : t.value.isTrivia = true := by
    by_contra hne
    rw [if_neg hne] at hsome
    cases hsome
  exact ⟨t :: g, rfl, blank_cons.2 ⟨htrivia, hg⟩⟩

lemma around_of_blank {m : Mark} {s : Tokens} (hs : Blank s) :
    around m s = .failed ⟨false, [.mark m], [], none⟩ := by
  rw [around, gap_bind_of_blank _ hs, bind_of_failed _ (mark_nil m)]

lemma around_of_eq {m : Mark} {g w : Tokens} {x : Located Token} (hg : Blank g)
    (hx : x.value = .mark m) :
    around m (g ++ x :: w) = .done () (w.dropWhile fun t => t.value.isTrivia) := by
  have hsig : x.value.isTrivia = false := by rw [hx]; rfl
  rw [around, gap_bind_append _ hg hsig, bind_of_done _ (mark_cons_of_eq w hx)]
  rfl

lemma around_of_ne {m : Mark} {g w : Tokens} {x : Located Token} (hg : Blank g)
    (hsig : x.value.isTrivia = false) (hx : x.value ≠ .mark m) :
    around m (g ++ x :: w) = .failed ⟨false, [.mark m], x :: w, none⟩ := by
  rw [around, gap_bind_append _ hg hsig, bind_of_failed _ (mark_cons_of_ne w hx)]

/-- There are no modifiers among trivia. -/
lemma bracketed_of_blank {s : Tokens} (hs : Blank s) :
    ∃ r, bracketed s = .failed ⟨false, [.mark .leftBracket], r, none⟩ ∧ Blank r :=
  have hrest : Blank (s.dropWhile fun t => t.value.isInlineTrivia) :=
    hs.suffix (List.dropWhile_suffix _)
  ⟨_, (bind_of_done _ rfl).trans (bind_of_failed _ (mark_of_blank hrest)), hrest⟩

/-! ### Marks with trivia around them -/

/-- A mark with trivia around it. -/
def Around (m : Mark) (u : Tokens) : Prop :=
  ∃ g x g', u = g ++ x :: g' ∧ Blank g ∧ x.value = .mark m ∧ Blank g'

/-- What a reader of a mark and something behind it can meet: nothing, another token, the mark
alone, or the mark and a token behind it. -/
lemma around_cases (m : Mark) (s : Tokens) : Blank s ∨
    (∃ g x w, s = g ++ x :: w ∧ Blank g ∧ x.value.isTrivia = false ∧ x.value ≠ .mark m) ∨
    Around m s ∨ ∃ u y w, s = u ++ y :: w ∧ Around m u ∧ y.value.isTrivia = false := by
  rcases exists_blank_append s with hs | ⟨g, x, w, rfl, hg, hsig⟩
  · exact Or.inl hs
  by_cases hx : x.value = .mark m
  swap
  · exact Or.inr (Or.inl ⟨g, x, w, rfl, hg, hsig, hx⟩)
  rcases exists_blank_append w with hw | ⟨g', y, w, rfl, hg', hy⟩
  · exact Or.inr (Or.inr (Or.inl ⟨g, x, w, rfl, hg, hx, hw⟩))
  · exact Or.inr (Or.inr (Or.inr ⟨g ++ x :: g', y, w, by simp, ⟨g, x, g', rfl, hg, hx, hg'⟩, hy⟩))

namespace Around

variable {β : Type} {m : Mark} {u : Tokens}

/-- The trivia around a mark do not count. -/
lemma scanned_eq {σ : Type} {step : σ → Token → σ} {q : σ} (h : Around m u) :
    scanned step q u = step q (.mark m) := by
  obtain ⟨g, x, g', rfl, hg, hx, hg'⟩ := h
  rw [scanned_append, scanned_of_blank _ hg, scanned_cons _ _ (by rw [hx]; rfl),
    scanned_of_blank _ hg', hx]

lemma bind_eq (h : Around m u) (p : Unit → Parser β) : (around m >>= p) u = p () [] := by
  obtain ⟨g, x, g', rfl, hg, hx, hg'⟩ := h
  rw [bind_of_done _ (around_of_eq hg hx), dropWhile_trivia_of_blank hg']

lemma bind_append (h : Around m u) (p : Unit → Parser β) {y : Located Token} {w : Tokens}
    (hy : y.value.isTrivia = false) : (around m >>= p) (u ++ y :: w) = p () (y :: w) := by
  obtain ⟨g, x, g', rfl, hg, hx, hg'⟩ := h
  rw [List.append_assoc, List.cons_append, bind_of_done _ (around_of_eq hg hx),
    dropWhile_trivia_append hg' hy]

end Around

lemma around_eq_done {m : Mark} {s r : Tokens} (h : around m s = .done () r) :
    ∃ u, s = u ++ r ∧ Around m u := by
  rcases exists_blank_append s with hs | ⟨g, x, w, rfl, hg, hx⟩
  · rw [around_of_blank hs] at h
    cases h
  · by_cases hm : x.value = .mark m
    · rw [around_of_eq hg hm] at h
      cases h
      exact ⟨g ++ x :: w.takeWhile fun t => t.value.isTrivia,
        by simp [List.takeWhile_append_dropWhile], g, x, _, rfl, hg, hm, blank_takeWhile w⟩
    · rw [around_of_ne hg hx hm] at h
      cases h

/-! ### Readers of single tokens -/

variable {σ α : Type} (step : σ → Token → σ) (q : σ)

instance : Steady step q gap := steady_skip step q _ fun _ h => h

instance : Steady step q blanks := by
  refine steady_skip step q _ fun t h => ?_
  cases t <;> first | rfl | cases h

/-- Trivia do not count. -/
instance steady_triviaToken :
    Steady step q (token fun t => if t.isTrivia then some () else none) := by
  refine ⟨fun {s a r} h => ?_, fun {s e} h => ?_⟩
  · cases s with
    | nil => cases h
    | cons t rest =>
        cases ht : t.value.isTrivia <;> simp [token, ht] at h
        obtain ⟨_, rfl⟩ := h
        exact ⟨[t], rfl, scanned_of_blank q (by simpa [Blank] using ht)⟩
  · cases s with
    | nil => cases h; exact List.suffix_refl _
    | cons t rest =>
        cases ht : t.value.isTrivia <;> simp [token, ht] at h
        rw [← h]

instance : Steady step q gap1 := by unfold gap1; infer_instance

/-- The token does not move the automaton. -/
class Calm (t : Token) : Prop where
  step_eq : step q t = q

/-- Nothing but punctuation moves the automaton. -/
class CalmWords : Prop where
  step_eq : ∀ {t : Token}, (∀ m, t ≠ .mark m) → step q t = q

/-- Nothing but punctuation and the keyword of a use case moves the automaton. -/
class CalmNames : Prop where
  step_eq : ∀ {t : Token}, (∀ m, t ≠ .mark m) → t ≠ .keyword .useCase → step q t = q

instance [CalmWords step q] : CalmNames step q := ⟨fun ht _ => CalmWords.step_eq ht⟩

instance (t : Token) : Calm unwatched () t := ⟨rfl⟩

instance : CalmWords unwatched () := ⟨fun _ => rfl⟩

instance (k : Keyword) [CalmWords step q] : Calm step q (.keyword k) :=
  ⟨CalmWords.step_eq fun _ h => (nomatch h)⟩

instance [CalmWords step q] : Calm step q .newline :=
  ⟨CalmWords.step_eq fun _ h => (nomatch h)⟩

lemma steady_exactly (what : Expected) (t : Token) [Calm step q t] :
    Steady step q (exactly what (· = t)) := by
  have : Unmoved step q fun t' => if decide (t' = t) then some () else none := by
    refine ⟨fun {t' a} h => ?_⟩
    split at h
    · next ht =>
      obtain rfl := of_decide_eq_true ht
      exact Calm.step_eq
    · cases h
  unfold exactly
  infer_instance

instance (m : Mark) [Calm step q (.mark m)] : Steady step q (mark m) := steady_exactly step q _ _

instance (k : Keyword) [CalmWords step q] : Steady step q (keyword k) := steady_exactly step q _ _

instance [CalmWords step q] : Steady step q lineBreak := steady_exactly step q _ _

/-- No reader of words takes a mark. -/
lemma unmoved_of_no_mark {accept : Token → Option α} [CalmWords step q]
    (h : ∀ m, accept (.mark m) = none) : Unmoved step q accept := by
  refine ⟨fun {t a} ht => CalmWords.step_eq fun m hm => ?_⟩
  rw [hm, h] at ht
  cases ht

/-- Names, kinds, keys and values are not the keyword of a use case either. -/
lemma unmoved_of_name {accept : Token → Option α} [CalmNames step q]
    (h : ∀ m, accept (.mark m) = none) (huse : accept (.keyword .useCase) = none) :
    Unmoved step q accept := by
  refine ⟨fun {t a} ht => CalmNames.step_eq (fun m hm => ?_) fun hk => ?_⟩
  · rw [hm, h] at ht
    cases ht
  · rw [hk, huse] at ht
    cases ht

section Words

instance [CalmWords step q] : Unmoved step q wordOf := unmoved_of_no_mark step q fun _ => rfl

instance [CalmWords step q] : Unmoved step q declarationKeywordOf :=
  unmoved_of_no_mark step q fun _ => rfl

variable [CalmNames step q]

instance : Unmoved step q nameOf := unmoved_of_name step q (fun _ => rfl) rfl

instance : Unmoved step q identifierOf := unmoved_of_name step q (fun _ => rfl) rfl

instance : Unmoved step q actorKindOf := unmoved_of_name step q (fun _ => rfl) rfl

instance : Unmoved step q percentageOf := unmoved_of_name step q (fun _ => rfl) rfl

instance : Unmoved step q propertyKeyOf := unmoved_of_name step q (fun _ => rfl) rfl

instance : Unmoved step q modifierValueOf := unmoved_of_name step q (fun _ => rfl) rfl

instance : Steady step q anyName := by unfold anyName; infer_instance

instance : Steady step q bareName := by unfold bareName; infer_instance

end Words

instance (m : Mark) [Calm step q (.mark m)] : Steady step q (around m) := by
  unfold around; infer_instance

instance [Calm step q (.mark .comma)] : Steady step q listComma := by
  unfold listComma; infer_instance

instance (item : Parser α) [Consumes item] [Steady step q item] [Calm step q (.mark .leftBrace)]
    [Calm step q (.mark .rightBrace)] : Steady step q (block item) := by
  unfold block; infer_instance

instance [CalmNames step q] [Calm step q (.mark .comma)] : Steady step q names := by
  unfold names; infer_instance

instance [CalmNames step q] : Steady step q actor := by unfold actor; infer_instance

instance [CalmNames step q] [Calm step q (.mark .leftBrace)] [Calm step q (.mark .rightBrace)] :
    Steady step q domain := by
  unfold domain; infer_instance

instance [CalmNames step q] [Calm step q (.mark .arrow)] : Steady step q rule := by
  unfold rule; infer_instance

/-! ### Lines of a use case -/

section Lines

variable [CalmWords step q]

instance : Steady step q lineWord := by unfold lineWord; infer_instance

instance (start : Tokens) (what : Expected) (span : Span) (form : Option α) :
    Steady step q (classified start what span form) := by
  cases form <;> (unfold classified; infer_instance)

variable [Calm step q (.mark .rightBrace)]

instance : Steady step q endOfLine := by unfold endOfLine; infer_instance

instance : Steady step q words := by unfold words; infer_instance

instance (start : Span) : Steady step q (triggerBody start) := by unfold triggerBody; infer_instance

instance : Steady step q trigger := by unfold trigger; infer_instance

instance : Steady step q action := by unfold action; infer_instance

instance : Steady step q scenarioEnd := by unfold scenarioEnd; infer_instance

instance : Steady step q scenario := by unfold scenario; infer_instance

end Lines

/-! ### Declarations

What stands in parentheses and brackets is left to those who know their automaton, unless no mark
moves it at all. -/

section Declarations

variable [CalmNames step q] [Calm step q (.mark .comma)] [Calm step q (.mark .colon)]
  [Calm step q (.mark .leftBrace)] [Calm step q (.mark .rightBrace)]

instance (start : Tokens) (key : String) [Steady step q rollout] :
    Steady step q (propertyValue start key) := by
  unfold propertyValue
  repeat' split
  all_goals infer_instance

instance [Steady step q rollout] : Steady step q property := by unfold property; infer_instance

instance [Steady step q rollout] : Steady step q service := by unfold service; infer_instance

instance (start : Tokens) (field : Option ExposureKey) :
    Steady step q (exposureLineOf start field) := by
  cases field <;> (unfold exposureLineOf; infer_instance)

instance : Steady step q exposureLine := by unfold exposureLine; infer_instance

instance : Steady step q header := by unfold header; infer_instance

instance : Steady step q sectionEnd := by unfold sectionEnd; infer_instance

instance [Steady step q chain] : Steady step q components := by unfold components; infer_instance

instance (start : Tokens) (components : List ComponentDecl) (layer : Option Layer) :
    Steady step q (layered start components layer) := by
  cases layer <;> (unfold layered; infer_instance)

instance [Steady step q chain] : Steady step q layer := by unfold layer; infer_instance

variable [Steady step q rollout] [Steady step q chain]

instance (start : Span) : Steady step q (actorsBody start) := by unfold actorsBody; infer_instance

instance (start : Span) : Steady step q (actorBody start) := by unfold actorBody; infer_instance

instance (start : Span) : Steady step q (domainsBody start) := by unfold domainsBody; infer_instance

instance (start : Span) : Steady step q (domainBody start) := by unfold domainBody; infer_instance

instance (start : Span) : Steady step q (servicesBody start) := by
  unfold servicesBody; infer_instance

instance (start : Span) : Steady step q (serviceBody start) := by unfold serviceBody; infer_instance

instance (start : Span) : Steady step q (exposureBody start) := by
  unfold exposureBody; infer_instance

instance (start : Span) : Steady step q (archBody start) := by unfold archBody; infer_instance

instance (start : Span) [CalmWords step q] : Steady step q (useCaseBody start) := by
  unfold useCaseBody; infer_instance

instance (start : Span) (k : Keyword) [CalmWords step q] :
    Steady step q (declarationBody start k) := by
  cases k <;> (unfold declarationBody; infer_instance)

instance [CalmWords step q] : Steady step q declaration := by unfold declaration; infer_instance

instance [CalmWords step q] : Steady step q declarations := by unfold declarations; infer_instance

end Declarations

/-- Read what stands behind the kind of a deployment: rules, if a parenthesis was opened. -/
def rulesBehind (kind : Text) : Option Span → Parser DeploymentDecl
  | none => pure ⟨kind, []⟩
  | some _ => rules >>= fun found => pure ⟨kind, found⟩

/-- A deployment in steps, so that a property of readers need not look at the parenthesis twice. -/
lemma rollout_eq : rollout = bareName >>= fun kind =>
    optional (gap >>= fun _ => mark .leftParen) >>= rulesBehind kind := by
  unfold rollout
  refine congrArg _ (funext fun kind => congrArg _ (funext fun opening => ?_))
  cases opening <;> rfl

section Marks

variable [CalmNames step q] [∀ m, Calm step q (.mark m)]

instance : Steady step q rules := by unfold rules; infer_instance

instance (kind : Text) (opening : Option Span) : Steady step q (rulesBehind kind opening) := by
  cases opening <;> (unfold rulesBehind; infer_instance)

instance : Steady step q rollout := by rw [rollout_eq]; infer_instance

instance : Steady step q modifier := by unfold modifier; infer_instance

instance : Steady step q modifiers := by unfold modifiers; infer_instance

instance : Steady step q bracketed := by unfold bracketed; infer_instance

instance : Steady step q node := by unfold node; infer_instance

instance : Steady step q chain := by unfold chain; infer_instance

end Marks

/-! ### Readers that take a token that counts -/

lemma name_of_identifier {x : Token} {name : String} (h : identifierOf x = some name) :
    nameOf x = some name := by
  cases x with
  | identifier _ => exact h
  | _ => cases h

lemma not_trivia_of_name {x : Token} {name : String} (h : nameOf x = some name) :
    x.isTrivia = false := by
  cases x <;> cases h <;> rfl

lemma anyName_nil : anyName [] = .failed ⟨false, [.name], [], none⟩ := rfl

lemma anyName_cons_of_some {y : Located Token} {name : String} (w : Tokens)
    (hy : nameOf y.value = some name) : anyName (y :: w) = .done ⟨name, y.span⟩ w := by
  simp [anyName, label, token, hy]

lemma anyName_cons_of_none {y : Located Token} (w : Tokens) (hy : nameOf y.value = none) :
    anyName (y :: w) = .failed ⟨false, [.name], y :: w, none⟩ := by
  simp [anyName, label, token, hy]

lemma takes_exactly (what : Expected) {x : Token} (hx : x.isTrivia = false) :
    Takes (exactly what (· = x)) := by
  have : Takes (token fun y => if decide (y = x) then some () else none) := by
    refine takes_token fun {y a} h => ?_
    split at h
    · next hy => rw [of_decide_eq_true hy, hx]
    · cases h
  unfold exactly
  infer_instance

instance (m : Mark) : Takes (mark m) := takes_exactly _ rfl

instance (k : Keyword) : Takes (keyword k) := takes_exactly _ rfl

instance : Takes anyName := by
  have : Takes (token nameOf) := takes_token fun h => not_trivia_of_name h
  unfold anyName
  infer_instance

instance (item : Parser α) [Consumes item] [Forward item] : Takes (block item) := by
  unfold block; infer_instance

instance : Takes actor := by unfold actor; infer_instance

instance : Takes domain := by unfold domain; infer_instance

instance : Takes service := by unfold service; infer_instance

/-! ### Whole programs -/

lemma declarations_eq_done {s r : Tokens} {ds : List (Located Declaration)}
    (h : declarations s = .done ds r) :
    ∃ found, manyUntil Token.isTrivia atEnd declaration s = .done found r ∧ ds = found.1 :=
  bind_pure_eq_done h

lemma declarations_done {s r : Tokens} {ds : List (Located Declaration)}
    (h : declarations s = .done ds r) : r = [] := by
  obtain ⟨found, hfound, -⟩ := declarations_eq_done h
  obtain ⟨s', -, hend⟩ := exists_stop_of_manyUntil hfound
  cases s' with
  | nil =>
      cases hend
      rfl
  | cons x w => cases hend

end Grammar

lemma declarationsOfTokens_eq_ok {ts : Tokens} {ds : List (Located Declaration)} :
    declarationsOfTokens ts = .ok ds ↔ Grammar.declarations ts = .done ds [] := by
  rw [declarationsOfTokens]
  cases hread : Grammar.declarations ts with
  | done found r => simp [Grammar.declarations_done hread]
  | failed f => simp

/-! ## Diagnostics -/

/-- An extent is the least span over two tokens, the first and the last. -/
lemma exists_union_of_extent? {s : Tokens} {span : Span} (h : extent? s = some span) :
    ∃ t ∈ s, ∃ t' ∈ s, span = t.span.union t'.span := by
  cases hfound : s.filter fun t => !t.value.isTrivia with
  | nil => rw [extent?, hfound] at h; cases h
  | cons first rest =>
      have hmem : ∀ t ∈ first :: rest, t ∈ s := fun t ht => List.mem_of_mem_filter (hfound ▸ ht)
      have hlast : rest.getLastD first ∈ first :: rest := by
        rw [← List.getLast_eq_getLastD (List.cons_ne_nil first rest)]
        exact List.getLast_mem _
      rw [extent?, hfound] at h
      cases h
      exact ⟨first, hmem first List.mem_cons_self, _, hmem _ hlast, rfl⟩

namespace Failure

lemma diagnostic_of_blank {f : Failure} (h : Blank f.rest) (tokens : Tokens) :
    f.diagnostic tokens = f.incomplete tokens := by
  have hnone : (f.rest.find? fun x => !x.value.isTrivia) = none :=
    List.find?_eq_none.2 fun x hx => by simp [h x hx]
  rw [diagnostic, hnone]

lemma diagnostic_of_not_blank {f : Failure} (h : ¬ Blank f.rest) :
    ∃ found, ∀ tokens, f.diagnostic tokens = f.unexpected tokens found := by
  obtain ⟨found, hfound⟩ : ∃ found, (f.rest.find? fun x => !x.value.isTrivia) = some found := by
    rw [← Option.isSome_iff_exists, List.find?_isSome]
    simpa [Blank] using h
  exact ⟨found, fun tokens => by rw [diagnostic, hfound]⟩

lemma code_of_blank {f : Failure} (h : Blank f.rest) (tokens : Tokens) :
    (f.diagnostic tokens).code = some .incompleteInput := by
  rw [diagnostic_of_blank h]
  rfl

lemma code_of_not_blank {f : Failure} (h : ¬ Blank f.rest) (tokens : Tokens) :
    (f.diagnostic tokens).code = some .unexpectedToken := by
  obtain ⟨found, hfound⟩ := diagnostic_of_not_blank h
  rw [hfound]
  simp only [unexpected]
  split <;> rfl

end Failure

end ArchLang
