import ArchLang.Proofs.Reading

/-!
# How far ahead a reader looks

What a parser makes of its tokens can depend on tokens that it does not read: a list of names looks
for a comma, a scenario for the next `when`.  This file bounds how far it looks, so that what was
read once can be read again with other tokens behind it.

* `Guard`, `Guarded γ v` — a token that keeps a reader from looking behind it, among the tokens `v`.
* `Heeds γ p p'` — `p` stays before a guard, and what stands behind one makes no difference to it,
  be it success or failure.
* `Glimpses p` — the first token alone makes the outcome; this is what a lookahead needs.
* `Glances G p p'` — what was read is read again whatever stands behind it, up to a guard if `G` has
  one.  `Closed` is the case without a guard.

`Heeds` goes through every combinator and serves for the lines of a body, which stay before its
closing brace.  A loop that a mark ends is then closed if its items heed that mark
(`closed_manyUntil`), and with it are a block and in the end every declaration.
-/

namespace ArchLang

open ArchLang.Parser ArchLang.Grammar

variable {α β : Type}

/-! ## Guards -/

/-- The tokens that keep a reader from looking behind them. -/
inductive Guard where
  | significant
  | mark (m : Mark)
  deriving DecidableEq, Repr

/-- Whether a token is a guard. -/
def Guard.holds : Guard → Token → Bool
  | significant, x => !x.isTrivia
  | mark m, x => x = .mark m

/-- Whether a guard has gone by. -/
def Guard.watch (γ : Guard) (passed : Bool) (x : Token) : Bool := passed || γ.holds x

lemma Guard.not_trivia_of_holds {γ : Guard} {x : Token} (h : γ.holds x = true) :
    x.isTrivia = false := by
  cases γ with
  | significant => simpa [holds] using h
  | mark m =>
      obtain rfl : x = .mark m := by simpa [holds] using h
      rfl

/-- One of the tokens is a guard. -/
def Guarded (γ : Guard) (v : Tokens) : Prop := ∃ x ∈ v, γ.holds x.value = true

lemma guarded_append {γ : Guard} (w : Tokens) {v : Tokens} (h : Guarded γ v) :
    Guarded γ (w ++ v) := by
  obtain ⟨x, hx, hγ⟩ := h
  exact ⟨x, List.mem_append_right w hx, hγ⟩

lemma guarded_of_cons {γ : Guard} {x : Located Token} {v : Tokens} (h : Guarded γ (x :: v))
    (hx : γ.holds x.value = false) : Guarded γ v := by
  obtain ⟨y, hy, hγ⟩ := h
  rcases List.mem_cons.1 hy with rfl | hy
  · rw [hx] at hγ
    cases hγ
  · exact ⟨y, hy, hγ⟩

lemma Guarded.not_blank {γ : Guard} {v : Tokens} (h : Guarded γ v) : ¬ Blank v := fun hv => by
  obtain ⟨x, hx, hγ⟩ := h
  have hsig := Guard.not_trivia_of_holds hγ
  rw [hv x hx] at hsig
  cases hsig

lemma not_guarded_nil {γ : Guard} : ¬ Guarded γ [] := by
  rintro ⟨x, hx, -⟩
  cases hx

lemma guarded_significant {v : Tokens} : Guarded .significant v ↔ ¬ Blank v := by
  simp [Guarded, Blank, Guard.holds]

/-- Trivia in front do not count. -/
lemma guarded_dropWhile {γ : Guard} {v : Tokens} (h : Guarded γ v) (kind : Token → Bool)
    (hkind : ∀ x, kind x = true → x.isTrivia = true) :
    ∃ x w, v.dropWhile (fun x => kind x.value) = x :: w ∧ Guarded γ (x :: w) := by
  induction v with
  | nil => exact absurd h not_guarded_nil
  | cons y v ih =>
      cases hy : kind y.value with
      | true =>
          have hholds : γ.holds y.value = false := by
            by_contra hne
            have hsig := Guard.not_trivia_of_holds (by simpa using hne)
            rw [hkind _ hy] at hsig
            cases hsig
          obtain ⟨x, w, hd, hw⟩ := ih (guarded_of_cons h hholds)
          exact ⟨x, w, by rw [List.dropWhile_cons_of_pos (by simpa using hy), hd], hw⟩
      | false => exact ⟨y, v, List.dropWhile_cons_of_neg (by simp [hy]), h⟩

/-! ## Readers that stay before a guard -/

/-- Two outcomes are the same but for what stands behind a guard that neither has reached. -/
def Kin (γ : Guard) (t t' : Tokens) : Outcome α → Outcome α → Prop
  | .done a r, .done a' r' => a = a' ∧ ∃ v, Guarded γ v ∧ r = v ++ t ∧ r' = v ++ t'
  | .failed e, .failed e' => e.committed = e'.committed
  | _, _ => False

lemma kin_map {γ : Guard} {t t' : Tokens} (f : α → β) {o o' : Outcome α} (h : Kin γ t t' o o') :
    Kin γ t t' (o.map f) (o'.map f) := by
  cases o <;> cases o'
  · exact ⟨congrArg f h.1, h.2⟩
  · exact h.elim
  · exact h.elim
  · exact h

namespace Parser

/-- What stands behind a guard makes no difference to the parser. -/
class Heeds (γ : Guard) (p p' : Parser α) : Prop where
  kin : ∀ {v} t t', Guarded γ v → Kin γ t t' (p (v ++ t)) (p' (v ++ t'))

section Heeds

variable (γ : Guard)

lemma kin_of_guarded (p p' : Parser α) [Heeds γ p p'] {v : Tokens} (hv : Guarded γ v)
    (t t' : Tokens) : Kin γ t t' (p (v ++ t)) (p' (v ++ t')) := Heeds.kin t t' hv

instance heeds_pure (a : α) : Heeds γ (pure a : Parser α) (pure a) :=
  ⟨fun {v} _ _ hv => ⟨rfl, v, hv, rfl, rfl⟩⟩

instance heeds_reject (start start' : Tokens) (what : Expected) :
    Heeds γ (reject start what : Parser α) (reject start' what) :=
  ⟨fun _ _ _ => rfl⟩

instance heeds_token (accept : Token → Option α) [Unmoved γ.watch false accept] :
    Heeds γ (token accept) (token accept) := by
  refine ⟨fun {v} t t' hv => ?_⟩
  cases v with
  | nil => exact absurd hv not_guarded_nil
  | cons x v =>
      simp only [token, List.cons_append]
      cases hx : accept x.value with
      | none => rfl
      | some a =>
          have hholds : γ.holds x.value = false := by
            simpa [Guard.watch] using (Unmoved.step_eq hx : γ.watch false x.value = false)
          exact ⟨rfl, v, guarded_of_cons hv hholds, rfl, rfl⟩

lemma heeds_skip (kind : Token → Bool) (hkind : ∀ x, kind x = true → x.isTrivia = true) :
    Heeds γ (skip kind) (skip kind) := by
  refine ⟨fun {v} t t' hv => ?_⟩
  obtain ⟨x, w, hd, hw⟩ := guarded_dropWhile hv kind hkind
  have hskip : ∀ t, (v ++ t).dropWhile (fun x => kind x.value) = x :: w ++ t := fun t => by
    rw [List.dropWhile_append, hd]
    rfl
  exact ⟨rfl, x :: w, hw, hskip t, hskip t'⟩

instance heeds_atEnd : Heeds γ atEnd atEnd := by
  refine ⟨fun {v} t t' hv => ?_⟩
  cases v with
  | nil => exact absurd hv not_guarded_nil
  | cons x v => rfl

instance heeds_bind (p p' : Parser α) (f f' : α → Parser β) [Heeds γ p p']
    [∀ a, Heeds γ (f a) (f' a)] : Heeds γ (p >>= f) (p' >>= f') := by
  refine ⟨fun {v} t t' hv => ?_⟩
  have hp := kin_of_guarded γ p p' hv t t'
  rw [bind_apply, bind_apply]
  cases hs : p (v ++ t) with
  | done a r =>
      cases hs' : p' (v ++ t') with
      | done a' r' =>
          rw [hs, hs'] at hp
          obtain ⟨rfl, w, hw, rfl, rfl⟩ := hp
          exact kin_of_guarded γ (f a) (f' a) hw t t'
      | failed e' => rw [hs, hs'] at hp; exact hp.elim
  | failed e =>
      cases hs' : p' (v ++ t') with
      | done a' r' => rw [hs, hs'] at hp; exact hp.elim
      | failed e' => rw [hs, hs'] at hp; exact hp

instance heeds_here_bind (f f' : Tokens → Parser β)
    [∀ start start', Heeds γ (f start) (f' start')] : Heeds γ (here >>= f) (here >>= f') :=
  ⟨fun t t' hv => kin_of_guarded γ (f _) (f' _) hv t t'⟩

instance heeds_label (what : Expected) (p p' : Parser α) [Heeds γ p p'] :
    Heeds γ (label what p) (label what p') := by
  refine ⟨fun {v} t t' hv => ?_⟩
  have hp := kin_of_guarded γ p p' hv t t'
  unfold label
  cases hs : p (v ++ t) <;> cases hs' : p' (v ++ t') <;> rw [hs, hs'] at hp <;> exact hp

instance heeds_commit (p p' : Parser α) [Heeds γ p p'] : Heeds γ (commit p) (commit p') := by
  refine ⟨fun {v} t t' hv => ?_⟩
  have hp := kin_of_guarded γ p p' hv t t'
  unfold commit
  cases hs : p (v ++ t) <;> cases hs' : p' (v ++ t') <;> rw [hs, hs'] at hp <;>
    first | exact hp | rfl

/-- Both succeed before the guard, or both fail and agree on whether there is a way back. -/
lemma kin_cases {t t' : Tokens} {o o' : Outcome α} (h : Kin γ t t' o o') :
    (∃ a v, Guarded γ v ∧ o = .done a (v ++ t) ∧ o' = .done a (v ++ t')) ∨
    ∃ e e', o = .failed e ∧ o' = .failed e' ∧ e.committed = e'.committed := by
  cases o with
  | done a r =>
      cases o' with
      | done a' r' =>
          obtain ⟨rfl, v, hv, rfl, rfl⟩ := h
          exact Or.inl ⟨a, v, hv, rfl, rfl⟩
      | failed e' => exact h.elim
  | failed e =>
      cases o' with
      | done a' r' => exact h.elim
      | failed e' => exact Or.inr ⟨e, e', rfl, rfl, h⟩

instance heeds_optional (p p' : Parser α) [Heeds γ p p'] :
    Heeds γ (optional p) (optional p') := by
  refine ⟨fun {v} t t' hv => ?_⟩
  rcases kin_cases γ (kin_of_guarded γ p p' hv t t') with ⟨a, w, hw, hs, hs'⟩ | ⟨e, e', hs, hs', he⟩
  · rw [optional_of_done hs, optional_of_done hs']
    exact ⟨rfl, w, hw, rfl, rfl⟩
  · cases hc : e.committed with
    | true =>
        rw [optional_of_committed hs hc, optional_of_committed hs' (he ▸ hc)]
        exact he
    | false =>
        rw [optional_of_open hs hc, optional_of_open hs' (he ▸ hc)]
        exact ⟨rfl, v, hv, rfl, rfl⟩

instance heeds_orElse (p p' q q' : Parser α) [Heeds γ p p'] [Heeds γ q q'] :
    Heeds γ (orElse p q) (orElse p' q') := by
  refine ⟨fun {v} t t' hv => ?_⟩
  rcases kin_cases γ (kin_of_guarded γ p p' hv t t') with ⟨a, w, hw, hs, hs'⟩ | ⟨e, e', hs, hs', he⟩
  · rw [orElse_of_done hs, orElse_of_done hs']
    exact ⟨rfl, w, hw, rfl, rfl⟩
  cases hc : e.committed with
  | true =>
      rw [orElse_of_committed hs hc, orElse_of_committed hs' (he ▸ hc)]
      exact he
  | false =>
      have hc' : e'.committed = false := he ▸ hc
      rcases kin_cases γ (kin_of_guarded γ q q' hv t t') with
        ⟨a, w, hw, hq, hq'⟩ | ⟨e₂, e₂', hq, hq', he₂⟩
      · rw [orElse_of_open_done hs hc hq, orElse_of_open_done hs' hc' hq']
        exact ⟨rfl, w, hw, rfl, rfl⟩
      · cases hc₂ : e₂.committed with
        | true =>
            rw [orElse_of_open_committed hs hc hq hc₂,
              orElse_of_open_committed hs' hc' hq' (he₂ ▸ hc₂)]
            exact he₂
        | false =>
            rw [orElse_of_open_open hs hc hq hc₂, orElse_of_open_open hs' hc' hq' (he₂ ▸ hc₂)]
            exact he₂

instance heeds_lookahead (p p' : Parser α) [Heeds γ p p'] :
    Heeds γ (lookahead p) (lookahead p') := by
  refine ⟨fun {v} t t' hv => ?_⟩
  rcases kin_cases γ (kin_of_guarded γ p p' hv t t') with ⟨a, w, hw, hs, hs'⟩ | ⟨e, e', hs, hs', he⟩
  · rw [lookahead_of_done hs, lookahead_of_done hs']
    exact ⟨rfl, v, hv, rfl, rfl⟩
  · cases hc : e.committed with
    | true =>
        rw [lookahead_of_committed hs hc, lookahead_of_committed hs' (he ▸ hc)]
        exact he
    | false =>
        rw [lookahead_of_open hs hc, lookahead_of_open hs' (he ▸ hc)]
        exact he

instance heeds_many (item : Parser α) [Consumes item] [Heeds γ item item] :
    Heeds γ (many item) (many item) := by
  refine ⟨fun {v} t t' hv => ?_⟩
  induction hlen : v.length using Nat.strong_induction_on generalizing v with
  | _ k ih =>
      rcases kin_cases γ (kin_of_guarded γ item item hv t t') with
        ⟨a, w, hw, hs, hs'⟩ | ⟨e, e', hs, hs', he⟩
      · rw [many_of_done item hs, many_of_done item hs']
        have hlt : w.length < k := by
          have hshort := Consumes.lt hs
          rw [List.length_append, List.length_append] at hshort
          omega
        exact kin_map _ (ih w.length hlt hw rfl)
      · rw [many_of_failed item hs, many_of_failed item hs', ← he]
        cases hc : e.committed with
        | true => exact he
        | false => exact ⟨rfl, v, hv, rfl, rfl⟩

instance heeds_manyUntil (stop : Parser β) (item : Parser α) [Consumes item]
    [Heeds γ stop stop] [Heeds γ item item] :
    Heeds γ (manyUntil Token.isTrivia stop item) (manyUntil Token.isTrivia stop item) := by
  refine ⟨fun {v} t t' hv => ?_⟩
  induction hlen : v.length using Nat.strong_induction_on generalizing v with
  | _ k ih =>
      obtain ⟨x, w, hd, hw⟩ := guarded_dropWhile hv Token.isTrivia fun _ h => h
      have hdrop : ∀ t, (v ++ t).dropWhile (fun x => x.value.isTrivia) = x :: w ++ t := fun t => by
        rw [List.dropWhile_append, hd]
        rfl
      have hle : (x :: w).length ≤ k := by
        rw [← hlen, ← hd]
        exact (List.dropWhile_sublist _).length_le
      rcases kin_cases γ (kin_of_guarded γ stop stop hw t t') with
        ⟨b, u, hu, hs, hs'⟩ | ⟨e, e', hs, hs', he⟩
      · rw [manyUntil_of_stop item stop (hdrop t) hs, manyUntil_of_stop item stop (hdrop t') hs']
        exact ⟨rfl, u, hu, rfl, rfl⟩
      cases hc : e.committed with
      | true =>
          rw [manyUntil_of_committed item stop (hdrop t) hs hc,
            manyUntil_of_committed item stop (hdrop t') hs' (he ▸ hc)]
          exact he
      | false =>
          have hc' : e'.committed = false := he ▸ hc
          rcases kin_cases γ (kin_of_guarded γ item item hw t t') with
            ⟨a, u, hu, hi, hi'⟩ | ⟨e₂, e₂', hi, hi', he₂⟩
          · rw [manyUntil_of_done item stop (hdrop t) hs hc hi,
              manyUntil_of_done item stop (hdrop t') hs' hc' hi']
            have hlt : u.length < k := by
              have hshort := Consumes.lt hi
              rw [List.length_append, List.length_append] at hshort
              omega
            exact kin_map _ (ih u.length hlt hu rfl)
          · rw [manyUntil_of_failed item stop (hdrop t) hs hc hi,
              manyUntil_of_failed item stop (hdrop t') hs' hc' hi']
            exact he₂

instance heeds_separated (item : Parser α) (separator : Parser β) [Consumes item]
    [Keeps separator] [Heeds γ item item] [Heeds γ separator separator] :
    Heeds γ (separated item separator) (separated item separator) := by
  unfold separated; infer_instance

/-! ### One token ahead -/

/-- Two outcomes with the same value or with failures of the same kind. -/
def Alike : Outcome α → Outcome α → Prop
  | .done a _, .done a' _ => a = a'
  | .failed e, .failed e' => e.committed = e'.committed
  | _, _ => False

/-- The first token alone makes the outcome. -/
class Glimpses (p : Parser α) : Prop where
  alike : ∀ x w w', Alike (p (x :: w)) (p (x :: w'))

instance glimpses_token (accept : Token → Option α) : Glimpses (token accept) := by
  refine ⟨fun x w w' => ?_⟩
  simp only [token]
  cases accept x.value <;> rfl

instance glimpses_atEnd : Glimpses atEnd := ⟨fun _ _ _ => rfl⟩

instance glimpses_label (what : Expected) (p : Parser α) [Glimpses p] :
    Glimpses (label what p) := by
  refine ⟨fun x w w' => ?_⟩
  have hp := Glimpses.alike (p := p) x w w'
  unfold label
  cases hs : p (x :: w) <;> cases hs' : p (x :: w') <;> rw [hs, hs'] at hp <;> exact hp

lemma glimpses_bind_pure (p : Parser α) (f : α → β) [Glimpses p] :
    Glimpses (p >>= fun a => pure (f a)) := by
  refine ⟨fun x w w' => ?_⟩
  have hp := Glimpses.alike (p := p) x w w'
  rw [bind_apply, bind_apply]
  cases hs : p (x :: w) <;> cases hs' : p (x :: w') <;> rw [hs, hs'] at hp
  · exact congrArg f hp
  · exact hp
  · exact hp
  · exact hp

lemma alike_cases {o o' : Outcome α} (h : Alike o o') :
    (∃ a r r', o = .done a r ∧ o' = .done a r') ∨
    ∃ e e', o = .failed e ∧ o' = .failed e' ∧ e.committed = e'.committed := by
  cases o with
  | done a r =>
      cases o' with
      | done a' r' =>
          obtain rfl : a = a' := h
          exact Or.inl ⟨a, r, r', rfl, rfl⟩
      | failed e' => exact h.elim
  | failed e =>
      cases o' with
      | done a' r' => exact h.elim
      | failed e' => exact Or.inr ⟨e, e', rfl, rfl, h⟩

instance glimpses_orElse (p q : Parser α) [Glimpses p] [Glimpses q] : Glimpses (orElse p q) := by
  refine ⟨fun x w w' => ?_⟩
  rcases alike_cases (Glimpses.alike (p := p) x w w') with
    ⟨a, r, r', hs, hs'⟩ | ⟨e, e', hs, hs', he⟩
  · rw [orElse_of_done hs, orElse_of_done hs']
    rfl
  cases hc : e.committed with
  | true =>
      rw [orElse_of_committed hs hc, orElse_of_committed hs' (he ▸ hc)]
      exact he
  | false =>
      have hc' : e'.committed = false := he ▸ hc
      rcases alike_cases (Glimpses.alike (p := q) x w w') with
        ⟨a, r, r', hq, hq'⟩ | ⟨e₂, e₂', hq, hq', he₂⟩
      · rw [orElse_of_open_done hs hc hq, orElse_of_open_done hs' hc' hq']
        rfl
      · cases hc₂ : e₂.committed with
        | true =>
            rw [orElse_of_open_committed hs hc hq hc₂,
              orElse_of_open_committed hs' hc' hq' (he₂ ▸ hc₂)]
            exact he₂
        | false =>
            rw [orElse_of_open_open hs hc hq hc₂, orElse_of_open_open hs' hc' hq' (he₂ ▸ hc₂)]
            exact he₂

/-- Looking at one token ahead does not pass a guard, be it that token itself. -/
lemma heeds_lookahead_of_glimpses (p : Parser α) [Glimpses p] :
    Heeds γ (lookahead p) (lookahead p) := by
  refine ⟨fun {v} t t' hv => ?_⟩
  cases v with
  | nil => exact absurd hv not_guarded_nil
  | cons x w =>
      rw [List.cons_append, List.cons_append]
      rcases alike_cases (Glimpses.alike (p := p) x (w ++ t) (w ++ t')) with
        ⟨a, r, r', hs, hs'⟩ | ⟨e, e', hs, hs', he⟩
      · rw [lookahead_of_done hs, lookahead_of_done hs']
        exact ⟨rfl, x :: w, hv, rfl, rfl⟩
      · cases hc : e.committed with
        | true =>
            rw [lookahead_of_committed hs hc, lookahead_of_committed hs' (he ▸ hc)]
            exact he
        | false =>
            rw [lookahead_of_open hs hc, lookahead_of_open hs' (he ▸ hc)]
            exact he

end Heeds

/-! ## Readers that depend on what they read

They may look a little further, but not behind a guard.  Without a guard they do not look further at
all. -/

/-- What is read is the same whatever stands behind it, up to a guard if there is one. -/
class Glances (G : Option Guard) (p p' : Parser α) : Prop where
  done_append : ∀ {w v t t' : Tokens} {a : α}, (∀ g ∈ G, Guarded g v) →
    p (w ++ (v ++ t)) = .done a (v ++ t) → p' (w ++ (v ++ t')) = .done a (v ++ t')

/-- What is read is the same whatever stands behind it. -/
abbrev Closed (p p' : Parser α) : Prop := Glances none p p'

section Glances

lemma Closed.done {p p' : Parser α} [Closed p p'] {w t : Tokens} {a : α}
    (h : p (w ++ t) = .done a t) (t' : Tokens) : p' (w ++ t') = .done a t' :=
  Glances.done_append (G := none) (p := p) (v := []) (fun _ hg => (nomatch hg)) h

lemma Glances.done {g : Guard} {p p' : Parser α} [Glances (some g) p p'] {w v t : Tokens} {a : α}
    (h : p (w ++ (v ++ t)) = .done a (v ++ t)) (hv : Guarded g v) (t' : Tokens) :
    p' (w ++ (v ++ t')) = .done a (v ++ t') :=
  Glances.done_append (G := some g) (p := p) (fun _ hg => Option.some.inj hg ▸ hv) h

instance (priority := low) glances_of_closed (γ : Guard) (p p' : Parser α) [Closed p p'] :
    Glances (some γ) p p' :=
  ⟨fun _ h => Closed.done (p := p) h _⟩

instance (priority := low) glances_of_heeds (γ : Guard) (p p' : Parser α) [Heeds γ p p'] :
    Glances (some γ) p p' := by
  refine ⟨fun {w v t t' a} hv h => ?_⟩
  have hw : Guarded γ (w ++ v) := guarded_append w (hv γ rfl)
  rw [← List.append_assoc] at h ⊢
  rcases kin_cases γ (kin_of_guarded γ p p' hw t t') with ⟨b, u, -, hs, hs'⟩ | ⟨e, e', hs, -, -⟩
  · rw [h] at hs
    injection hs with hb hu
    rw [hs', ← hb, List.append_cancel_right hu]
  · rw [h] at hs
    cases hs

variable (G : Option Guard)

instance glances_pure (a : α) : Glances G (pure a : Parser α) (pure a) := by
  refine ⟨fun {w v t t' b} _ h => ?_⟩
  injection h with hb hr
  obtain rfl := List.append_left_eq_self.1 hr
  rw [hb]
  rfl

instance closed_token (accept : Token → Option α) : Closed (token accept) (token accept) := by
  refine ⟨fun {w v t t' a} _ h => ?_⟩
  obtain ⟨x, hx, haccept, hspan⟩ := token_eq_done.1 h
  rw [← List.singleton_append] at hx
  rw [List.append_cancel_right hx]
  exact token_eq_done.2 ⟨x, rfl, haccept, hspan⟩

instance glances_label (what : Expected) (p p' : Parser α) [Glances G p p'] :
    Glances G (label what p) (label what p') :=
  ⟨fun hv h => label_done.2 (Glances.done_append hv (label_done.1 h))⟩

instance glances_commit (p p' : Parser α) [Glances G p p'] : Glances G (commit p) (commit p') :=
  ⟨fun hv h => commit_done.2 (Glances.done_append hv (commit_done.1 h))⟩

instance glances_here_bind (f f' : Tokens → Parser β)
    [∀ start start', Glances G (f start) (f' start')] : Glances G (here >>= f) (here >>= f') := by
  refine ⟨fun {w v t t' a} hv h => ?_⟩
  have hf : Glances G (f (w ++ (v ++ t))) (f' (w ++ (v ++ t'))) := inferInstance
  exact hf.done_append hv h

/-- The tokens between two places. -/
lemma exists_between {s r t : Tokens} (hr : r <:+ s) (ht : t <:+ r) :
    ∃ u v, s = u ++ (v ++ t) ∧ r = v ++ t := by
  obtain ⟨u, rfl⟩ := hr
  obtain ⟨v, rfl⟩ := ht
  exact ⟨u, v, rfl, rfl⟩

instance glances_bind (p p' : Parser α) (f f' : α → Parser β) [Forward p] [∀ a, Forward (f a)]
    [Glances G p p'] [∀ a, Glances G (f a) (f' a)] : Glances G (p >>= f) (p' >>= f') := by
  refine ⟨fun {w v t t' b} hv h => ?_⟩
  obtain ⟨a, r, hp, hf⟩ := bind_eq_done.1 h
  have hr := suffix_of_done hp
  have ht := suffix_of_done hf
  obtain ⟨u₀, u₁, hs, rfl⟩ := exists_between hr ht
  obtain rfl : w = u₀ ++ u₁ :=
    List.append_cancel_right (hs.trans (List.append_assoc u₀ u₁ (v ++ t)).symm)
  have hv' : ∀ g ∈ G, Guarded g (u₁ ++ v) := fun g hg => guarded_append u₁ (hv g hg)
  have hp' : p' (u₀ ++ ((u₁ ++ v) ++ t')) = .done a ((u₁ ++ v) ++ t') :=
    Glances.done_append (p := p) hv' (t := t) (by simpa only [List.append_assoc] using hp)
  simp only [List.append_assoc] at hp' ⊢
  exact (bind_of_done f' hp').trans (Glances.done_append hv hf)

/-- Where something that counts is taken next, a reader may have looked for it. -/
instance (priority := low) closed_bind_takes (p p' : Parser α) (f f' : α → Parser β) [Forward p]
    [Glances (some .significant) p p'] [∀ a, Closed (f a) (f' a)] [∀ a, Takes (f a)] :
    Closed (p >>= f) (p' >>= f') := by
  refine ⟨fun {w v t t' b} _ h => ?_⟩
  generalize v ++ t = t, v ++ t' = t' at h ⊢
  obtain ⟨a, r, hp, hf⟩ := bind_eq_done.1 h
  obtain ⟨u₁, rfl, hu₁⟩ := Takes.takes hf
  obtain ⟨u₀, hs⟩ := exists_taken hp
  obtain rfl : w = u₀ ++ u₁ :=
    List.append_cancel_right (hs.trans (List.append_assoc u₀ u₁ t).symm)
  simp only [List.append_assoc] at hp ⊢
  have hp' : p' (u₀ ++ (u₁ ++ t')) = .done a (u₁ ++ t') :=
    Glances.done (p := p) hp (guarded_significant.2 hu₁) t'
  exact (bind_of_done f' hp').trans (Closed.done (p := f a) hf t')

/-- An attempt that looks at one token. -/
instance glances_optional (γ : Guard) (p : Parser α) [Closed p p] [Glimpses p] :
    Glances (some γ) (optional p) (optional p) := by
  refine ⟨fun {w v t t' o} hv h => ?_⟩
  cases hp : p (w ++ (v ++ t)) with
  | done a r =>
      rw [optional_of_done hp] at h
      cases h
      have hp' : p (w ++ v ++ t') = .done a (v ++ t') := by
        simpa only [List.append_assoc] using Closed.done (p := p) hp (v ++ t')
      simpa only [List.append_assoc] using optional_of_done hp'
  | failed e =>
      cases hc : e.committed with
      | true =>
          rw [optional_of_committed hp hc] at h
          cases h
      | false =>
          rw [optional_of_open hp hc] at h
          injection h with ho hr
          obtain rfl := List.append_left_eq_self.1 hr
          subst ho
          obtain ⟨x, v, rfl⟩ : ∃ x v', v = x :: v' := by
            cases v with
            | nil => exact absurd (hv γ rfl) not_guarded_nil
            | cons x v => exact ⟨x, v, rfl⟩
          rcases alike_cases (Glimpses.alike (p := p) x (v ++ t) (v ++ t')) with
            ⟨a, r, r', hs, -⟩ | ⟨e, e', hs, hs', he⟩
          · exact absurd (hs.symm.trans hp) (by simp)
          · obtain rfl := Outcome.failed.inj (hs.symm.trans hp)
            exact optional_of_open hs' (he ▸ hc)

/-- A loop that a mark ends takes that mark. -/
lemma guarded_of_manyUntil {m : Mark} (item : Parser α) [Consumes item] [Forward item]
    {s r : Tokens} {found : List α × Span}
    (h : manyUntil Token.isTrivia (Grammar.mark m) item s = .done found r) :
    ∃ u, s = u ++ r ∧ Guarded (.mark m) u := by
  obtain ⟨s', ⟨u, rfl⟩, hstop⟩ := exists_stop_of_manyUntil h
  obtain ⟨x, rfl, hx⟩ := mark_eq_done hstop
  exact ⟨u ++ [x], by simp, x, by simp, by simp [Guard.holds, hx]⟩

/-- A loop that a mark ends reads the same items when they do not look behind that mark. -/
instance closed_manyUntil (m : Mark) (item : Parser α) [Consumes item] [Forward item]
    [Glances (some (.mark m)) item item] :
    Closed (manyUntil Token.isTrivia (Grammar.mark m) item)
      (manyUntil Token.isTrivia (Grammar.mark m) item) := by
  refine ⟨fun {w v t t' found} _ h => ?_⟩
  generalize v ++ t = t, v ++ t' = t' at h ⊢
  induction hlen : w.length using Nat.strong_induction_on generalizing w found with
  | _ k ih =>
      obtain ⟨u, hu, hguarded⟩ := guarded_of_manyUntil item h
      obtain rfl := List.append_cancel_right hu
      rcases exists_blank_append w with hw | ⟨g, x, u, rfl, hg, hx⟩
      · exact absurd hw hguarded.not_blank
      rw [List.append_assoc, List.cons_append, manyUntil_blank_append item _ hg] at h ⊢
      have hturn := dropWhile_trivia_cons hx (u ++ t')
      rcases exists_turn item _ hx h with ⟨b, hstop, rfl⟩ | ⟨e, a, r, found', hs, -, hi, hm, rfl⟩
      · -- the mark itself, so nothing else is read
        obtain ⟨x', hcons, hx'⟩ := mark_eq_done hstop
        obtain ⟨rfl, ht⟩ := List.cons.inj hcons
        obtain rfl := List.append_left_eq_self.1 ht
        rw [mark_cons_of_eq _ hx'] at hstop
        cases hstop
        exact manyUntil_of_stop item _ hturn (mark_cons_of_eq t' hx')
      · have hne : x.value ≠ .mark m := fun hx' => by
          rw [mark_cons_of_eq _ hx'] at hs
          cases hs
        obtain ⟨v, rfl, hv⟩ := guarded_of_manyUntil item hm
        obtain ⟨u₀, hu₀⟩ := exists_taken hi
        have hsplit : x :: u = u₀ ++ v :=
          List.append_cancel_right (hu₀.trans (List.append_assoc u₀ v t).symm)
        have hi' : item (x :: (u ++ t')) = .done a (v ++ t') := by
          rw [hu₀] at hi
          have hmore : item (u₀ ++ (v ++ t')) = .done a (v ++ t') :=
            Glances.done (p := item) hi hv t'
          rwa [← List.append_assoc, ← hsplit] at hmore
        have hlt : v.length < k := by
          have hshort := Consumes.lt hi
          simp only [List.length_append, List.length_cons] at hshort hlen
          omega
        refine (manyUntil_of_done item _ hturn (mark_cons_of_ne _ hne) rfl hi').trans ?_
        rw [ih v.length hlt hm rfl]
        rfl

end Glances

end Parser

/-! ## The grammar -/

namespace Grammar

instance (m : Mark) : CalmWords (Guard.mark m).watch false :=
  ⟨fun ht => by simpa [Guard.watch, Guard.holds] using ht m⟩

instance : Calm (Guard.mark .rightBrace).watch false (.mark .comma) := ⟨rfl⟩

instance : Calm (Guard.mark .rightBrace).watch false (.mark .colon) := ⟨rfl⟩

instance : Calm (Guard.mark .rightBrace).watch false (.mark .arrow) := ⟨rfl⟩

instance : Calm (Guard.mark .rightBrace).watch false (.mark .greater) := ⟨rfl⟩

instance : Calm (Guard.mark .rightBrace).watch false (.mark .leftParen) := ⟨rfl⟩

instance : Calm (Guard.mark .rightBrace).watch false (.mark .rightParen) := ⟨rfl⟩

instance : Calm (Guard.mark .rightBrace).watch false (.mark .leftBracket) := ⟨rfl⟩

instance : Calm (Guard.mark .rightBrace).watch false (.mark .rightBracket) := ⟨rfl⟩

instance : Calm (Guard.mark .colon).watch false (.mark .comma) := ⟨rfl⟩

instance : Calm (Guard.mark .colon).watch false (.mark .arrow) := ⟨rfl⟩

instance : Calm (Guard.mark .colon).watch false (.mark .leftParen) := ⟨rfl⟩

instance : Calm (Guard.mark .colon).watch false (.mark .rightParen) := ⟨rfl⟩

section Heeds

variable (γ : Guard)

instance : Heeds γ gap gap := heeds_skip γ _ fun _ h => h

instance : Heeds γ blanks blanks := by
  refine heeds_skip γ _ fun t h => ?_
  cases t <;> first | rfl | cases h

instance : Heeds γ gap1 gap1 := by
  have : Unmoved γ.watch false fun t => if t.isTrivia then some () else none := by
    refine ⟨fun {t a} h => ?_⟩
    by_contra hne
    have hsig : t.isTrivia = false := Guard.not_trivia_of_holds (by simpa [Guard.watch] using hne)
    rw [hsig] at h
    cases h
  unfold gap1
  infer_instance

lemma heeds_exactly (what : Expected) (t : Token) [Calm γ.watch false t] :
    Heeds γ (exactly what (· = t)) (exactly what (· = t)) := by
  have : Unmoved γ.watch false fun t' => if decide (t' = t) then some () else none := by
    refine ⟨fun {t' a} h => ?_⟩
    split at h
    · next ht =>
      obtain rfl := of_decide_eq_true ht
      exact Calm.step_eq
    · cases h
  unfold exactly
  infer_instance

instance (m : Mark) [Calm γ.watch false (.mark m)] : Heeds γ (mark m) (mark m) :=
  heeds_exactly γ _ _

instance (m : Mark) [Calm γ.watch false (.mark m)] : Heeds γ (around m) (around m) := by
  unfold around; infer_instance

omit γ in
lemma glimpses_exactly (what : Expected) (kind : Token → Bool) : Glimpses (exactly what kind) := by
  unfold exactly
  exact glimpses_bind_pure _ _

instance (m : Mark) : Glimpses (mark m) := glimpses_exactly _ _

instance (k : Keyword) : Glimpses (keyword k) := glimpses_exactly _ _

instance (m : Mark) : Glimpses (mark m >>= fun _ => pure ()) := glimpses_bind_pure _ _

instance (k : Keyword) : Glimpses (keyword k >>= fun _ => pure ()) := glimpses_bind_pure _ _

variable [CalmWords γ.watch false]

instance (k : Keyword) : Heeds γ (keyword k) (keyword k) := heeds_exactly γ _ _

instance : Heeds γ lineBreak lineBreak := heeds_exactly γ _ _

instance : Heeds γ anyName anyName := by unfold anyName; infer_instance

instance : Heeds γ bareName bareName := by unfold bareName; infer_instance

instance [Calm γ.watch false (.mark .comma)] : Heeds γ names names := by
  unfold names listComma; infer_instance

instance [Calm γ.watch false (.mark .arrow)] : Heeds γ rule rule := by unfold rule; infer_instance

instance [Calm γ.watch false (.mark .arrow)] [Calm γ.watch false (.mark .comma)]
    [Calm γ.watch false (.mark .rightParen)] : Heeds γ rules rules := by
  unfold rules listComma; infer_instance

instance [Calm γ.watch false (.mark .arrow)] [Calm γ.watch false (.mark .comma)]
    [Calm γ.watch false (.mark .rightParen)] (kind : Text) (opening : Option Span) :
    Heeds γ (rulesBehind kind opening) (rulesBehind kind opening) := by
  cases opening <;> (unfold rulesBehind; infer_instance)

instance [Calm γ.watch false (.mark .arrow)] [Calm γ.watch false (.mark .comma)]
    [Calm γ.watch false (.mark .leftParen)] [Calm γ.watch false (.mark .rightParen)] :
    Heeds γ rollout rollout := by rw [rollout_eq]; infer_instance

end Heeds

/-! ### Lines of a body

They stay before the closing brace of the body. -/

instance (start start' : Tokens) (key : String) :
    Heeds (.mark .rightBrace) (propertyValue start key) (propertyValue start' key) := by
  unfold propertyValue
  repeat' split
  all_goals infer_instance

instance : Heeds (.mark .rightBrace) property property := by unfold property; infer_instance

instance (start start' : Tokens) (field : Option ExposureKey) :
    Heeds (.mark .rightBrace) (exposureLineOf start field) (exposureLineOf start' field) := by
  cases field <;> (unfold exposureLineOf; infer_instance)

instance : Heeds (.mark .rightBrace) exposureLine exposureLine := by
  unfold exposureLine; infer_instance

instance : Heeds (.mark .rightBrace) modifier modifier := by
  have : Heeds (.mark .rightBrace) (token modifierValueOf) (token modifierValueOf) := inferInstance
  unfold modifier
  infer_instance

instance : Heeds (.mark .rightBrace) modifiers modifiers := by
  unfold modifiers listComma; infer_instance

instance : Heeds (.mark .rightBrace) bracketed bracketed := by unfold bracketed; infer_instance

instance : Heeds (.mark .rightBrace) node node := by unfold node; infer_instance

instance : Heeds (.mark .rightBrace) chain chain := by unfold chain; infer_instance

instance : Heeds (.mark .rightBrace) header header := by unfold header; infer_instance

instance : Heeds (.mark .rightBrace) sectionEnd sectionEnd := by
  have := heeds_lookahead_of_glimpses (.mark .rightBrace) (mark .rightBrace >>= fun _ => pure ())
  unfold sectionEnd
  infer_instance

instance : Heeds (.mark .rightBrace) components components := by unfold components; infer_instance

instance (start start' : Tokens) (components : List ComponentDecl) (layer : Option Layer) :
    Heeds (.mark .rightBrace) (layered start components layer)
      (layered start' components layer) := by
  cases layer <;> (unfold layered; infer_instance)

instance : Heeds (.mark .rightBrace) layer layer := by unfold layer; infer_instance

instance : Heeds (.mark .rightBrace) lineWord lineWord := by unfold lineWord; infer_instance

instance : Heeds (.mark .rightBrace) endOfLine endOfLine := by
  have := heeds_lookahead_of_glimpses (.mark .rightBrace) (mark .rightBrace >>= fun _ => pure ())
  unfold endOfLine
  infer_instance

instance : Heeds (.mark .rightBrace) words words := by unfold words; infer_instance

instance {α : Type} (start start' : Tokens) (what : Expected) (span : Span) (form : Option α) :
    Heeds (.mark .rightBrace) (classified start what span form)
      (classified start' what span form) := by
  cases form <;> (unfold classified; infer_instance)

instance (start : Span) : Heeds (.mark .rightBrace) (triggerBody start) (triggerBody start) := by
  unfold triggerBody; infer_instance

instance : Heeds (.mark .rightBrace) trigger trigger := by unfold trigger; infer_instance

instance : Heeds (.mark .rightBrace) action action := by unfold action; infer_instance

instance : Heeds (.mark .rightBrace) scenarioEnd scenarioEnd :=
  heeds_lookahead_of_glimpses (.mark .rightBrace) _

instance : Heeds (.mark .rightBrace) scenario scenario := by unfold scenario; infer_instance

/-! ### A line behind a line

The key and the colon of the next line are enough. -/

instance (m : Mark) : Closed (mark m) (mark m) := by unfold mark exactly; infer_instance

instance (γ : Guard) (m : Mark) : Glances (some γ) (around m) (around m) := by
  unfold around; infer_instance

instance : Closed anyName anyName := by unfold anyName; infer_instance

instance : Glimpses anyName := by unfold anyName; infer_instance

instance : Closed bareName bareName := by unfold bareName; infer_instance

instance (start start' : Tokens) (key : String) :
    Heeds (.mark .colon) (propertyValue start key) (propertyValue start' key) := by
  unfold propertyValue
  repeat' split
  all_goals infer_instance

instance : Glances (some (.mark .colon)) property property := by unfold property; infer_instance

instance (start start' : Tokens) (field : Option ExposureKey) :
    Glances (some (.mark .colon)) (exposureLineOf start field) (exposureLineOf start' field) := by
  cases field <;> (unfold exposureLineOf; infer_instance)

instance : Glances (some (.mark .colon)) exposureLine exposureLine := by
  unfold exposureLine; infer_instance

/-! ### Declarations

They end with a brace or a name. -/

instance (item : Parser α) [Consumes item] [Forward item]
    [Glances (some (.mark .rightBrace)) item item] : Closed (block item) (block item) := by
  unfold block; infer_instance

instance : Closed actor actor := by unfold actor; infer_instance

instance : Closed domain domain := by unfold domain; infer_instance

instance : Closed service service := by unfold service; infer_instance

set_option synthInstance.maxSize 512 in
instance (start : Span) (k : Keyword) :
    Closed (declarationBody start k) (declarationBody start k) := by
  cases k <;> (unfold declarationBody)
  · unfold actorsBody; infer_instance
  · unfold actorBody; infer_instance
  · unfold domainsBody; infer_instance
  · unfold domainBody; infer_instance
  · unfold servicesBody; infer_instance
  · unfold serviceBody; infer_instance
  · unfold exposureBody; infer_instance
  · unfold archBody; infer_instance
  all_goals unfold useCaseBody; infer_instance

instance : Closed declaration declaration := by unfold declaration; infer_instance

end Grammar

end ArchLang
