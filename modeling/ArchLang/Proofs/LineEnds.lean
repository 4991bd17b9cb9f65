import ArchLang.Proofs.Respacing

/-!
# Line ends as white space

A line end closes a line in the body of a use case, and one would like it to be mere white space
everywhere else.  There is one more place where it counts: modifiers stand on the line of their
node, so a line end in front of their opening bracket detaches them, and a bracket that is detached
is out of place whatever stands around it.

* `Exchanged σ s s'` — outside the braces of use cases, some white space and some line ends took
  each other's place.
* `Detached` — some opening bracket has a line end in front of it.
* `Attaches p` — of the brackets that `p` reads none is detached, and neither is any that it has
  read where it fails.  So tokens with a detached bracket are not read to their end
  (`reading_of_detached`).
* **`reading_exchanged`** — the exchange changes nothing, unless it detaches or attaches a bracket.
* **`reading_not_always_exchanged`** — an exchange that does.
-/

namespace ArchLang

open ArchLang.Parser ArchLang.Grammar

variable {α β : Type}

/-! ## The exchange -/

/-- White space and line ends. -/
def Token.isSpacing : Token → Bool
  | .whitespace | .newline => true
  | _ => false

/-- Outside the braces of use cases, some white space and some line ends took each other's
place. -/
inductive Exchanged : Site → Tokens → Tokens → Prop where
  | nil {σ : Site} : Exchanged σ [] []
  | kept {σ : Site} (t : Located Token) {s s' : Tokens} :
      Exchanged (σ.after t.value) s s' → Exchanged σ (t :: s) (t :: s')
  | swapped {σ : Site} {x y : Located Token} {s s' : Tokens} : σ ≠ .inside →
      x.value.isSpacing = true → y.value.isSpacing = true → Exchanged σ s s' →
      Exchanged σ (x :: s) (y :: s')

/-- The token is an opening bracket with a line end in front of it. -/
def IsDetached (x : Space × Located Token) : Prop :=
  x.1 = .broken ∧ x.2.value = .mark .leftBracket

instance : DecidablePred IsDetached := fun x =>
  inferInstanceAs (Decidable (x.1 = .broken ∧ x.2.value = .mark .leftBracket))

/-- Some opening bracket has a line end in front of it. -/
def Detached (ts : Tokens) : Prop := ∃ x ∈ spacing .none ts, IsDetached x

instance : DecidablePred Detached := fun ts =>
  inferInstanceAs (Decidable (∃ x ∈ spacing .none ts, IsDetached x))

lemma isTrivia_of_isSpacing {t : Token} (h : t.isSpacing = true) : t.isTrivia = true := by
  cases t with
  | whitespace | newline => rfl
  | _ => cases h

lemma after_of_isTrivia {t : Token} (h : t.isTrivia = true) (σ : Site) : σ.after t = σ := by
  cases t with
  | lineComment | whitespace | newline => rfl
  | _ => cases h

lemma eq_of_ne_broken {sp sp' : Space} (hnone : sp = .none ↔ sp' = .none) (h : sp ≠ .broken)
    (h' : sp' ≠ .broken) : sp = sp' := by
  cases sp <;> cases sp' <;> simp_all

/-- Where no bracket is detached on either side, the exchange does not show in what matters. -/
lemma sameSpacing_of_exchanged {σ : Site} {s s' : Tokens} (h : Exchanged σ s s') {sp sp' : Space}
    (hnone : sp = .none ↔ sp' = .none) (hinside : σ = .inside → sp = sp')
    (hs : ∀ x ∈ spacing sp s, ¬ IsDetached x) (hs' : ∀ x ∈ spacing sp' s', ¬ IsDetached x) :
    SameSpacing σ (spacing sp s) (spacing sp' s') := by
  have hpush : ∀ sp sp' t t', Space.push sp t = .none ↔ Space.push sp' t' = .none :=
    fun sp sp' t t' => iff_of_false (push_ne_none sp t) (push_ne_none sp' t')
  -- the spaces that were met may differ by now, but there is one on both sides or on neither
  induction h generalizing sp sp' with
  | nil => exact .nil
  | @kept σ t s s' _ ih =>
      cases ht : t.value.isTrivia with
      | true =>
          rw [spacing_cons_of_trivia ht] at hs hs' ⊢
          rw [spacing_cons_of_trivia ht]
          rw [after_of_isTrivia ht] at ih
          exact ih (hpush _ _ _ _) (fun hσ => by rw [hinside hσ]) hs hs'
      | false =>
          rw [spacing_cons ht] at hs hs' ⊢
          rw [spacing_cons ht]
          rw [List.forall_mem_cons] at hs hs'
          refine .cons hnone (fun hminds => ?_) (ih Iff.rfl (fun _ => rfl) hs.2 hs'.2)
          rcases hminds with hσ | hbracket
          · exact hinside hσ
          · exact eq_of_ne_broken hnone (fun hb => hs.1 ⟨hb, hbracket⟩)
              fun hb => hs'.1 ⟨hb, hbracket⟩
  | @swapped σ x y s s' hσ hx hy _ ih =>
      rw [spacing_cons_of_trivia (isTrivia_of_isSpacing hx)] at hs ⊢
      rw [spacing_cons_of_trivia (isTrivia_of_isSpacing hy)] at hs' ⊢
      exact ih (hpush _ _ _ _) (fun h => absurd h hσ) hs hs'

/-! ## Detached brackets -/

/-- Whatever stands in front of the tokens, no bracket among them is detached. -/
def Attached (u : Tokens) : Prop := ∀ sp, ∀ x ∈ spacing sp u, ¬ IsDetached x

lemma attached_nil : Attached [] := fun _ _ hx => nomatch hx

lemma attached_of_blank {g : Tokens} (hg : Blank g) : Attached g := fun sp x hx => by
  rw [spacing_of_blank hg] at hx
  cases hx

lemma not_isDetached_append {u v : Tokens} {sp : Space} (hu : ∀ x ∈ spacing sp u, ¬ IsDetached x)
    (hv : Attached v) : ∀ x ∈ spacing sp (u ++ v), ¬ IsDetached x := by
  induction u generalizing sp with
  | nil => exact hv sp
  | cons t u ih =>
      rw [List.cons_append]
      cases ht : t.value.isTrivia with
      | true =>
          rw [spacing_cons_of_trivia ht] at hu ⊢
          exact ih hu
      | false =>
          rw [spacing_cons ht, List.forall_mem_cons] at hu ⊢
          exact ⟨hu.1, ih hu.2⟩

lemma Attached.append {u v : Tokens} (hu : Attached u) (hv : Attached v) : Attached (u ++ v) :=
  fun sp => not_isDetached_append (hu sp) hv

lemma attached_singleton {t : Located Token} (ht : t.value ≠ .mark .leftBracket) :
    Attached [t] := by
  intro sp x hx
  cases htrivia : t.value.isTrivia with
  | true =>
      rw [spacing_cons_of_trivia htrivia] at hx
      cases hx
  | false =>
      rw [spacing_cons htrivia] at hx
      obtain rfl : x = (sp, t) := by simpa [spacing] using hx
      exact fun h => ht h.2

/-- A bracket on the line of the name in front of it is not detached. -/
lemma attached_bracket {g v : Tokens} {t x : Located Token} (ht : t.value.isTrivia = false)
    (hbracket : t.value ≠ .mark .leftBracket) (hg : Blank g) (hbroken : ¬ Broken g)
    (hx : x.value = .mark .leftBracket) (hv : Attached v) : Attached (t :: (g ++ x :: v)) := by
  intro sp
  rw [spacing_cons ht, spacing_gap hg (by rw [hx]; rfl), List.forall_mem_cons,
    List.forall_mem_cons]
  exact ⟨fun h => hbracket h.2, fun h => hbroken (spaceOf_eq_broken_iff.1 h.1), hv .none⟩

/-- The tokens at which reading ended, well or not. -/
def Outcome.left : Outcome α → Tokens
  | done _ r => r
  | failed e => e.rest

lemma left_map (o : Outcome α) (f : α → β) : (o.map f).left = o.left := by
  cases o <;> rfl

namespace Parser

/-- No bracket is detached among the tokens that the parser reads, be it to an end or up to the
place where it fails. -/
class Attaches (p : Parser α) : Prop where
  attached : ∀ s, ∃ u, s = u ++ (p s).left ∧ Attached u

/-- Whether an opening bracket has gone by. -/
def bracketMet (before : Bool) (t : Token) : Bool := before || t = .mark .leftBracket

instance : CalmWords bracketMet false :=
  ⟨fun {t} h => by simpa [bracketMet] using h .leftBracket⟩

instance : Calm bracketMet false (.mark .comma) := ⟨rfl⟩

instance : Calm bracketMet false (.mark .colon) := ⟨rfl⟩

instance : Calm bracketMet false (.mark .arrow) := ⟨rfl⟩

instance : Calm bracketMet false (.mark .greater) := ⟨rfl⟩

instance : Calm bracketMet false (.mark .leftParen) := ⟨rfl⟩

instance : Calm bracketMet false (.mark .rightParen) := ⟨rfl⟩

instance : Calm bracketMet false (.mark .leftBrace) := ⟨rfl⟩

instance : Calm bracketMet false (.mark .rightBrace) := ⟨rfl⟩

instance : Calm bracketMet false (.mark .rightBracket) := ⟨rfl⟩

section Attaches

lemma attached_of_left_eq {o : Outcome α} {s : Tokens} (h : o.left = s) :
    ∃ u, s = u ++ o.left ∧ Attached u := ⟨[], h.symm, attached_nil⟩

lemma exists_attached_of_done {p : Parser α} [Attaches p] {s r : Tokens} {a : α}
    (h : p s = .done a r) : ∃ u, s = u ++ r ∧ Attached u := by
  have hattached := Attaches.attached (p := p) s
  rwa [h] at hattached

/-- More tokens are read from where others were read. -/
lemma exists_attached_append {o : Outcome α} {s r : Tokens} (hs : ∃ u, s = u ++ r ∧ Attached u)
    (hr : ∃ v, r = v ++ o.left ∧ Attached v) : ∃ u, s = u ++ o.left ∧ Attached u := by
  obtain ⟨u, rfl, hu⟩ := hs
  obtain ⟨v, hv, hattached⟩ := hr
  exact ⟨u ++ v, by rw [List.append_assoc, ← hv], hu.append hattached⟩

/-- A parser that ends where another one does, or where it began. -/
lemma Attaches.of_left {p : Parser α} {q : Parser β} [Attaches p]
    (h : ∀ s, (q s).left = (p s).left ∨ (q s).left = s) : Attaches q := by
  refine ⟨fun s => ?_⟩
  rcases h s with h | h
  · rw [h]
    exact Attaches.attached s
  · exact attached_of_left_eq h

instance attaches_pure (a : α) : Attaches (pure a : Parser α) :=
  ⟨fun _ => attached_of_left_eq rfl⟩

instance attaches_here : Attaches here := ⟨fun _ => attached_of_left_eq rfl⟩

instance attaches_atEnd : Attaches atEnd :=
  ⟨fun s => attached_of_left_eq (by cases s <;> rfl)⟩

instance attaches_reject (start : Tokens) (what : Expected) :
    Attaches (reject start what : Parser α) := ⟨fun _ => attached_of_left_eq rfl⟩

instance attaches_token (accept : Token → Option α) [Unmoved bracketMet false accept] :
    Attaches (token accept) := by
  refine ⟨fun s => ?_⟩
  cases s with
  | nil => exact attached_of_left_eq rfl
  | cons t s =>
      simp only [token]
      cases ht : accept t.value with
      | none => exact attached_of_left_eq rfl
      | some a =>
          have hcalm : bracketMet false t.value = false := Unmoved.step_eq ht
          exact ⟨[t], rfl, attached_singleton (by simpa [bracketMet] using hcalm)⟩

lemma attaches_skip (kind : Token → Bool) (hkind : ∀ t, kind t = true → t.isTrivia = true) :
    Attaches (skip kind) := by
  refine ⟨fun s => ⟨_, List.takeWhile_append_dropWhile.symm, attached_of_blank fun t ht => ?_⟩⟩
  exact hkind _ (List.mem_takeWhile_imp (p := fun t : Located Token => kind t.value) ht)

instance attaches_bind (p : Parser α) (f : α → Parser β) [Attaches p] [∀ a, Attaches (f a)] :
    Attaches (p >>= f) := by
  refine ⟨fun s => ?_⟩
  cases hs : p s with
  | done a r =>
      rw [bind_of_done f hs]
      exact exists_attached_append (exists_attached_of_done hs) (Attaches.attached r)
  | failed e =>
      have hattached := Attaches.attached (p := p) s
      rw [hs] at hattached
      rwa [bind_of_failed f hs]

instance attaches_label (what : Expected) (p : Parser α) [Attaches p] :
    Attaches (label what p) := by
  refine Attaches.of_left (p := p) fun s => .inl ?_
  unfold label
  cases p s <;> rfl

instance attaches_commit (p : Parser α) [Attaches p] : Attaches (commit p) := by
  refine Attaches.of_left (p := p) fun s => .inl ?_
  unfold commit
  cases p s <;> rfl

instance attaches_optional (p : Parser α) [Attaches p] : Attaches (optional p) := by
  refine Attaches.of_left (p := p) fun s => ?_
  unfold optional
  cases p s with
  | done => exact .inl rfl
  | failed e =>
      dsimp only
      split_ifs
      · exact .inl rfl
      · exact .inr rfl

instance attaches_lookahead (p : Parser α) [Attaches p] : Attaches (lookahead p) := by
  refine Attaches.of_left (p := p) fun s => ?_
  unfold lookahead
  cases p s with
  | done => exact .inr rfl
  | failed e =>
      dsimp only
      split_ifs
      · exact .inl rfl
      · exact .inr rfl

instance attaches_orElse (p q : Parser α) [Attaches p] [Attaches q] : Attaches (orElse p q) := by
  refine ⟨fun s => ?_⟩
  have hp := Attaches.attached (p := p) s
  have hq := Attaches.attached (p := q) s
  unfold orElse
  cases hs : p s with
  | done => rwa [hs] at hp
  | failed e =>
      dsimp only
      split_ifs
      · rwa [hs] at hp
      · cases hs' : q s with
        | done => rwa [hs'] at hq
        | failed e' =>
            dsimp only
            split_ifs
            · rwa [hs'] at hq
            · exact attached_of_left_eq rfl

instance attaches_many (item : Parser α) [Consumes item] [Attaches item] :
    Attaches (many item) := by
  refine ⟨fun s => ?_⟩
  induction hlen : s.length using Nat.strong_induction_on generalizing s with
  | _ k ih =>
      have hitem := Attaches.attached (p := item) s
      cases hs : item s with
      | done a r =>
          rw [many_of_done item hs, left_map]
          exact exists_attached_append (exists_attached_of_done hs)
            (ih r.length (hlen ▸ Consumes.lt hs) r rfl)
      | failed e =>
          rw [hs] at hitem
          rw [many_of_failed item hs]
          split_ifs
          · exact hitem
          · exact attached_of_left_eq rfl

instance attaches_manyUntil (stop : Parser β) (item : Parser α) [Consumes item] [Attaches stop]
    [Attaches item] : Attaches (manyUntil Token.isTrivia stop item) := by
  refine ⟨fun s => ?_⟩
  induction hlen : s.length using Nat.strong_induction_on generalizing s with
  | _ k ih =>
      have hskip : ∃ u, s = u ++ (s.dropWhile fun t => t.value.isTrivia) ∧ Attached u :=
        ⟨_, List.takeWhile_append_dropWhile.symm, attached_of_blank (blank_takeWhile s)⟩
      have hstop := Attaches.attached (p := stop) (s.dropWhile fun t => t.value.isTrivia)
      have hitem := Attaches.attached (p := item) (s.dropWhile fun t => t.value.isTrivia)
      cases hs : stop (s.dropWhile fun t => t.value.isTrivia) with
      | done b r =>
          rw [hs] at hstop
          rw [manyUntil_of_stop item stop rfl hs]
          exact exists_attached_append hskip hstop
      | failed e =>
          cases he : e.committed with
          | true =>
              rw [hs] at hstop
              rw [manyUntil_of_committed item stop rfl hs he]
              exact exists_attached_append hskip hstop
          | false =>
              cases hi : item (s.dropWhile fun t => t.value.isTrivia) with
              | failed e' =>
                  rw [hi] at hitem
                  rw [manyUntil_of_failed item stop rfl hs he hi]
                  exact exists_attached_append hskip hitem
              | done a r =>
                  have hlt : r.length < k := hlen ▸ length_lt_of_dropWhile item hi
                  rw [hi] at hitem
                  rw [manyUntil_of_done item stop rfl hs he hi, left_map]
                  exact exists_attached_append hskip
                    (exists_attached_append hitem (ih r.length hlt r rfl))

instance attaches_separated (item : Parser α) (separator : Parser β) [Consumes item]
    [Keeps separator] [Attaches item] [Attaches separator] :
    Attaches (separated item separator) := by
  unfold separated; infer_instance

end Attaches

end Parser

namespace Grammar

instance : Attaches gap := attaches_skip _ fun _ h => h

instance : Attaches blanks := by
  refine attaches_skip _ fun t h => ?_
  cases t with
  | lineComment | whitespace => rfl
  | _ => cases h

instance : Attaches gap1 := by
  have : Attaches (token fun t => if t.isTrivia then some () else none) := by
    have : Unmoved bracketMet false fun t => if t.isTrivia then some () else none := by
      refine ⟨fun {t _} h => ?_⟩
      cases t with
      | mark m => cases h
      | _ => rfl
    infer_instance
  unfold gap1
  infer_instance

lemma attaches_exactly (what : Expected) (t : Token) [Calm bracketMet false t] :
    Attaches (exactly what (· = t)) := by
  have : Unmoved bracketMet false fun t' => if decide (t' = t) then some () else none := by
    refine ⟨fun {t' a} h => ?_⟩
    split at h
    · next ht =>
      obtain rfl := of_decide_eq_true ht
      exact Calm.step_eq
    · cases h
  unfold exactly
  infer_instance

instance (m : Mark) [Calm bracketMet false (.mark m)] : Attaches (mark m) := attaches_exactly _ _

instance (k : Keyword) : Attaches (keyword k) := attaches_exactly _ _

instance : Attaches lineBreak := attaches_exactly _ _

instance : Attaches anyName := by unfold anyName; infer_instance

instance : Attaches bareName := by unfold bareName; infer_instance

instance (m : Mark) [Calm bracketMet false (.mark m)] : Attaches (around m) := by
  unfold around; infer_instance

instance : Attaches listComma := by unfold listComma; infer_instance

instance : Attaches names := by unfold names; infer_instance

instance (item : Parser α) [Consumes item] [Attaches item] : Attaches (block item) := by
  unfold block; infer_instance

/-! ### Entities -/

instance : Attaches actor := by unfold actor; infer_instance

instance : Attaches domain := by unfold domain; infer_instance

instance : Attaches rule := by unfold rule; infer_instance

instance : Attaches rules := by unfold rules; infer_instance

instance (kind : Text) (opening : Option Span) : Attaches (rulesBehind kind opening) := by
  cases opening <;> (unfold rulesBehind; infer_instance)

instance : Attaches rollout := by rw [rollout_eq]; infer_instance

instance (start : Tokens) (key : String) : Attaches (propertyValue start key) := by
  unfold propertyValue
  repeat' split
  all_goals infer_instance

instance : Attaches property := by unfold property; infer_instance

instance : Attaches service := by unfold service; infer_instance

instance (start : Tokens) (field : Option ExposureKey) :
    Attaches (exposureLineOf start field) := by
  cases field <;> (unfold exposureLineOf; infer_instance)

instance : Attaches exposureLine := by unfold exposureLine; infer_instance

/-! ### Architectures -/

instance : Attaches modifier := by unfold modifier; infer_instance

instance : Attaches modifiers := by unfold modifiers; infer_instance

/-- Modifiers are looked for behind the name of a node: they are refused there, or a bracket stands
on the line of the name. -/
lemma bracketed_cases (s : Tokens) :
    (∃ r, bracketed s = .failed ⟨false, [.mark .leftBracket], r, none⟩) ∨
      ∃ g x w, s = g ++ x :: w ∧ Blank g ∧ ¬ Broken g ∧ x.value = .mark .leftBracket ∧
        bracketed s = modifiers w := by
  rcases exists_blank_append s with hs | ⟨g, x, w, rfl, hg, hx⟩
  · obtain ⟨r, h, -⟩ := bracketed_of_blank hs
    exact .inl ⟨r, h⟩
  · by_cases hat : ¬ Broken g ∧ x.value = .mark .leftBracket
    · exact .inr ⟨g, x, w, rfl, hg, hat.1, hat.2, bracketed_of_attached hg hat.1 hat.2⟩
    · obtain ⟨r, h, -⟩ := bracketed_of_not_attached (w := w) hg hx (by tauto)
      exact .inl ⟨r, h⟩

lemma exists_attached_of_optional_bracketed {t : Located Token} (ht : t.value.isTrivia = false)
    (hne : t.value ≠ .mark .leftBracket) (w : Tokens) :
    ∃ u, t :: w = u ++ (optional bracketed w).left ∧ Attached u := by
  have hname : ∀ {o : Outcome (Option (List ModifierDecl))}, o.left = w →
      ∃ u, t :: w = u ++ o.left ∧ Attached u :=
    fun ho => ⟨[t], by rw [ho]; rfl, attached_singleton hne⟩
  rcases bracketed_cases w with ⟨r, h⟩ | ⟨g, x, w, rfl, hg, hbroken, hx, h⟩
  · rw [optional_of_open h rfl]
    exact hname rfl
  · obtain ⟨v, hv, hattached⟩ := Attaches.attached (p := modifiers) w
    have hread : t :: (g ++ x :: w) = (t :: (g ++ x :: v)) ++ (modifiers w).left := by
      simpa using hv
    have hall := attached_bracket ht hne hg hbroken hx hattached
    rw [ArchLang.Parser.optional, h]
    cases hm : modifiers w with
    | done ms r =>
        rw [hm] at hread
        exact ⟨_, hread, hall⟩
    | failed e =>
        rw [hm] at hread
        dsimp only
        split_ifs
        · exact ⟨_, hread, hall⟩
        · exact hname rfl

/-- The name of a node and its modifiers are taken together, for alone, modifiers begin with a
bracket. -/
instance : Attaches node := by
  refine ⟨fun s => ?_⟩
  cases hs : anyName s with
  | failed e =>
      have hattached := Attaches.attached (p := anyName) s
      rw [hs] at hattached
      rwa [node, bind_of_failed _ hs]
  | done name r =>
      obtain ⟨t, rfl, hname, -⟩ := token_eq_done.1 (label_done.1 hs)
      have hsolid : t.value.isTrivia = false := Solid.not_trivia hname
      have hne : t.value ≠ .mark .leftBracket := by
        intro hbracket
        rw [hbracket] at hname
        cases hname
      have hattached := exists_attached_of_optional_bracketed hsolid hne r
      rw [node, bind_of_done _ hs]
      cases ho : optional bracketed r with
      | done found r' =>
          rw [ho] at hattached
          rwa [bind_of_done _ ho]
      | failed e =>
          rw [ho] at hattached
          rwa [bind_of_failed _ ho]

instance : Attaches chain := by unfold chain; infer_instance

instance : Attaches header := by unfold header; infer_instance

instance : Attaches sectionEnd := by unfold sectionEnd; infer_instance

instance : Attaches components := by unfold components; infer_instance

instance (start : Tokens) (components : List ComponentDecl) (layer : Option Layer) :
    Attaches (layered start components layer) := by
  cases layer <;> (unfold layered; infer_instance)

instance : Attaches layer := by unfold layer; infer_instance

/-! ### Use cases -/

instance : Attaches lineWord := by unfold lineWord; infer_instance

instance : Attaches endOfLine := by unfold endOfLine; infer_instance

instance : Attaches words := by unfold words; infer_instance

instance (start : Tokens) (what : Expected) (span : Span) (form : Option α) :
    Attaches (classified start what span form) := by
  cases form <;> (unfold classified; infer_instance)

instance (start : Span) : Attaches (triggerBody start) := by unfold triggerBody; infer_instance

instance : Attaches trigger := by unfold trigger; infer_instance

instance : Attaches action := by unfold action; infer_instance

instance : Attaches scenarioEnd := by unfold scenarioEnd; infer_instance

instance : Attaches scenario := by unfold scenario; infer_instance

/-! ### Declarations -/

instance (start : Span) : Attaches (actorsBody start) := by unfold actorsBody; infer_instance

instance (start : Span) : Attaches (actorBody start) := by unfold actorBody; infer_instance

instance (start : Span) : Attaches (domainsBody start) := by unfold domainsBody; infer_instance

instance (start : Span) : Attaches (domainBody start) := by unfold domainBody; infer_instance

instance (start : Span) : Attaches (servicesBody start) := by unfold servicesBody; infer_instance

instance (start : Span) : Attaches (serviceBody start) := by unfold serviceBody; infer_instance

instance (start : Span) : Attaches (exposureBody start) := by unfold exposureBody; infer_instance

instance (start : Span) : Attaches (archBody start) := by unfold archBody; infer_instance

instance (start : Span) : Attaches (useCaseBody start) := by unfold useCaseBody; infer_instance

instance (start : Span) (k : Keyword) : Attaches (declarationBody start k) := by
  cases k <;> (unfold declarationBody; infer_instance)

instance : Attaches declaration := by unfold declaration; infer_instance

instance : Attaches declarations := by unfold declarations; infer_instance

end Grammar

/-! ## Whole token lists -/

lemma not_detached_of_attached {u r : Tokens} (hu : Attached u) (hr : Blank r) :
    ¬ Detached (u ++ r) := by
  rintro ⟨x, hx, hdetached⟩
  exact (hu.append (attached_of_blank hr)) .none x hx hdetached

/-- A bracket behind a line end is out of place. -/
theorem reading_of_detached {ts : Tokens} (h : Detached ts) :
    reading ts = .error (some .unexpectedToken) := by
  obtain ⟨u, hu, hattached⟩ := Attaches.attached (p := declarations) ts
  unfold reading declarationsOfTokens
  cases hread : declarations ts with
  | done ds r =>
      rw [hread] at hu
      obtain rfl : r = [] := declarations_done hread
      exact absurd (hu ▸ h) (not_detached_of_attached hattached blank_nil)
  | failed e =>
      rw [hread] at hu
      have hrest : ¬ Blank e.rest := fun hblank =>
        not_detached_of_attached hattached hblank (hu ▸ h)
      exact congrArg Except.error (Failure.code_of_not_blank hrest ts)

/-- **Line ends are white space but for brackets.**  Let white space and line ends take each other's
place outside the braces of use cases.  If that detaches and attaches no bracket, the tokens are the
same declarations, or are refused under the same code.  Tokens with a detached bracket are refused,
for there is an unexpected token. -/
theorem reading_exchanged {ts ts' : Tokens} (h : Exchanged (.outside 0) ts ts') :
    ((Detached ts ↔ Detached ts') → reading ts' = reading ts) ∧
    (Detached ts → reading ts = .error (some .unexpectedToken)) ∧
    (Detached ts' → reading ts' = .error (some .unexpectedToken)) := by
  refine ⟨fun hiff => ?_, reading_of_detached, reading_of_detached⟩
  by_cases hd : Detached ts
  · rw [reading_of_detached hd, reading_of_detached (hiff.1 hd)]
  · have hd' : ¬ Detached ts' := mt hiff.2 hd
    refine reading_of_respaced (respaced_of_spacing ?_)
    exact sameSpacing_of_exchanged h Iff.rfl (fun _ => rfl) (fun x hx hx' => hd ⟨x, hx, hx'⟩)
      fun x hx hx' => hd' ⟨x, hx, hx'⟩

/-- The tokens of `arch\x7bpresentation: Web [ssl]\x7d` with some tokens for the two spaces. -/
def archTokens (behindColon behindName : Token) : Tokens :=
  [⟨.keyword .arch, .between 0 4⟩, ⟨.mark .leftBrace, .between 4 5⟩,
    ⟨.identifier "presentation", .between 5 17⟩, ⟨.mark .colon, .between 17 18⟩,
    ⟨behindColon, .between 18 19⟩, ⟨.identifier "Web", .between 19 22⟩,
    ⟨behindName, .between 22 23⟩, ⟨.mark .leftBracket, .between 23 24⟩,
    ⟨.identifier "ssl", .between 24 27⟩, ⟨.mark .rightBracket, .between 27 28⟩,
    ⟨.mark .rightBrace, .between 28 29⟩]

lemma exchanged_archTokens {a a' b b' : Token} (ha : a.isSpacing = true) (ha' : a'.isSpacing = true)
    (hb : b.isSpacing = true) (hb' : b'.isSpacing = true) :
    Exchanged (.outside 0) (archTokens a b) (archTokens a' b') :=
  .kept _ <| .kept _ <| .kept _ <| .kept _ <| .swapped nofun ha ha' <| .kept _ <|
    .swapped nofun hb hb' <| .kept _ <| .kept _ <| .kept _ <| .kept _ .nil

/-- Behind the colon a line end is white space, behind the name it detaches the bracket. -/
theorem reading_exchanged_arch :
    Exchanged (.outside 0) (archTokens .whitespace .whitespace) (archTokens .newline .whitespace) ∧
      (reading (archTokens .whitespace .whitespace)).isOk = true ∧
      reading (archTokens .newline .whitespace) = reading (archTokens .whitespace .whitespace) ∧
      reading (archTokens .whitespace .newline) = .error (some .unexpectedToken) := by
  have hcolon : Exchanged (.outside 0) (archTokens .whitespace .whitespace)
      (archTokens .newline .whitespace) := exchanged_archTokens rfl rfl rfl rfl
  have hname : Exchanged (.outside 0) (archTokens .whitespace .whitespace)
      (archTokens .whitespace .newline) := exchanged_archTokens rfl rfl rfl rfl
  exact ⟨hcolon, by decide +kernel, (reading_exchanged hcolon).1 (by decide),
    (reading_exchanged hname).2.2 (by decide)⟩

/-- A line end is not always white space where there is no use case, not even if places do not
count. -/
theorem reading_not_always_exchanged :
    ¬ ∀ ts ts', Exchanged (.outside 0) ts ts' →
      (reading ts').map unplaced = (reading ts).map unplaced := by
  intro h
  have hname := h (archTokens .whitespace .whitespace) (archTokens .whitespace .newline)
    (exchanged_archTokens rfl rfl rfl rfl)
  have hok : (reading (archTokens .whitespace .whitespace)).isOk = true := by decide +kernel
  have hrefused : reading (archTokens .whitespace .newline) = .error (some .unexpectedToken) :=
    reading_of_detached (by decide)
  rw [hrefused] at hname
  cases hread : reading (archTokens .whitespace .whitespace) with
  | ok ds => rw [hread] at hname; cases hname
  | error code => rw [hread] at hok; cases hok

end ArchLang
