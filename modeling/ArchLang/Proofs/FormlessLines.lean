import ArchLang.Assembly.Program
import ArchLang.Proofs.Concatenation
import ArchLang.Proofs.Failing
import ArchLang.Proofs.Lexemes
import ArchLang.Proofs.LineForms

/-!
# Lines without a form

The words of a trigger or an action are read first, with the end of their line, and looked at
afterwards.  Words that fit no form are rejected from the first of them on, but reading stands
behind the line by then, and the label of a failure covers the token at which reading stands.

**The line.**  `Formless before line what` — the words of a whole line fit no form.  Only such a
line makes a failure that names a form first, and the failure remembers the line (`Failure.Blames`).
Where an action line begins is known from the line before it (`AtLine`), so scenarios are looked at
loop by loop; the rest of the grammar keeps the property (`Failing`).

**The label.**  It covers what was seen since the line began (`primaryPlace_of_recalled`).  Behind
the line end that is one token more, which counts unless it is trivia.

* **`label_of_formless_line`** — where the label of such a failure begins and ends.
* **`label_not_always_of_line`** — a label that covers the closing brace on the next line.
-/

namespace ArchLang

open ArchLang.Parser ArchLang.Grammar

/-! ## Whole lines -/

/-- A line can begin behind these tokens: behind a line end, with nothing but trivia after it. -/
def Fresh (before : Tokens) : Prop :=
  ∃ b n g, before = b ++ n :: g ∧ n.value = .newline ∧ Blank g

/-- Behind the tokens `before`, the words of `line` are all words of a line and fit no form: behind
`when` no form of a trigger, from the beginning of a line on no form of an action. -/
inductive Formless : Tokens → Tokens → Expected → Prop where
  | trigger {before line : Tokens} {ws : List (Located Word)} {opening : Located Token} :
      opening.value = .keyword .when → WordsOf line ws → ws ≠ [] →
      triggerOf (ws.map (·.value)) = none → Formless (before ++ [opening]) line .triggerForm
  | action {before line : Tokens} {ws : List (Located Word)} : Fresh before → WordsOf line ws →
      ws ≠ [] → actionOf (ws.map (·.value)) = none → Formless before line .actionForm

/-- A failure that names a form was made behind a whole line without one, and remembers the line. -/
def Failure.Blames (whole : Tokens) (e : Failure) : Prop :=
  ∀ what, e.expected.head? = some what → what.isForm = true → e.committed = true ∧
    ∃ before line ending, whole = before ++ (line ++ (ending ++ e.rest)) ∧
      e.start? = some (line ++ (ending ++ e.rest)) ∧ EndsLine ending e.rest ∧
      Formless before line what

variable {whole : Tokens}

/-- On its way out such a failure is only given more labels, since it is committed and remembers a
place. -/
instance : Lasting whole (Failure.Blames whole) where
  opened _ := nofun
  labelled := by
    intro e what hwhat h what' hhead hform
    cases hexpected : e.expected with
    | nil =>
        simp only [hexpected, List.nil_append, List.head?_cons, Option.some.injEq] at hhead
        rw [hhead, hform] at hwhat
        cases hwhat
    | cons first more =>
        simp only [hexpected, List.cons_append, List.head?_cons] at hhead
        exact h what' (by rw [hexpected, List.head?_cons, hhead]) hform
  committed := by
    intro e s _ h what hhead hform
    obtain ⟨-, before, line, ending, hwhole, hstart, hline⟩ := h what hhead hform
    exact ⟨rfl, before, line, ending, hwhole, by rw [hstart, Option.some_or], hline⟩
  moved := by
    intro e s hopen h what hhead hform
    have hcommitted := (h what hhead hform).1
    rw [hopen] at hcommitted
    cases hcommitted
  rejected := by
    rintro start s what hwhat - _ ⟨⟩ hform
    rw [hwhat] at hform
    cases hform

/-! ## Scenarios -/

/-- Behind `before`, a line begins at `s`, or the body ends there. -/
def AtLine (before s : Tokens) : Prop := Fresh before ∨ untilBrace s = []

/-- Behind a line that was read begins the next one. -/
lemma atLine_of_words {s r : Tokens} {line : List (Located Word)} (h : words s = .done line r) :
    ∃ v, s = v ++ r ∧ ∀ before, AtLine (before ++ v) r := by
  obtain ⟨u, e, rfl, -, -, he⟩ := wordsOf_words h
  refine ⟨u ++ e, (List.append_assoc _ _ _).symm, fun before => ?_⟩
  cases he with
  | @newline n _ hn =>
      exact .inl ⟨before ++ u, n, [], (List.append_assoc _ _ _).symm, hn, blank_nil⟩
  | close hr => exact .inr hr

/-- Trivia do not change where lines begin. -/
lemma AtLine.dropWhile {before s : Tokens} (h : AtLine before s) :
    AtLine (before ++ s.takeWhile fun t => t.value.isTrivia)
      (s.dropWhile fun t => t.value.isTrivia) := by
  rcases h with ⟨b, n, g, rfl, hn, hg⟩ | h
  · exact .inl ⟨b, n, _, by simp, hn, blank_append.2 ⟨hg, blank_takeWhile s⟩⟩
  · refine .inr ?_
    cases s with
    | nil => rfl
    | cons t s =>
        have hbrace : t.value = .mark .rightBrace := by
          by_contra hne
          simp [untilBrace, hne] at h
        rw [dropWhile_trivia_cons (by rw [hbrace]; rfl), h]

/-- Where words are read the body does not end. -/
lemma fresh_of_words {before s r : Tokens} {line : List (Located Word)} (h : AtLine before s)
    (hline : words s = .done line r) : Fresh before := by
  refine h.resolve_right fun hend => ?_
  obtain ⟨u, e, rfl, hu, hne, -⟩ := wordsOf_words hline
  rw [untilBrace_append (hu.ne_mark .rightBrace), List.append_eq_nil_iff] at hend
  obtain ⟨rfl, -⟩ := hend
  exact hu.significant_ne_nil hne rfl

lemma classified_eq_failed {α : Type} {start s : Tokens} {what : Expected} {span : Span}
    {form : Option α} {e : Failure} (h : classified start what span form s = .failed e) :
    form = none ∧ e = ⟨true, [what], s, some start⟩ := by
  cases form with
  | some form => cases h
  | none =>
      cases h
      exact ⟨rfl, rfl⟩

lemma blames_trigger {before s : Tokens} {e : Failure} (hwhole : whole = before ++ s)
    (h : trigger s = .failed e) : e.Blames whole := by
  have hs : s <:+ whole := ⟨before, hwhole.symm⟩
  cases hwhen : keyword .when s with
  | failed e' =>
      rw [trigger, bind_of_failed _ hwhen] at h
      cases h
      exact Fails.holds hs hwhen
  | done start s' =>
      rw [trigger, bind_of_done _ hwhen] at h
      obtain ⟨opening, rfl, hopening⟩ := exactly_eq_done hwhen
      have hs' : s' <:+ whole := (List.suffix_cons opening s').trans hs
      cases hbody : (here >>= fun first => words >>= fun line => classified first .triggerForm
          (start.union (spanOf line)) (triggerOf (line.map (·.value)))) s' with
      | done t r =>
          rw [triggerBody, commit_done.2 hbody] at h
          cases h
      | failed e' =>
          rw [triggerBody, commit_of_failed hbody] at h
          cases h
          refine Lasting.committed hs' ?_
          rw [here_bind_apply] at hbody
          cases hline : words s' with
          | failed e'' =>
              rw [bind_of_failed _ hline] at hbody
              cases hbody
              exact Fails.holds hs' hline
          | done line r =>
              rw [bind_of_done _ hline] at hbody
              obtain ⟨hform, rfl⟩ := classified_eq_failed hbody
              obtain ⟨u, ending, rfl, hu, hne, hending⟩ := wordsOf_words hline
              rintro _ ⟨⟩ -
              exact ⟨rfl, before ++ [opening], u, ending, by simp [hwhole], rfl, hending,
                .trigger hopening hu hne hform⟩

lemma blames_action {before s : Tokens} {e : Failure} (hwhole : whole = before ++ s)
    (hat : AtLine before s) (h : action s = .failed e) : e.Blames whole := by
  have h : (words >>= fun line => classified s .actionForm (spanOf line)
      (actionOf (line.map (·.value)))) s = .failed e := h
  cases hline : words s with
  | failed e' =>
      rw [bind_of_failed _ hline] at h
      cases h
      exact Fails.holds ⟨before, hwhole.symm⟩ hline
  | done line r =>
      rw [bind_of_done _ hline] at h
      obtain ⟨hform, rfl⟩ := classified_eq_failed h
      have hfresh := fresh_of_words hat hline
      obtain ⟨u, ending, rfl, hu, hne, hending⟩ := wordsOf_words hline
      rintro _ ⟨⟩ -
      exact ⟨rfl, before, u, ending, hwhole, rfl, hending, .action hfresh hu hne hform⟩

/-- The loop over actions goes from line to line. -/
lemma blames_actions {before s : Tokens} {e : Failure} (hwhole : whole = before ++ s)
    (hat : AtLine before s) (h : manyUntil Token.isTrivia scenarioEnd action s = .failed e) :
    e.Blames whole := by
  have hsplit (before s : Tokens) : before ++ s = before ++ (s.takeWhile fun t => t.value.isTrivia)
      ++ s.dropWhile fun t => t.value.isTrivia := by
    rw [List.append_assoc, List.takeWhile_append_dropWhile]
  fun_induction manyUntil Token.isTrivia scenarioEnd action s generalizing before e with
  | case1 => cases h
  | case2 s e' hstop hc =>
      cases h
      exact Fails.holds ⟨_, (hwhole.trans (hsplit before s)).symm⟩ hstop
  | case3 s e' hstop hc e'' hi =>
      cases h
      exact blames_action (hwhole.trans (hsplit before s)) hat.dropWhile hi
  | case4 s e' hstop hc a r hi ih =>
      cases hm : manyUntil Token.isTrivia scenarioEnd action r with
      | done found r' => rw [hm] at h; cases h
      | failed e'' =>
          rw [hm] at h
          cases h
          obtain ⟨line, hline, -⟩ := action_eq_done hi
          obtain ⟨v, hv, hnext⟩ := atLine_of_words hline
          refine ih ?_ (hnext (before ++ s.takeWhile fun t => t.value.isTrivia)) hm
          rw [hwhole, hsplit before s, hv, List.append_assoc _ v r]

instance : Fails whole (Failure.Blames whole) scenario := by
  refine ⟨fun {s e} hs he => ?_⟩
  obtain ⟨before, hwhole⟩ := hs
  cases hopening : trigger s with
  | failed e' =>
      rw [scenario, bind_of_failed _ hopening] at he
      cases he
      exact blames_trigger hwhole.symm hopening
  | done t r =>
      rw [scenario, bind_of_done _ hopening] at he
      cases hbelow : manyUntil Token.isTrivia scenarioEnd action r with
      | done found r' =>
          rw [bind_of_done _ hbelow] at he
          cases he
      | failed e' =>
          rw [bind_of_failed _ hbelow] at he
          cases he
          obtain ⟨opening, s', line, rfl, -, hline, -⟩ := trigger_eq_done hopening
          obtain ⟨v, rfl, hnext⟩ := atLine_of_words hline
          have hwhole : whole = before ++ [opening] ++ v ++ r := by simp [← hwhole]
          exact blames_actions hwhole (hnext _) hbelow

/-! ## Tokens in order -/

lemma pairwise_of_tiles {start stop : ℕ} {spans : List Span} (h : Tiles start spans stop) :
    spans.Pairwise (fun s s' => s.stop ≤ s'.start) ∧
      ∀ s ∈ spans, start ≤ s.start ∧ s.start < s.stop := by
  induction spans generalizing start with
  | nil => exact ⟨.nil, nofun⟩
  | cons s spans ih =>
      obtain ⟨rfl, hlt, htiles⟩ := h
      obtain ⟨hpairwise, hmem⟩ := ih htiles
      refine ⟨List.pairwise_cons.2 ⟨fun s' hs' => (hmem s' hs').1, hpairwise⟩, ?_⟩
      rw [List.forall_mem_cons]
      exact ⟨⟨Nat.le_refl _, hlt⟩, fun s' hs' => ⟨hlt.le.trans (hmem s' hs').1, (hmem s' hs').2⟩⟩

/-- Each token ends before the next one begins. -/
def InOrder (s : Tokens) : Prop := s.Pairwise fun t t' => t.span.stop ≤ t'.span.start

lemma inOrder_of_tokensOf {source : String} {ts : Tokens} (h : tokensOf source = .ok ts) :
    InOrder ts ∧ ∀ t ∈ ts, t.span.start < t.span.stop := by
  obtain ⟨hpairwise, hmem⟩ := pairwise_of_tiles (tokensOf_eq_ok_iff.1 h).tiles
  exact ⟨List.pairwise_map.1 hpairwise, fun t ht => (hmem _ (List.mem_map_of_mem ht)).2⟩

/-- Over tokens in order the extent begins with the first that counts and ends with the last. -/
lemma extent?_of_inOrder {s : Tokens} (hs : InOrder s) {first last : Located Token}
    (hfirst : (s.filter fun t => !t.value.isTrivia).head? = some first)
    (hlast : (s.filter fun t => !t.value.isTrivia).getLast? = some last) :
    extent? s = some (.between first.span.start last.span.stop) := by
  have hwords : InOrder (s.filter fun t => !t.value.isTrivia) := hs.sublist List.filter_sublist
  cases hfilter : s.filter fun t => !t.value.isTrivia with
  | nil => rw [hfilter] at hfirst; cases hfirst
  | cons t more =>
      rw [hfilter] at hfirst hlast hwords
      obtain rfl : t = first := Option.some.inj hfirst
      have hlast' : more.getLastD t = last := by
        rw [List.getLastD_eq_getLast?]
        exact Option.some.inj (List.getLast?_cons.symm.trans hlast)
      have hspans : t.span.start ≤ last.span.start ∧ t.span.stop ≤ last.span.stop := by
        rcases List.mem_cons.1 (List.mem_of_getLast? hlast) with rfl | hmem
        · exact ⟨Nat.le_refl _, Nat.le_refl _⟩
        · have hle := (List.pairwise_cons.1 hwords).1 last hmem
          exact ⟨t.span.start_le_stop.trans hle, hle.trans last.span.start_le_stop⟩
      rw [extent?, hfilter]
      simp only [hlast', Span.union, Span.between, Option.some.injEq, Span.mk.injEq]
      have := last.span.start_le_stop
      omega

/-! ## The label of a rejected line -/

/-- A failure that remembers tokens is labelled with those of them that were seen. -/
lemma primaryPlace_of_recalled {f : Failure} {start : Tokens} (hstart : f.start? = some start)
    (hrest : f.rest <:+ start) (hseen : ¬ Blank (f.seen start)) (ts : Tokens) :
    (f.diagnostic ts).primaryPlace = extent? (f.seen start) := by
  obtain ⟨span, hspan⟩ := extent?_of_not_blank hseen
  by_cases hblank : Blank f.rest
  · rw [Failure.seen, if_pos hblank] at hspan ⊢
    rw [Failure.diagnostic_of_blank hblank, Failure.incomplete, hstart, Option.getD_some, hspan]
    rfl
  · obtain ⟨found, hfound⟩ := Failure.diagnostic_of_not_blank hblank
    have hexamined : extent? (examined (f.start?.getD ts) f.rest) = some span := by
      rw [hstart, Option.getD_some, examined_eq_take hrest, ← hspan, Failure.seen, if_neg hblank]
    rw [hfound, Failure.unexpected, Failure.unexpectedSpan, hexamined, hspan]
    simp only [Option.getD_some]
    split <;> rfl

/-- Of a line and what stands behind it, the words were seen and one token behind the line end. -/
lemma filter_seen {f : Failure} {line ending : Tokens} (hending : EndsLine ending f.rest) :
    ((f.seen (line ++ (ending ++ f.rest))).filter fun t => !t.value.isTrivia) =
      (line ++ f.rest.take 1).filter fun t => !t.value.isTrivia := by
  have hnone := filter_of_blank hending.blank
  by_cases hblank : Blank f.rest
  · have htake : Blank (f.rest.take 1) := fun t ht => hblank t (List.mem_of_mem_take ht)
    rw [Failure.seen, if_pos hblank, List.filter_append, List.filter_append, hnone,
      filter_of_blank hblank, List.filter_append, filter_of_blank htake, List.append_nil]
  · have hlength : (line ++ ending ++ f.rest).length - f.rest.length + 1 =
        (line ++ ending).length + 1 := by
      rw [List.length_append, Nat.add_sub_cancel]
    rw [Failure.seen, if_neg hblank, ← List.append_assoc, hlength, List.take_length_add_append,
      List.filter_append, List.filter_append, hnone, List.append_nil, List.filter_append]

lemma Formless.exists_words {before line : Tokens} {what : Expected}
    (h : Formless before line what) :
    ∃ ws, WordsOf line ws ∧ ws ≠ [] := by
  cases h with
  | trigger _ hline hne => exact ⟨_, hline, hne⟩
  | action _ hline hne => exact ⟨_, hline, hne⟩

/-- The words of a line are not none, so there is a first one and a last one. -/
lemma WordsOf.exists_first_last {line : Tokens} {ws : List (Located Word)} (h : WordsOf line ws)
    (hne : ws ≠ []) : ∃ first last,
      (line.filter fun t => !t.value.isTrivia).head? = some first ∧
      (line.filter fun t => !t.value.isTrivia).getLast? = some last := by
  have hfilter : (line.filter fun t => !t.value.isTrivia) ≠ [] := by
    intro hnil
    have hwords := h.words
    rw [hnil, List.forall₂_nil_left_iff] at hwords
    exact hne hwords
  exact ⟨_, _, List.head?_eq_some_head hfilter, List.getLast?_eq_some_getLast hfilter⟩

/-- One token more ends the extent, if it counts. -/
lemma extent?_append_take {line rest : Tokens} {first last : Located Token}
    (hfirst : (line.filter fun t => !t.value.isTrivia).head? = some first)
    (hlast : (line.filter fun t => !t.value.isTrivia).getLast? = some last)
    (hinOrder : InOrder (line ++ rest.take 1))
    (hnonempty : ∀ t ∈ rest, t.span.start < t.span.stop) :
    ∃ stop, extent? (line ++ rest.take 1) = some (.between first.span.start stop) ∧
      ((∀ t ∈ rest.head?, t.value.isTrivia = true) → stop = last.span.stop) ∧
      ∀ t ∈ rest.head?, t.value.isTrivia = false →
        stop = t.span.stop ∧ last.span.stop < t.span.stop := by
  by_cases hblank : Blank (rest.take 1)
  · have hfilter : ((line ++ rest.take 1).filter fun t => !t.value.isTrivia) =
        line.filter fun t => !t.value.isTrivia := by
      rw [List.filter_append, filter_of_blank hblank, List.append_nil]
    rw [← hfilter] at hfirst hlast
    refine ⟨_, extent?_of_inOrder hinOrder hfirst hlast, fun _ => rfl, fun t ht hcounts => ?_⟩
    have hmem : t ∈ rest.take 1 := by
      obtain ⟨rest, rfl⟩ := List.head?_eq_some_iff.1 ht
      exact List.mem_cons_self
    rw [hblank t hmem] at hcounts
    cases hcounts
  · cases rest with
    | nil => exact absurd blank_nil hblank
    | cons t rest =>
        have hcounts : t.value.isTrivia = false := by simpa [Blank] using hblank
        have hfilter : ((line ++ (t :: rest).take 1).filter fun t => !t.value.isTrivia) =
            (line.filter fun t => !t.value.isTrivia) ++ [t] := by
          rw [List.filter_append]
          simp [hcounts]
        have hextent : extent? (line ++ (t :: rest).take 1) =
            some (.between first.span.start t.span.stop) :=
          extent?_of_inOrder hinOrder (by rw [hfilter, List.head?_append, hfirst, Option.some_or])
            (by rw [hfilter, List.getLast?_concat])
        have hlt : last.span.stop < t.span.stop := by
          have hmem := List.mem_of_mem_filter (List.mem_of_getLast? hlast)
          have hle := (List.pairwise_append.1 hinOrder).2.2 last hmem t (by simp)
          exact hle.trans_lt (hnonempty t List.mem_cons_self)
        refine ⟨_, hextent, fun htrivia => ?_, ?_⟩
        · rw [htrivia t rfl] at hcounts
          cases hcounts
        · rintro _ ⟨⟩ -
          exact ⟨rfl, hlt⟩

/-- **A rejected line.**  When the words of a trigger or an action were read completely and fit no
form, the primary label begins with the first word of that line.  It ends with the last one if the
first token behind the line end is trivia, or if there is none; otherwise it ends with that token,
which no longer belongs to the line. -/
theorem label_of_formless_line {source : String} {ts : Tokens} {f : Failure} {what : Expected}
    (htokens : tokensOf source = .ok ts) (hfailed : declarations ts = .failed f)
    (hhead : f.expected.head? = some what) (hform : what.isForm = true) :
    declarationsOf source = .error ⟨[f.diagnostic ts]⟩ ∧
    ∃ before line ending first last stop,
      ts = before ++ (line ++ (ending ++ f.rest)) ∧ Formless before line what ∧
      EndsLine ending f.rest ∧
      (line.filter fun t => !t.value.isTrivia).head? = some first ∧
      (line.filter fun t => !t.value.isTrivia).getLast? = some last ∧
      (f.diagnostic ts).primaryPlace = some (.between first.span.start stop) ∧
      ((∀ t ∈ f.rest.head?, t.value.isTrivia = true) → stop = last.span.stop) ∧
      ∀ t ∈ f.rest.head?, t.value.isTrivia = false →
        stop = t.span.stop ∧ last.span.stop < t.span.stop := by
  have hblames : f.Blames ts := holds_of_failed hfailed
  obtain ⟨-, before, line, ending, hts, hstart, hending, hformless⟩ := hblames what hhead hform
  refine ⟨by simp only [declarationsOf, htokens, declarationsOfTokens, hfailed], ?_⟩
  obtain ⟨ws, hline, hne⟩ := hformless.exists_words
  obtain ⟨first, last, hfirst, hlast⟩ := hline.exists_first_last hne
  obtain ⟨hinOrder, hnonempty⟩ := inOrder_of_tokensOf htokens
  have hsublist : (line ++ f.rest.take 1).Sublist ts := by
    rw [hts]
    exact ((List.Sublist.refl line).append
      ((List.take_sublist 1 f.rest).trans (List.sublist_append_right ending f.rest))).trans
        (List.sublist_append_right before _)
  have hrest : ∀ t ∈ f.rest, t ∈ ts := fun t ht => by simp [hts, ht]
  obtain ⟨stop, hextent, hstop⟩ := extent?_append_take hfirst hlast (hinOrder.sublist hsublist)
    fun t ht => hnonempty t (hrest t ht)
  refine ⟨before, line, ending, first, last, stop, hts, hformless, hending, hfirst, hlast, ?_,
    hstop⟩
  have hsame : extent? (f.seen (line ++ (ending ++ f.rest))) = extent? (line ++ f.rest.take 1) := by
    rw [extent?, filter_seen hending, extent?]
  rw [primaryPlace_of_recalled hstart ?_ ?_, hsame, hextent]
  · exact (List.suffix_append ending f.rest).trans (List.suffix_append line _)
  · intro hblank
    rw [extent?_of_blank hblank, hextent] at hsame
    cases hsame

/-- The failure of a reading, if it failed. -/
def Outcome.failure? {α : Type} : Outcome α → Option Failure
  | .done .. => none
  | .failed f => some f

/-- A notification without quotes, and an action on the next line. -/
def bareEvent : String :=
  "use_case X \x7b\n  when U acts\n    A notifies E\n    B rests\n\x7d"

/-- The label covers the notification and nothing behind it. -/
theorem label_of_formless_line_bareEvent :
    ∃ ts f before line ending last, tokensOf bareEvent = .ok ts ∧ declarations ts = .failed f ∧
      ts = before ++ (line ++ (ending ++ f.rest)) ∧ Formless before line .actionForm ∧
      (line.filter fun t => !t.value.isTrivia).getLast? = some last ∧ last.span.stop = 43 ∧
      (f.diagnostic ts).primaryPlace = some (.between 31 43) := by
  have hread : ((tokensOf bareEvent).toOption.bind fun ts => (declarations ts).failure?.map fun f =>
      (f.expected.head?, f.rest.head?.all fun t => t.value.isTrivia,
        (f.diagnostic ts).primaryPlace))
      = some (some .actionForm, true, some (.between 31 43)) := by decide +kernel
  cases htokens : tokensOf bareEvent with
  | error e => rw [htokens] at hread; cases hread
  | ok ts =>
      rw [htokens, Except.toOption, Option.bind_some] at hread
      cases hfailed : declarations ts with
      | done ds r => rw [hfailed] at hread; cases hread
      | failed f =>
          rw [hfailed, Outcome.failure?, Option.map_some, Option.some.injEq] at hread
          simp only [Prod.mk.injEq] at hread
          obtain ⟨hhead, htrivia, hplace⟩ := hread
          obtain ⟨-, before, line, ending, first, last, stop, hts, hformless, -, -, hlast, hlabel,
            hstop, -⟩ := label_of_formless_line htokens hfailed hhead rfl
          have hend : stop = last.span.stop := hstop fun t ht => by
            simpa [Option.mem_def.1 ht] using htrivia
          have hstops := congrArg (·.map Span.stop) (hlabel.symm.trans hplace)
          have hstarts := congrArg (·.map Span.start) (hlabel.symm.trans hplace)
          simp only [Option.map_some, Option.some.injEq, Span.between] at hstarts hstops
          exact ⟨ts, f, before, line, ending, last, rfl, hfailed, hts, hformless, hlast, by omega,
            hplace⟩

lemma exists_stop_of_extent? {s : Tokens} {span : Span} (h : extent? s = some span) :
    ∃ t ∈ s, t.span.stop = span.stop := by
  obtain ⟨t, ht, t', ht', rfl⟩ := exists_union_of_extent? h
  rcases Nat.le_total t'.span.stop t.span.stop with hle | hle
  · exact ⟨t, ht, (Nat.max_eq_left hle).symm⟩
  · exact ⟨t', ht', (Nat.max_eq_right hle).symm⟩

/-- Where the next line begins with its first token, the label reaches into it: a label does not
always cover words of one line. -/
theorem label_not_always_of_line :
    ¬ ∀ source ts f what, tokensOf source = .ok ts → declarations ts = .failed f →
      f.expected.head? = some what → what.isForm = true →
      ∃ line ws, line ⊆ ts ∧ WordsOf line ws ∧ (f.diagnostic ts).primaryPlace = extent? line := by
  intro hall
  have hread : ((tokensOf "use_case X \x7b\n  when U acts\n    A notifies E\n\x7d").toOption.bind
      fun ts => (declarations ts).failure?.map fun f =>
        (ts.all fun t => t.span.stop ≠ 45 ∨ t.value = .mark .rightBrace, f.expected.head?,
          (f.diagnostic ts).primaryPlace))
      = some (true, some .actionForm, some (.between 31 45)) := by decide +kernel
  cases htokens : tokensOf "use_case X \x7b\n  when U acts\n    A notifies E\n\x7d" with
  | error e => rw [htokens] at hread; cases hread
  | ok ts =>
      rw [htokens, Except.toOption, Option.bind_some] at hread
      cases hfailed : declarations ts with
      | done ds r => rw [hfailed] at hread; cases hread
      | failed f =>
          rw [hfailed, Outcome.failure?, Option.map_some, Option.some.injEq] at hread
          simp only [Prod.mk.injEq] at hread
          obtain ⟨hbrace, hhead, hplace⟩ := hread
          obtain ⟨line, ws, hline, hwords, hlabel⟩ := hall _ ts f _ htokens hfailed hhead rfl
          obtain ⟨t, ht, hstop⟩ := exists_stop_of_extent? (hlabel.symm.trans hplace)
          have hvalue := List.all_eq_true.1 hbrace t (hline ht)
          rw [decide_eq_true_eq] at hvalue
          exact hwords.ne_mark .rightBrace t ht (hvalue.resolve_left fun hne => hne hstop)

end ArchLang
