import ArchLang.Proofs.Enclosing
import ArchLang.Proofs.Listing

/-!
# The spans of lines

The lines of a use case, in the source.  A line is read as words and an end, and its span encloses
the words; here it is shown that no line feed stands in that span, and that one stands between a
line and the next.

* `newline_mem_lexeme_iff` — a token is spelled with a line feed exactly if it is a line end.
* `exists_cut` — so what the tokens of a piece say about line ends holds of the piece of source.
* `Lines s spans r` — from `s` to `r` stand lines that these spans enclose, each closed by a line
  end or by the end of the body.  It goes along a scenario and a use case as `Reads` does
  (`Proofs.LineForms`).
* `LineBetween source s s'` — the source holds a line feed behind the one span and in front of the
  other.
* **`Lines.separated`** — no line feed inside of a line, and one between a line and the next.
-/

namespace ArchLang

open ArchLang.Parser ArchLang.Grammar

/-! ## Line feeds -/

lemma Decodes.newline_notMem {body text : List Char} (h : Decodes body text) : '\n' ∉ body := by
  induction h with
  | nil => exact List.not_mem_nil
  | plain hc _ ih =>
      rw [List.mem_cons, not_or]
      exact ⟨fun hnl => hc (by simp [← hnl]), ih⟩
  | escape hc _ ih =>
      simp only [List.mem_cons, not_or]
      refine ⟨by decide, fun hnl => ?_, ih⟩
      rw [← hnl] at hc
      simp [escapes] at hc

/-- Line ends are the tokens with a line feed. -/
lemma newline_mem_lexeme_iff {c : Char} {cs lexeme rest : List Char} {t : Token}
    (h : scan c cs = .token t lexeme rest) : '\n' ∈ lexeme ↔ t = .newline := by
  have hplain {text : String} (hword : wordOf t = some (.plain text)) : '\n' ∉ lexeme :=
    fun hmem => absurd (plain_of_scan h hword _ hmem) (by decide)
  cases spelled_of_scan h with
  | keyword | identifier | number | percentage => exact iff_of_false (hplain rfl) nofun
  | mark m => exact iff_of_false (by cases m <;> decide) nofun
  | lineComment _ hfree => exact iff_of_false (by simp [hfree]) nofun
  | stringLiteral hdecodes => exact iff_of_false (by simp [hdecodes.newline_notMem]) nofun
  | newline => exact iff_of_true List.mem_cons_self rfl
  | whitespace _ hblanks => exact iff_of_false (fun hmem => (hblanks _ hmem).2 rfl) nofun

namespace Lexed

variable {offset : ℕ} {cs : List Char} {u v : Tokens}

/-- Some tokens take a piece of the text, and their line ends are its line feeds. -/
lemma exists_piece (h : Lexed offset cs (u ++ v)) : ∃ piece rest, cs = piece ++ rest ∧
    Tiles offset (u.map (·.span)) (offset + byteLength piece) ∧
    ('\n' ∈ piece ↔ ∃ t ∈ u, t.value = .newline) ∧ Lexed (offset + byteLength piece) rest v := by
  induction u generalizing offset cs with
  | nil => exact ⟨[], cs, rfl, rfl, by simp, h⟩
  | cons t u ih =>
      cases h with
      | @cons _ c cs lexeme rest t' _ hscan hrest =>
          obtain ⟨piece, rest', rfl, htiles, hfeeds, hrest'⟩ := ih hrest
          rw [Nat.add_assoc, ← byteLength_append] at htiles hrest'
          have hpos := byteLength_pos (lexeme_ne_nil hscan)
          refine ⟨lexeme ++ piece, rest', ?_, ?_, ?_, hrest'⟩
          · rw [text_of_scan hscan, List.append_assoc]
          · rw [List.map_cons, Span.between_of_le (Nat.le_add_right _ _)]
            exact ⟨rfl, Nat.lt_add_of_pos_right hpos, htiles⟩
          · rw [List.mem_append, newline_mem_lexeme_iff hscan, hfeeds]
            simp

end Lexed

/-- Spans that tile begin where the first begins and end where the last ends. -/
lemma ends_of_tiles {start stop : ℕ} {spans : List Span} (h : Tiles start spans stop) :
    (∀ s ∈ spans.head?, s.start = start) ∧ ∀ s ∈ spans.getLast?, s.stop = stop := by
  induction spans generalizing start with
  | nil => exact ⟨nofun, nofun⟩
  | cons s spans ih =>
      obtain ⟨hstart, -, htiles⟩ := h
      refine ⟨fun s' hs' => ?_, fun s' hs' => ?_⟩
      · cases hs'
        exact hstart
      · cases spans with
        | nil =>
            cases hs'
            exact htiles
        | cons => exact (ih htiles).2 s' hs'

/-- A piece of a source that is cut out between tokens holds a line feed exactly if one of its
tokens is a line end. -/
lemma exists_cut {source : String} {a b c : Tokens} (h : tokensOf source = .ok (a ++ (b ++ c))) :
    ∃ i j, (∀ t ∈ a.getLast?, t.span.stop = i) ∧ (∀ t ∈ b.head?, t.span.start = i) ∧
      (∀ t ∈ b.getLast?, t.span.stop = j) ∧ (∀ t ∈ c.head?, t.span.start = j) ∧
      ('\n' ∈ ((Span.between i j).slice source).toList ↔ ∃ t ∈ b, t.value = .newline) := by
  obtain ⟨before, rest, hsource, hbefore, -, hrest⟩ := (tokensOf_eq_ok_iff.1 h).exists_piece
  rw [Nat.zero_add] at hbefore hrest
  obtain ⟨piece, behind, rfl, hpiece, hfeeds, hbehind⟩ := hrest.exists_piece
  have hslice : (Span.between (byteLength before) (byteLength before + byteLength piece)).slice
      source = String.ofList piece := by
    rw [← String.ofList_toList (s := source), hsource, ← List.append_assoc]
    exact slice_between before piece behind
  obtain ⟨-, hi⟩ := ends_of_tiles hbefore
  obtain ⟨hi', hj⟩ := ends_of_tiles hpiece
  obtain ⟨hj', -⟩ := ends_of_tiles hbehind.tiles
  simp only [List.getLast?_map, List.head?_map, Option.mem_def, Option.map_eq_some_iff,
    forall_exists_index, and_imp, forall_apply_eq_imp_iff₂] at hi hi' hj hj'
  refine ⟨_, _, hi, hi', hj, hj', ?_⟩
  rw [hslice, String.toList_ofList, hfeeds]

/-! ## The span of a line -/

/-- Some tokens without the trivia in front of them and behind them. -/
lemma exists_core {u : Tokens} (hu : ¬ Blank u) : ∃ g v g' first last, u = g ++ (v ++ g') ∧
    Blank g ∧ Blank g' ∧ v.head? = some first ∧ first.value.isTrivia = false ∧
    v.getLast? = some last ∧ last.value.isTrivia = false := by
  obtain ⟨g, first, w, rfl, hg, hfirst⟩ := (exists_blank_append u).resolve_left hu
  -- the last token that counts is the first one that counts from behind
  have hreverse : ¬ Blank (first :: w).reverse := fun h =>
    not_blank_cons hfirst w fun t ht => h t (List.mem_reverse.2 ht)
  obtain ⟨g', last, v, hv, hg', hlast⟩ := (exists_blank_append _).resolve_left hreverse
  have hcore : first :: w = (v.reverse ++ [last]) ++ g'.reverse := by
    rw [← List.reverse_reverse (first :: w), hv]
    simp
  refine ⟨g, v.reverse ++ [last], g'.reverse, first, last, by rw [hcore], hg,
    fun t ht => hg' t (List.mem_reverse.1 ht), ?_, hfirst, List.getLast?_concat, hlast⟩
  have hhead := congrArg List.head? hcore
  rw [List.head?_append_of_ne_nil _ (by simp)] at hhead
  exact hhead.symm

/-- The union of spans in order begins with the first and ends with the last. -/
lemma foldl_union_of_inOrder {t last : Located Token} {u : Tokens} {span : Span}
    (hspan : span.stop = t.span.stop) (hu : InOrder (t :: u))
    (hlast : (t :: u).getLast? = some last) :
    ((u.map (·.span)).foldl Span.union span).start = span.start ∧
      ((u.map (·.span)).foldl Span.union span).stop = last.span.stop := by
  induction u generalizing t span with
  | nil =>
      cases hlast
      exact ⟨rfl, hspan⟩
  | cons t' u ih =>
      obtain ⟨hle, hu⟩ := List.pairwise_cons.1 hu
      have hle := hle t' List.mem_cons_self
      have ht' := t'.span.start_le_stop
      have hstart := span.start_le_stop
      have hunion : (span.union t'.span).stop = t'.span.stop := by
        rw [Span.union_stop]
        omega
      rw [List.getLast?_cons_cons] at hlast
      obtain ⟨hfirst, hstop⟩ := ih hunion hu hlast
      refine ⟨?_, hstop⟩
      rw [List.map_cons, List.foldl_cons, hfirst, Span.union_start]
      omega

/-- The words of a line are enclosed by the span of the line. -/
lemma WordsOf.exists_enclosed {u : Tokens} {line : List (Located Word)} (h : WordsOf u line)
    (hline : line ≠ []) : ∃ g v g', u = g ++ (v ++ g') ∧ Blank g ∧ Blank g' ∧
      (InOrder v → Encloses v (spanOf line)) := by
  have hu : ¬ Blank u := fun hblank =>
    h.significant_ne_nil hline (by rw [significant, filter_of_blank hblank, List.map_nil])
  obtain ⟨g, v, g', first, last, rfl, hg, hg', hfirst, hfirstCounts, hlast, hlastCounts⟩ :=
    exists_core hu
  -- the words are united one by one, while `v` is known by its two ends
  refine ⟨g, v, g', rfl, hg, hg', fun hinOrder => ?_⟩
  have hwords := h.words
  rw [List.filter_append, List.filter_append, filter_of_blank hg, filter_of_blank hg',
    List.nil_append, List.append_nil] at hwords
  have hspans : line.map (·.span) = (v.filter fun t => !t.value.isTrivia).map (·.span) := by
    have hspans := hwords.imp (S := fun t w => w.span = t.span) fun _ _ h => h.2
    rw [← List.forall₂_eq_eq_eq, List.forall₂_map_left_iff, List.forall₂_map_right_iff]
    exact hspans.flip
  obtain ⟨w, rfl⟩ := List.head?_eq_some_iff.1 hfirst
  have hfilter : ((first :: w).filter fun t => !t.value.isTrivia) =
      first :: w.filter fun t => !t.value.isTrivia :=
    List.filter_cons_of_pos (by simp [hfirstCounts])
  have hlast' : (first :: w.filter fun t => !t.value.isTrivia).getLast? = some last := by
    obtain ⟨w', hw'⟩ := List.getLast?_eq_some_iff.1 hlast
    rw [← hfilter, hw', List.filter_append, List.filter_cons_of_pos (by simp [hlastCounts]),
      List.filter_nil, List.getLast?_concat]
  have hcounted : InOrder (first :: w.filter fun t => !t.value.isTrivia) :=
    hinOrder.sublist (List.filter_sublist.cons_cons first)
  obtain ⟨hstart, hstop⟩ := foldl_union_of_inOrder rfl hcounted hlast'
  rw [spanOf, hspans, hfilter, List.map_cons, Span.unionAll?, Option.getD_some]
  exact ⟨⟨first, rfl, hfirstCounts, hstart.symm⟩, ⟨last, hlast, hlastCounts, hstop.symm⟩⟩

/-! ## Line after line -/

/-- No token of the line ends it or the body. -/
def OnLine (u : Tokens) : Prop := ∀ t ∈ u, t.value ≠ .newline ∧ t.value ≠ .mark .rightBrace

/-- From `s` to `r` stand lines that these spans enclose, with nothing but trivia between them.  A
line is closed by a line end or by the end of the body. -/
inductive Lines : Tokens → List Span → Tokens → Prop where
  | nil (s : Tokens) : Lines s [] s
  | blank {g s r : Tokens} {spans : List Span} : Blank g → Lines s spans r →
      Lines (g ++ s) spans r
  | line {u g e s r : Tokens} {span : Span} {spans : List Span} : OnLine u →
      (InOrder u → Encloses u span) → Blank g → EndsLine e s → Lines s spans r →
      Lines (u ++ (g ++ (e ++ s))) (span :: spans) r

lemma Lines.trans {s s' r : Tokens} {spans spans' : List Span} (h : Lines s spans s')
    (h' : Lines s' spans' r) : Lines s (spans ++ spans') r := by
  induction h with
  | nil => exact h'
  | blank hg _ ih => exact .blank hg (ih h')
  | line hu hencloses hg he _ ih => exact .line hu hencloses hg he (ih h')

lemma lines_trigger {s r : Tokens} {t : Located (Trigger (List String))}
    (h : trigger s = .done t r) : Lines s [t.span] r := by
  obtain ⟨opening, s', line, rfl, hopening, hline, -, hspan⟩ := trigger_eq_done h
  obtain ⟨u, e, rfl, hu, hne, he⟩ := wordsOf_words hline
  have honLine : OnLine (opening :: u) := List.forall_mem_cons.2
    ⟨by simp [hopening], fun t ht => ⟨hu.ne_newline t ht, hu.ne_mark .rightBrace t ht⟩⟩
  obtain ⟨g, v, g', rfl, hg, hg', hencloses⟩ := hu.exists_enclosed hne
  rw [hspan]
  have hlines : Lines ((opening :: (g ++ v)) ++ (g' ++ (e ++ r)))
      [opening.span.union (spanOf line)] r := by
    refine .line (fun t ht => honLine t ?_) (fun hinOrder => ?_) hg' he (.nil r)
    · simp only [List.mem_cons, List.mem_append] at ht ⊢
      tauto
    · have hall : InOrder ([opening] ++ (g ++ v)) := hinOrder
      have hcounts : opening.value.isTrivia = false := by rw [hopening]; rfl
      exact (encloses_singleton hcounts).union (hencloses hall.right.right) hall
  simpa using hlines

lemma lines_action {s r : Tokens} {a : Located (Action (List String))}
    (h : action s = .done a r) : Lines s [a.span] r := by
  obtain ⟨line, hline, -, hspan⟩ := action_eq_done h
  obtain ⟨u, e, rfl, hu, hne, he⟩ := wordsOf_words hline
  have honLine : OnLine u := fun t ht => ⟨hu.ne_newline t ht, hu.ne_mark .rightBrace t ht⟩
  obtain ⟨g, v, g', rfl, hg, hg', hencloses⟩ := hu.exists_enclosed hne
  rw [hspan, List.append_assoc, List.append_assoc]
  refine .blank hg (.line (fun t ht => honLine t ?_) hencloses hg' he (.nil r))
  simp only [List.mem_append]
  tauto

/-- A loop reads the lines of its items, up to where it stops. -/
lemma lines_manyUntil {α β : Type} {stop : Parser β} {item : Parser α} [Consumes item]
    {spans : α → List Span} (hitem : ∀ {s a r}, item s = .done a r → Lines s (spans a) r)
    {s r : Tokens} {found : List α × β}
    (h : manyUntil Token.isTrivia stop item s = .done found r) :
    ∃ s' b, Lines s (found.1.flatMap spans) s' ∧ stop s' = .done b r := by
  refine manyUntil_induction item stop (motive := fun s as =>
    ∃ s' b, Lines s (as.flatMap spans) s' ∧ stop s' = .done b r) h ?blank ?done ?turn
  case blank =>
    rintro g s as hg ⟨s', b, hlines, hstop⟩
    exact ⟨s', b, .blank hg hlines, hstop⟩
  case done => exact fun hstop => ⟨_, _, .nil _, hstop⟩
  case turn =>
    rintro y w e a r' as - - ha ⟨s', b, hlines, hstop⟩
    exact ⟨s', b, (hitem ha).trans hlines, hstop⟩

/-- The spans of a trigger and the actions below it. -/
def ScenarioDecl.lineSpans (d : ScenarioDecl) : List Span :=
  d.trigger.span :: d.actions.map (·.span)

/-- The spans of the triggers and actions of a use case, in order. -/
def UseCaseDecl.lineSpans (d : UseCaseDecl) : List Span :=
  d.scenarios.flatMap ScenarioDecl.lineSpans

lemma lines_scenario {s r : Tokens} {d : ScenarioDecl} (h : scenario s = .done d r) :
    Lines s d.lineSpans r := by
  obtain ⟨opening, s', below, hopening, hbelow, rfl⟩ := scenario_eq_done h
  obtain ⟨s₁, b, hlines, hstop⟩ := lines_manyUntil lines_action hbelow
  obtain ⟨rfl, -⟩ := lookahead_eq_done hstop
  rw [← List.map_eq_flatMap] at hlines
  exact (lines_trigger hopening).trans hlines

/-- The lines of a use case stand between its heading and what is left behind it. -/
lemma lines_useCaseBody {start : Span} {s r : Tokens} {d : Located Declaration}
    (h : useCaseBody start s = .done d r) : ∃ u s₁ s₂, d.value = .useCase u ∧ s₁ <:+ s ∧
      Lines s₁ u.lineSpans s₂ ∧ r <:+ s₂ := by
  obtain ⟨s₁, name, s₂, s₃, body, hgap1, hname, hgap, hbody, rfl⟩ := useCaseBody_eq_done h
  obtain ⟨opening, s₄, found, hopening, hfound, rfl⟩ := block_eq_done hbody
  obtain ⟨s', b, hlines, hstop⟩ := lines_manyUntil lines_scenario hfound
  exact ⟨_, s₄, s', rfl, (suffix_of_done hopening).trans ((suffix_of_done hgap).trans
    ((suffix_of_done hname).trans (suffix_of_done hgap1))), hlines, suffix_of_done hstop⟩

lemma lines_declaration {s r : Tokens} {d : Located Declaration}
    (h : declaration s = .done d r) : ∀ u ∈ d.value.useCaseDecls, ∃ s₁ s₂, s₁ <:+ s ∧
      Lines s₁ u.lineSpans s₂ ∧ r <:+ s₂ := by
  obtain ⟨t, k, s', rfl, -, hk, hbody⟩ := declaration_eq_done h
  by_cases huse : k = .useCase
  · subst huse
    obtain ⟨u, s₁, s₂, hu, hs₁, hlines, hr⟩ := lines_useCaseBody hbody
    rw [hu]
    exact List.forall_mem_singleton.2
      ⟨s₁, s₂, hs₁.trans (List.suffix_cons t s'), hlines, hr⟩
  · rw [useCaseDecls_of_declarationBody hbody hk huse]
    exact List.forall_mem_nil _

/-! ## Line feeds between lines -/

/-- The second span stands behind the first, with a line feed of the source between them. -/
def LineBetween (source : String) (s s' : Span) : Prop :=
  s.stop ≤ s'.start ∧ '\n' ∈ ((Span.between s.stop s'.start).slice source).toList

section Cuts

variable {source : String} {a u gap u' c : Tokens} {span span' : Span}

lemma newline_notMem_of_onLine (h : tokensOf source = .ok (a ++ (u ++ c))) (hu : OnLine u)
    (hencloses : Encloses u span) : '\n' ∉ (span.slice source).toList := by
  obtain ⟨i, j, -, hi, hj, -, hfeeds⟩ := exists_cut h
  obtain ⟨first, hfirst, -, hstart⟩ := hencloses.first
  obtain ⟨last, hlast, -, hstop⟩ := hencloses.last
  have hspan : Span.between i j = span := by
    rw [← hi first hfirst, ← hj last hlast, hstart, hstop, Span.between_of_le span.start_le_stop]
  rw [← hspan, hfeeds]
  rintro ⟨t, ht, hnewline⟩
  exact (hu t ht).1 hnewline

lemma lineBetween_of_newline (h : tokensOf source = .ok (a ++ (u ++ (gap ++ (u' ++ c)))))
    (hu : Encloses u span) (hu' : Encloses u' span') (hgap : ∃ t ∈ gap, t.value = .newline) :
    LineBetween source span span' := by
  obtain ⟨last, hlast, -, hstop⟩ := hu.last
  obtain ⟨first, hfirst, -, hstart⟩ := hu'.first
  have hle : span.stop ≤ span'.start := by
    refine hu.le_start hu' (inOrder_of_tokensOf h).1.right ?_
    exact List.subset_append_of_subset_right gap (List.subset_append_left u' c)
  rw [← List.append_assoc] at h
  obtain ⟨i, j, hi, -, -, hj, hfeeds⟩ := exists_cut h
  have hi := hi last (by rw [List.getLast?_append, hlast, Option.some_or]; rfl)
  have hj := hj first (by rw [List.head?_append, hfirst, Option.some_or]; rfl)
  rw [← hi, ← hj, hstop, hstart] at hfeeds
  exact ⟨hle, hfeeds.2 hgap⟩

end Cuts

/-- The tokens of the lines, apart from those behind them, and the tokens of each line. -/
lemma Lines.exists_taken {s r : Tokens} {spans : List Span} (h : Lines s spans r) :
    ∃ w, s = w ++ r ∧ ∀ span ∈ spans, ∃ v, v.Sublist w ∧ (InOrder v → Encloses v span) := by
  induction h with
  | nil s => exact ⟨[], rfl, List.forall_mem_nil _⟩
  | @blank g s r spans hg _ ih =>
      obtain ⟨w, rfl, hw⟩ := ih
      refine ⟨g ++ w, by simp, fun span hspan => ?_⟩
      obtain ⟨v, hv, hencloses⟩ := hw span hspan
      exact ⟨v, hv.trans (List.sublist_append_right g w), hencloses⟩
  | @line u g e s r span spans hu hencloses hg he _ ih =>
      obtain ⟨w, rfl, hw⟩ := ih
      refine ⟨u ++ (g ++ (e ++ w)), by simp, List.forall_mem_cons.2
        ⟨⟨u, List.sublist_append_left _ _, hencloses⟩, fun span' hspan' => ?_⟩⟩
      obtain ⟨v, hv, hencloses'⟩ := hw span' hspan'
      refine ⟨v, hv.trans ?_, hencloses'⟩
      rw [← List.append_assoc, ← List.append_assoc]
      exact List.sublist_append_right _ w

/-- The first line begins behind trivia. -/
lemma Lines.exists_first {s r : Tokens} {span : Span} {spans : List Span}
    (h : Lines s (span :: spans) r) : ∃ g u s', s = g ++ (u ++ s') ∧ Blank g ∧ OnLine u ∧
      (InOrder u → Encloses u span) := by
  generalize hall : span :: spans = all at h
  induction h with
  | nil => cases hall
  | @blank g s r all hg _ ih =>
      obtain ⟨g', u, s', rfl, hg', hu, hencloses⟩ := ih hall
      exact ⟨g ++ g', u, s', by simp, blank_append.2 ⟨hg, hg'⟩, hu, hencloses⟩
  | line hu hencloses =>
      cases hall
      exact ⟨[], _, _, rfl, blank_nil, hu, hencloses⟩

/-- **Line by line.**  There is no line feed in the span of a line, and one between a line and the
next. -/
theorem Lines.separated {source : String} {before s r : Tokens} {spans : List Span}
    (h : Lines s spans r) (hts : tokensOf source = .ok (before ++ s)) :
    (∀ span ∈ spans, '\n' ∉ (span.slice source).toList) ∧ spans.IsChain (LineBetween source) := by
  induction h generalizing before with
  | nil => exact ⟨List.forall_mem_nil _, .nil⟩
  | blank _ _ ih =>
      rw [← List.append_assoc] at hts
      exact ih hts
  | @line u g e s r span spans hu hencloses hg he h ih =>
      have hts' : tokensOf source = .ok ((before ++ (u ++ (g ++ e))) ++ s) := by
        rw [hts]
        simp
      obtain ⟨hfree, hchain⟩ := ih hts'
      have hencloses := hencloses (inOrder_of_tokensOf hts).1.right.left
      refine ⟨List.forall_mem_cons.2 ⟨newline_notMem_of_onLine hts hu hencloses, hfree⟩, ?_⟩
      cases spans with
      | nil => exact .singleton span
      | cons span' spans =>
          obtain ⟨g', u', s', rfl, hg', hu', hencloses'⟩ := h.exists_first
          have hencloses' := hencloses' (inOrder_of_tokensOf hts').1.right.right.left
          refine .cons_cons ?_ hchain
          cases he with
          | @newline n _ hn =>
              have hts'' : tokensOf source =
                  .ok (before ++ (u ++ ((g ++ ([n] ++ g')) ++ (u' ++ s')))) := by
                rw [hts]
                simp
              exact lineBetween_of_newline hts'' hencloses hencloses' ⟨n, by simp, hn⟩
          | close hend =>
              -- behind the end of the body no line begins
              have hbrace : ∀ t ∈ g' ++ u', t.value ≠ .mark .rightBrace :=
                List.forall_mem_append.2 ⟨ne_of_blank hg' rfl, fun t ht => (hu' t ht).2⟩
              rw [← List.append_assoc, untilBrace_append hbrace, List.append_assoc,
                List.append_eq_nil_iff, List.append_eq_nil_iff] at hend
              exact absurd hend.2.1 hencloses'.ne_nil

end ArchLang
