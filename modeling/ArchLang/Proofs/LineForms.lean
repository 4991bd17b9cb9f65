import ArchLang.Proofs.UseCaseBodies
import Mathlib.Data.List.Basic
import Mathlib.Data.List.Forall2
import Mathlib.Tactic.Common

/-!
# Lines and their forms

A trigger or an action is one line of a use case.  The words of the line are found among its tokens,
and the record is the form that fits these words.

**The law.**

* `linesOf` cuts the body of a use case at its line ends; trivia and empty lines do not count.
* `IsFormOf line record` — the record is the form of the words of the line.
* **`formsOf_of_declarations`** — the lines of every use case that is read are the lines of its
  records, one for each, in order.

**The proof.**  `WordsOf u line` says that some tokens on one line are these words, each at its
place, and what reads a line takes such tokens and a line end (`wordsOf_words`).  `Reads s ls r`
says that the tokens of a body up to `r` make the lines `ls`; it is carried along a line
(`reads_line`), over trivia (`reads_blank`) and through the loops over actions and scenarios
(`reads_manyUntil`).
-/

namespace ArchLang

open ArchLang.Parser ArchLang.Grammar

/-! ## Lines and records -/

/-- What a line of a use case stands for. -/
inductive LineRecord where
  | trigger (t : Trigger (List String))
  | action (a : Action (List String))

/-- The records of a scenario: its trigger, then its actions. -/
def ScenarioDecl.records (d : ScenarioDecl) : List LineRecord :=
  .trigger d.trigger.value :: d.actions.map fun a => .action a.value

/-- The records of a use case. -/
def UseCaseDecl.records (d : UseCaseDecl) : List LineRecord :=
  d.scenarios.flatMap ScenarioDecl.records

/-- The tokens that are not trivia. -/
def significant (s : Tokens) : List Token := (s.filter fun t => !t.value.isTrivia).map (·.value)

/-- The lines among some tokens, without trivia and without empty lines. -/
def linesOf (s : Tokens) : List (List Token) :=
  ((s.splitOnP fun t => t.value = .newline).map significant).filter (· ≠ [])

/-- The record is the form of the words of the line: for a trigger the words behind its `when`, for
an action all of them. -/
inductive IsFormOf : List Token → LineRecord → Prop where
  | trigger {rest : List Token} {ws : List Word} {t : Trigger (List String)} :
      rest.map wordOf = ws.map some → triggerOf ws = some t →
      IsFormOf (.keyword .when :: rest) (.trigger t)
  | action {line : List Token} {ws : List Word} {a : Action (List String)} :
      line.head? ≠ some (.keyword .when) → line.map wordOf = ws.map some → actionOf ws = some a →
      IsFormOf line (.action a)

/-! ## Cutting lines -/

lemma significant_cons {t : Located Token} (ht : t.value.isTrivia = false) (s : Tokens) :
    significant (t :: s) = t.value :: significant s := by
  simp [significant, ht]

lemma linesOf_nil : linesOf [] = [] := rfl

/-- **Lines end at line ends.** -/
lemma linesOf_append_newline {t : Located Token} (ht : t.value = .newline) (s s' : Tokens) :
    linesOf (s ++ t :: s') = linesOf s ++ linesOf s' := by
  have hbreak : decide (t.value = .newline) = true := decide_eq_true ht
  rw [linesOf, List.splitOnP_append_cons s s' hbreak, List.map_append, List.filter_append]
  rfl

/-- Tokens without a line end are one line, if one of them counts. -/
lemma linesOf_line {u : Tokens} (hu : ∀ t ∈ u, t.value ≠ .newline) (hsig : significant u ≠ []) :
    linesOf u = [significant u] := by
  rw [linesOf, List.splitOnP_eq_singleton fun t ht => decide_eq_false (hu t ht)]
  simp [hsig]

lemma linesOf_cons_of_trivia {t : Located Token} (ht : t.value.isTrivia = true) (s : Tokens) :
    linesOf (t :: s) = linesOf s := by
  by_cases hnl : t.value = .newline
  · rw [← List.nil_append (t :: s), linesOf_append_newline hnl, linesOf_nil, List.nil_append]
  · obtain ⟨line, rest, hsplit⟩ :=
      List.exists_cons_of_ne_nil (List.splitOnP_ne_nil (fun t => t.value = .newline) s)
    have hone : significant (t :: line) = significant line := by simp [significant, ht]
    rw [linesOf, linesOf, List.splitOnP_cons_eq_if_modifyHead, if_neg (by simpa using hnl), hsplit,
      List.modifyHead_cons, List.map_cons, hone, List.map_cons]

lemma linesOf_blank_append {g : Tokens} (hg : Blank g) (s : Tokens) :
    linesOf (g ++ s) = linesOf s := by
  induction g with
  | nil => rfl
  | cons t g ih =>
      rw [blank_cons] at hg
      rw [List.cons_append, linesOf_cons_of_trivia hg.1, ih hg.2]

/-! ## Reading a line -/

/-- The token is this word, at its place. -/
def IsWord (t : Located Token) (w : Located Word) : Prop :=
  wordOf t.value = some w.value ∧ w.span = t.span

lemma not_trivia_of_wordOf {t : Token} {w : Word} (h : wordOf t = some w) : t.isTrivia = false := by
  cases t <;> cases h <;> rfl

/-- The tokens are these words on one line; blanks and comments may stand between them. -/
structure WordsOf (u : Tokens) (line : List (Located Word)) : Prop where
  onLine : ∀ t ∈ u, t.value.isInlineTrivia = true ∨ (wordOf t.value).isSome = true
  words : List.Forall₂ IsWord (u.filter fun t => !t.value.isTrivia) line

namespace WordsOf

variable {u v : Tokens} {line line' : List (Located Word)}

lemma append (hu : WordsOf u line) (hv : WordsOf v line') : WordsOf (u ++ v) (line ++ line') where
  onLine := List.forall_mem_append.2 ⟨hu.onLine, hv.onLine⟩
  words := by
    rw [List.filter_append]
    exact List.rel_append hu.words hv.words

lemma ne_newline (hu : WordsOf u line) : ∀ t ∈ u, t.value ≠ .newline := by
  intro t ht hnl
  have honLine := hu.onLine t ht
  rw [hnl] at honLine
  simp [Token.isInlineTrivia, wordOf] at honLine

lemma ne_mark (hu : WordsOf u line) (m : Mark) : ∀ t ∈ u, t.value ≠ .mark m := by
  intro t ht hm
  have honLine := hu.onLine t ht
  rw [hm] at honLine
  simp [Token.isInlineTrivia, wordOf] at honLine

lemma map_wordOf (hu : WordsOf u line) :
    (significant u).map wordOf = (line.map (·.value)).map some := by
  have hvalues := hu.words.imp (S := fun t w => wordOf t.value = some w.value) fun _ _ h => h.1
  rwa [significant, List.map_map, List.map_map, ← List.forall₂_eq_eq_eq, List.forall₂_map_left_iff,
    List.forall₂_map_right_iff]

lemma significant_ne_nil (hu : WordsOf u line) (hline : line ≠ []) : significant u ≠ [] := by
  intro hnil
  have hwords := hu.map_wordOf
  rw [hnil, List.map_nil, eq_comm, List.map_eq_nil_iff, List.map_eq_nil_iff] at hwords
  exact hline hwords

end WordsOf

lemma wordsOf_blanks {s r : Tokens} (h : blanks s = .done () r) :
    ∃ u, s = u ++ r ∧ WordsOf u [] := by
  cases h
  have hinline : ∀ t ∈ s.takeWhile fun t => t.value.isInlineTrivia, t.value.isInlineTrivia = true :=
    fun t ht => List.mem_takeWhile_imp (p := fun t : Located Token => t.value.isInlineTrivia) ht
  have hblank : Blank (s.takeWhile fun t => t.value.isInlineTrivia) := by
    intro t ht
    have := hinline t ht
    cases hvalue : t.value <;> simp_all [Token.isInlineTrivia, Token.isTrivia]
  refine ⟨_, List.takeWhile_append_dropWhile.symm, fun t ht => .inl (hinline t ht), ?_⟩
  rw [filter_of_blank hblank]
  exact .nil

lemma wordsOf_lineWord {s r : Tokens} {w : Located Word} (h : lineWord s = .done w r) :
    ∃ u, s = u ++ r ∧ WordsOf u [w] := by
  obtain ⟨_, s', hblanks, hword⟩ := bind_eq_done.1 h
  obtain ⟨t, rfl, ht, hspan⟩ := token_eq_done.1 (label_done.1 hword)
  obtain ⟨g, rfl, hg⟩ := wordsOf_blanks hblanks
  have hone : WordsOf [t] [w] := by
    refine ⟨?_, ?_⟩
    · rw [List.forall_mem_singleton, ht]
      exact .inr rfl
    · rw [List.filter_cons_of_pos (by simp [not_trivia_of_wordOf ht])]
      exact .cons ⟨ht, hspan⟩ .nil
  exact ⟨g ++ [t], by simp, hg.append hone⟩

lemma wordsOf_many {s r : Tokens} {line : List (Located Word)}
    (h : many lineWord s = .done line r) : ∃ u, s = u ++ r ∧ WordsOf u line := by
  fun_induction many lineWord s generalizing line r with
  | case1 => cases h
  | case2 =>
      cases h
      exact ⟨[], rfl, fun _ ht => absurd ht List.not_mem_nil, .nil⟩
  | case3 s w r' hw ih =>
      cases hm : many lineWord r' with
      | failed e => rw [hm] at h; cases h
      | done line' r'' =>
          rw [hm] at h
          cases h
          obtain ⟨u, rfl, hu⟩ := wordsOf_lineWord hw
          obtain ⟨v, rfl, hv⟩ := ih hm
          exact ⟨u ++ v, (List.append_assoc _ _ _).symm, hu.append hv⟩

/-- What closes a line: a line end, or nothing where the body ends. -/
inductive EndsLine : Tokens → Tokens → Prop where
  | newline {t : Located Token} {r : Tokens} : t.value = .newline → EndsLine [t] r
  | close {r : Tokens} : untilBrace r = [] → EndsLine [] r

lemma EndsLine.blank {e r : Tokens} (h : EndsLine e r) : Blank e := by
  cases h with
  | newline ht => exact blank_cons.2 ⟨by rw [ht]; rfl, blank_nil⟩
  | close => exact blank_nil

lemma endsLine_endOfLine {s r : Tokens} (h : endOfLine s = .done () r) :
    ∃ e, s = e ++ r ∧ EndsLine e r := by
  rcases orElse_eq_done (label_done.1 h) with h | h
  · obtain ⟨_, r', hnl, h⟩ := bind_eq_done.1 h
    cases h
    obtain ⟨t, rfl, ht⟩ := exactly_eq_done hnl
    exact ⟨[t], rfl, .newline ht⟩
  · rcases orElse_eq_done h with h | h
    · obtain ⟨rfl, r', h⟩ := lookahead_eq_done h
      obtain ⟨_, r'', hbrace, -⟩ := bind_eq_done.1 h
      obtain ⟨t, rfl, ht⟩ := mark_eq_done hbrace
      exact ⟨[], rfl, .close (untilBrace_brace ht _)⟩
    · cases s with
      | nil =>
          cases h
          exact ⟨[], rfl, .close rfl⟩
      | cons t s => cases h

/-- **One line.**  What `words` reads: words on one line, and the end of the line. -/
theorem wordsOf_words {s r : Tokens} {line : List (Located Word)} (h : words s = .done line r) :
    ∃ u e, s = u ++ (e ++ r) ∧ WordsOf u line ∧ line ≠ [] ∧ EndsLine e r := by
  obtain ⟨first, s₁, hfirst, h⟩ := bind_eq_done.1 h
  obtain ⟨others, s₂, hothers, h⟩ := bind_eq_done.1 h
  obtain ⟨_, s₃, hblanks, h⟩ := bind_eq_done.1 h
  obtain ⟨_, s₄, hend, h⟩ := bind_eq_done.1 h
  cases h
  obtain ⟨u, rfl, hu⟩ := wordsOf_lineWord hfirst
  obtain ⟨v, rfl, hv⟩ := wordsOf_many hothers
  obtain ⟨g, rfl, hg⟩ := wordsOf_blanks hblanks
  obtain ⟨e, rfl, he⟩ := endsLine_endOfLine hend
  refine ⟨u ++ (v ++ g), e, by simp, ?_, List.cons_ne_nil first others, he⟩
  simpa using hu.append (hv.append hg)

lemma classified_eq_done {α : Type} {start s r : Tokens} {what : Expected} {span : Span}
    {form : Option α} {a : Located α} (h : classified start what span form s = .done a r) :
    form = some a.value ∧ r = s ∧ a.span = span := by
  cases form with
  | none => cases h
  | some form =>
      cases h
      exact ⟨rfl, rfl, rfl⟩

/-- A trigger is the form of the words behind `when`. -/
lemma trigger_eq_done {s r : Tokens} {t : Located (Trigger (List String))}
    (h : trigger s = .done t r) :
    ∃ opening s' line, s = opening :: s' ∧ opening.value = .keyword .when ∧
      words s' = .done line r ∧ triggerOf (line.map (·.value)) = some t.value ∧
      t.span = opening.span.union (spanOf line) := by
  obtain ⟨start, s', hwhen, h⟩ := bind_eq_done.1 h
  have h := commit_done.1 h
  rw [here_bind_apply] at h
  obtain ⟨line, s'', hline, h⟩ := bind_eq_done.1 h
  obtain ⟨hform, rfl, hspan⟩ := classified_eq_done h
  obtain ⟨opening, rfl, hopening⟩ := exactly_eq_done hwhen
  rw [keyword_cons_of_eq s' hopening] at hwhen
  cases hwhen
  exact ⟨opening, s', line, rfl, hopening, hline, hform, hspan⟩

/-- An action is the form of all words of its line. -/
lemma action_eq_done {s r : Tokens} {a : Located (Action (List String))}
    (h : action s = .done a r) :
    ∃ line, words s = .done line r ∧ actionOf (line.map (·.value)) = some a.value ∧
      a.span = spanOf line := by
  rw [action, here_bind_apply] at h
  obtain ⟨line, s', hline, h⟩ := bind_eq_done.1 h
  obtain ⟨hform, rfl, hspan⟩ := classified_eq_done h
  exact ⟨line, hline, hform, hspan⟩

/-! ## Reading the lines of a body -/

/-- Inside a body, the tokens up to `r` make the lines `ls`. -/
structure Reads (s : Tokens) (ls : List (List Token)) (r : Tokens) : Prop where
  bodies : bodiesFrom .inside s = bodiesFrom .inside r
  lines : linesOf (untilBrace s) = ls ++ linesOf (untilBrace r)

lemma reads_refl (s : Tokens) : Reads s [] s := ⟨rfl, rfl⟩

lemma Reads.trans {s r r' : Tokens} {ls ls' : List (List Token)} (h : Reads s ls r)
    (h' : Reads r ls' r') : Reads s (ls ++ ls') r' where
  bodies := h.bodies.trans h'.bodies
  lines := by rw [h.lines, h'.lines, List.append_assoc]

lemma reads_blank {g : Tokens} (hg : Blank g) (s : Tokens) : Reads (g ++ s) [] s where
  bodies := bodiesFrom_append (ne_of_blank hg rfl) s
  lines := by rw [untilBrace_append (ne_of_blank hg rfl), linesOf_blank_append hg, List.nil_append]

/-- One line. -/
lemma reads_line {u e r : Tokens} (hnl : ∀ t ∈ u, t.value ≠ .newline)
    (hbrace : ∀ t ∈ u, t.value ≠ .mark .rightBrace) (hsig : significant u ≠ [])
    (he : EndsLine e r) : Reads (u ++ (e ++ r)) [significant u] r := by
  have hline := linesOf_line hnl hsig
  cases he with
  | @newline t _ ht =>
      have hend : ∀ x ∈ [t], x.value ≠ .mark .rightBrace := by simp [ht]
      refine ⟨?_, ?_⟩
      · rw [bodiesFrom_append hbrace, bodiesFrom_append hend]
      · rw [untilBrace_append hbrace, untilBrace_append hend, List.singleton_append,
          linesOf_append_newline ht, hline]
  | close hr =>
      refine ⟨?_, ?_⟩
      · rw [bodiesFrom_append hbrace, List.nil_append]
      · rw [untilBrace_append hbrace, List.nil_append, hr, List.append_nil, hline, linesOf_nil,
          List.append_nil]

lemma reads_trigger {s r : Tokens} {t : Located (Trigger (List String))}
    (h : trigger s = .done t r) :
    ∃ line, Reads s [line] r ∧ IsFormOf line (.trigger t.value) := by
  obtain ⟨x, s', line, rfl, hx, hline, hform, -⟩ := trigger_eq_done h
  obtain ⟨u, e, rfl, hu, hne, he⟩ := wordsOf_words hline
  have hsig : significant (x :: u) = .keyword .when :: significant u := by
    rw [significant_cons (by rw [hx]; rfl), hx]
  refine ⟨significant (x :: u), ?_, ?_⟩
  · rw [← List.cons_append]
    refine reads_line ?_ ?_ (by simp [hsig]) he
    · exact List.forall_mem_cons.2 ⟨by simp [hx], hu.ne_newline⟩
    · exact List.forall_mem_cons.2 ⟨by simp [hx], hu.ne_mark .rightBrace⟩
  · rw [hsig]
    exact .trigger hu.map_wordOf hform

/-- An action line does not begin with `when`: the loop over actions would have stopped there. -/
lemma reads_action {y : Located Token} {w r : Tokens} {a : Located (Action (List String))}
    (hy : y.value.isTrivia = false) (hwhen : y.value ≠ .keyword .when)
    (h : action (y :: w) = .done a r) :
    ∃ line, Reads (y :: w) [line] r ∧ IsFormOf line (.action a.value) := by
  obtain ⟨line, hline, hform, -⟩ := action_eq_done h
  obtain ⟨u, e, hs, hu, hne, he⟩ := wordsOf_words hline
  have hsig := hu.significant_ne_nil hne
  refine ⟨significant u, ?_, .action ?_ hu.map_wordOf hform⟩
  · rw [hs]
    exact reads_line hu.ne_newline (hu.ne_mark .rightBrace) hsig he
  · cases u with
    | nil => exact absurd rfl hsig
    | cons x u =>
        obtain rfl : y = x := (List.cons.inj hs).1
        rw [significant_cons hy, List.head?_cons]
        exact fun heq => hwhen (Option.some.inj heq)

/-! ## Scenarios and use cases -/

/-- A loop reads the lines of its items, one item after another, up to where it stops. -/
lemma reads_manyUntil {α β : Type} {stop : Parser β} {item : Parser α} [Consumes item]
    {records : α → List LineRecord}
    (hitem : ∀ {y w e a r}, y.value.isTrivia = false → stop (y :: w) = .failed e →
      item (y :: w) = .done a r →
      ∃ ls, Reads (y :: w) ls r ∧ List.Forall₂ IsFormOf ls (records a))
    {s r : Tokens} {found : List α × β}
    (h : manyUntil Token.isTrivia stop item s = .done found r) :
    ∃ ls s' b, Reads s ls s' ∧ stop s' = .done b r ∧
      List.Forall₂ IsFormOf ls (found.1.flatMap records) := by
  refine manyUntil_induction item stop (motive := fun s as => ∃ ls s' b, Reads s ls s' ∧
    stop s' = .done b r ∧ List.Forall₂ IsFormOf ls (as.flatMap records)) h ?blank ?done ?turn
  case blank =>
    rintro g s as hg ⟨ls, s', b, hreads, hstop, hlines⟩
    exact ⟨ls, s', b, (reads_blank hg s).trans hreads, hstop, hlines⟩
  case done =>
    intro s b hstop
    exact ⟨[], s, b, reads_refl s, hstop, .nil⟩
  case turn =>
    rintro y w e a r' as hy hfailed ha ⟨ls, s', b, hreads, hstop, hlines⟩
    obtain ⟨ls', hreads', hlines'⟩ := hitem hy hfailed ha
    exact ⟨ls' ++ ls, s', b, hreads'.trans hreads, hstop, List.rel_append hlines' hlines⟩

lemma scenarioEnd_of_when {y : Located Token} (hy : y.value = .keyword .when) (w : Tokens) :
    scenarioEnd (y :: w) = .done () (y :: w) := by
  have hbrace : y.value ≠ .mark .rightBrace := by simp [hy]
  refine lookahead_of_done (r := w) ?_
  refine orElse_of_open_done (bind_of_failed _ (mark_cons_of_ne w hbrace)) rfl ?_
  exact bind_of_done _ (keyword_cons_of_eq w hy)

lemma reads_scenario {s r : Tokens} {d : ScenarioDecl} (h : scenario s = .done d r) :
    ∃ ls, Reads s ls r ∧ List.Forall₂ IsFormOf ls d.records := by
  obtain ⟨opening, s', below, hopening, hbelow, rfl⟩ := scenario_eq_done h
  obtain ⟨line, hfirst, hline⟩ := reads_trigger hopening
  have haction : ∀ {y w e a r}, y.value.isTrivia = false → scenarioEnd (y :: w) = .failed e →
      action (y :: w) = .done a r →
      ∃ ls, Reads (y :: w) ls r ∧ List.Forall₂ IsFormOf ls [.action a.value] := by
    intro y w e a r hy hfailed ha
    have hwhen : y.value ≠ .keyword .when := by
      intro hwhen
      rw [scenarioEnd_of_when hwhen] at hfailed
      cases hfailed
    obtain ⟨line, hreads, hline⟩ := reads_action hy hwhen ha
    exact ⟨[line], hreads, .cons hline .nil⟩
  obtain ⟨ls, s₁, b, hreads, hstop, hlines⟩ := reads_manyUntil haction hbelow
  obtain ⟨rfl, -⟩ := lookahead_eq_done hstop
  refine ⟨line :: ls, hfirst.trans hreads, .cons hline ?_⟩
  rwa [List.map_eq_flatMap]

/-- The lines of a body are those of the records of a use case, one for each, in order. -/
def FormsOf (body : Tokens) (u : UseCaseDecl) : Prop :=
  List.Forall₂ IsFormOf (linesOf body) u.records

/-- What stands behind `use_case` up to its closing brace. -/
lemma formsOf_of_useCaseBody {start : Span} {s r : Tokens} {d : Located Declaration}
    (h : useCaseBody start s = .done d r) :
    ∃ body u, d.value = .useCase u ∧ bodiesFrom .heading s = body :: bodiesFrom .outside r ∧
      FormsOf body u := by
  obtain ⟨s₁, name, s₂, s₃, body, hgap1, hname, hgap, hbody, rfl⟩ := useCaseBody_eq_done h
  obtain ⟨opening, s₄, found, hopening, hfound, rfl⟩ := block_eq_done hbody
  obtain ⟨x, rfl, hx⟩ := mark_eq_done hopening
  obtain ⟨g, rfl, hg⟩ := gap1_eq_done hgap1
  obtain ⟨t, rfl, ht, -⟩ := token_eq_done.1 (label_done.1 hname)
  obtain ⟨g', rfl, hg'⟩ := gap_eq_done hgap
  have hscenario : ∀ {y w e a r}, y.value.isTrivia = false →
      mark .rightBrace (y :: w) = .failed e → scenario (y :: w) = .done a r →
      ∃ ls, Reads (y :: w) ls r ∧ List.Forall₂ IsFormOf ls a.records :=
    fun _ _ ha => reads_scenario ha
  obtain ⟨ls, s', b, hreads, hstop, hlines⟩ := reads_manyUntil hscenario hfound
  obtain ⟨z, rfl, hz⟩ := mark_eq_done hstop
  refine ⟨untilBrace s₄, ⟨name, found.1⟩, rfl, ?_, ?_⟩
  · have hnobrace : t.value ≠ Region.heading.exit := by
      intro hbrace
      rw [hbrace] at ht
      cases ht
    rw [bodiesFrom_append (ne_of_blank hg rfl), bodiesFrom_cons_of_ne hnobrace,
      bodiesFrom_append (ne_of_blank hg' rfl), bodiesFrom_leftBrace s₄ hx, hreads.bodies,
      bodiesFrom_rightBrace r hz]
  · rw [FormsOf, hreads.lines, untilBrace_brace hz, linesOf_nil, List.append_nil]
    exact hlines

/-! ## Whole programs -/

/-- A declaration has one body for each of its use cases: none, or its own. -/
lemma formsOf_of_declaration {s r : Tokens} {d : Located Declaration}
    (h : declaration s = .done d r) :
    ∃ bodies, bodiesFrom .outside s = bodies ++ bodiesFrom .outside r ∧
      List.Forall₂ FormsOf bodies d.value.useCaseDecls := by
  obtain ⟨t, k, s', rfl, htk, hk, hbody⟩ := declaration_eq_done h
  by_cases huse : k = .useCase
  · subst huse
    obtain ⟨body, u, hu, hbodies, hbody⟩ := formsOf_of_useCaseBody hbody
    refine ⟨[body], ?_, ?_⟩
    · rw [bodiesFrom_useCase s' htk, hbodies, List.singleton_append]
    · rw [hu]
      exact .cons hbody .nil
  · have hbodies := bodiesFrom_of_declarationBody hbody hk huse
    have hnone := useCaseDecls_of_declarationBody hbody hk huse
    have hexit : t.value ≠ Region.outside.exit := by
      rw [htk]
      exact fun hkey => huse (Token.keyword.inj hkey)
    refine ⟨[], ?_, ?_⟩
    · rw [bodiesFrom_cons_of_ne hexit, hbodies, List.nil_append]
    · rw [hnone]
      exact .nil

lemma formsOf_of_declarations {ts r : Tokens} {ds : List (Located Declaration)}
    (h : declarations ts = .done ds r) :
    List.Forall₂ FormsOf (useCaseBodies ts) (ds.flatMap fun d => d.value.useCaseDecls) := by
  obtain ⟨found, hfound, rfl⟩ := declarations_eq_done h
  refine manyUntil_induction declaration atEnd (motive := fun s ds => List.Forall₂ FormsOf
    (bodiesFrom .outside s) (ds.flatMap fun d => d.value.useCaseDecls)) hfound ?blank ?done ?turn
  case blank =>
    intro g s ds hg hs
    rwa [bodiesFrom_append (ne_of_blank hg rfl)]
  case done =>
    intro s b hend
    cases s with
    | nil => exact .nil
    | cons t s => cases hend
  case turn =>
    intro y w e d r' ds _ _ hd hrest
    obtain ⟨bodies, hbodies, hown⟩ := formsOf_of_declaration hd
    rw [hbodies, List.flatMap_cons]
    exact List.rel_append hown hrest

end ArchLang
