import ArchLang.Proofs.EdgeNames
import Mathlib.Data.List.InsertIdx

/-!
# Answers with a target

A line `<domain> returns to <target> …` says itself where the answer goes.  The stack of callers has
no say in it and is left as it is, so the line could be left out without a change to any other
answer.  All of that depends on how the words are told apart: `returns` and `to` count only without
quotes, and so does the target.

* `ReturnsTo line word` — the words of the line go on, behind the first, with `returns`, `to` and
  this word.
* `ScenarioDecl.GoesTo d i target` — the `i`-th action of the scenario is an answer to the target:
  its record and its edge name the target, nobody starts or stops waiting, and every later answer
  without a target goes where it goes in the scenario without the action.
* `goesTo_of_returns` — all of this follows from the record.
* `ByScenario P body u` — the lines of the body fall into those of the scenarios of the use case,
  and each scenario has `P` with its lines.
* **`goesTo_of_declarationsOf`** — every such line of a source is such an answer.
* **`goesTo_not_of_quoted`** — a quoted word is no target.
-/

namespace ArchLang

open ArchLang.Parser ArchLang.Grammar

/-! ## Lines and answers -/

/-- Behind the first word of the line come `returns` and `to`, without quotes, and the word. -/
def ReturnsTo (line : List Token) (word : Word) : Prop :=
  ∃ rest, line.tail.map wordOf =
    some (.plain "returns") :: some (.plain "to") :: some word :: rest

/-- The scenario without its `i`-th action. -/
def ScenarioDecl.without (d : ScenarioDecl) (i : ℕ) : ScenarioDecl :=
  { d with actions := d.actions.eraseIdx i }

/-- Where the edge of an action ends, in the flow of a scenario. -/
def edgeTarget? (owners : Ownership) (useCase : String) (s : Scenario) (i : ℕ) : Option Endpoint :=
  ((Flow.ofScenario owners useCase s).edges[edgeIndex s i]?).map Edge.target

/-- The `i`-th action of the scenario is an answer to the target. -/
structure ScenarioDecl.GoesTo (d : ScenarioDecl) (i : ℕ) (target : String) : Prop where
  /-- its record names the target -/
  record : ∃ domain phrase,
    (d.actions[i]?).map (·.value) = some (.returns domain (some target) phrase)
  /-- its edge ends there -/
  edge : ∀ owners useCase n,
    edgeTarget? owners useCase (.numbered n d) i = some (.domain target)
  /-- the same callers wait before and after it -/
  callers : ∀ n, let s := Scenario.numbered n d
    callersLeft (callersOf s.trigger) (s.actions.take (i + 1)) =
      callersLeft (callersOf s.trigger) (s.actions.take i)
  /-- later answers without a target go where they go without it -/
  later : ∀ owners useCase n n' k, i ≤ k →
    AnswerAt (Scenario.numbered n d).actions (k + 1) →
    edgeTarget? owners useCase (.numbered n d) (k + 1) =
      edgeTarget? owners useCase (.numbered n' (d.without i)) k

/-! ## From records to flows -/

/-- Nobody starts or stops waiting at an action that is neither a call nor an answer without a
target, so it may be left out. -/
lemma callersLeft_eraseIdx {actions : List (Action String)} {i : ℕ} {a : Action String}
    (ha : actions[i]? = some a) (htouches : touchesStack a = false) (callers : List Endpoint) :
    callersLeft callers (actions.eraseIdx i) = callersLeft callers actions := by
  obtain ⟨hi, rfl⟩ := List.getElem?_eq_some_iff.1 ha
  have hsplit : actions.take i ++ ([actions[i]] ++ actions.drop (i + 1)) = actions := by
    rw [List.singleton_append, List.getElem_cons_drop, List.take_append_drop]
  have hfilter : (actions.eraseIdx i).filter touchesStack = actions.filter touchesStack := by
    conv_rhs => rw [← hsplit]
    rw [List.eraseIdx_eq_take_drop_succ, List.filter_append, List.filter_append, List.filter_append,
      List.filter_singleton, htouches]
    rfl
  rw [← callersLeft_filter, hfilter, callersLeft_filter]

lemma take_eraseIdx {α : Type} (xs : List α) {i k : ℕ} (h : i ≤ k) :
    (xs.eraseIdx i).take k = (xs.take (k + 1)).eraseIdx i := by
  refine List.ext_getElem? fun j => ?_
  simp only [List.getElem?_take, List.getElem?_eraseIdx]
  split <;> split <;> simp <;> omega

lemma actions_without (n n' : ℕ) (d : ScenarioDecl) (i : ℕ) :
    (Scenario.numbered n' (d.without i)).actions = (Scenario.numbered n d).actions.eraseIdx i := by
  rw [actions_numbered, actions_numbered, List.eraseIdx_map]
  rfl

/-- Without an action at which nobody starts or stops waiting, later answers go where they went. -/
lemma edgeTarget?_without {d : ScenarioDecl} {n i k : ℕ} {a : Action String}
    (ha : (Scenario.numbered n d).actions[i]? = some a) (htouches : touchesStack a = false)
    (hik : i ≤ k) (hanswer : AnswerAt (Scenario.numbered n d).actions (k + 1)) (owners : Ownership)
    (useCase : String) (n' : ℕ) :
    edgeTarget? owners useCase (.numbered n d) (k + 1) =
      edgeTarget? owners useCase (.numbered n' (d.without i)) k := by
  obtain ⟨domain, phrase, hk⟩ := exists_returns_of_answerAt hanswer
  have hactions := actions_without n n' d i
  have hk' : (Scenario.numbered n' (d.without i)).actions[k]? =
      some (.returns domain none phrase) := by
    rw [hactions, List.getElem?_eraseIdx_of_ge hik, hk]
  have htake : ((Scenario.numbered n d).actions.take (k + 1))[i]? = some a := by
    rw [List.getElem?_take, if_pos (by omega), ha]
  have hcallers : callersLeft (callersOf (Scenario.numbered n' (d.without i)).trigger)
      ((Scenario.numbered n' (d.without i)).actions.take k) =
      callersLeft (callersOf (Scenario.numbered n d).trigger)
        ((Scenario.numbered n d).actions.take (k + 1)) := by
    rw [hactions, take_eraseIdx _ hik, callersLeft_eraseIdx htake htouches]
    rfl
  rw [edgeTarget?, edgeTarget?, edge_of_answer owners useCase hk, edge_of_answer owners useCase hk',
    hcallers]

/-- An answer whose record names a target goes to it, and matters to no other answer. -/
lemma goesTo_of_returns {d : ScenarioDecl} {i : ℕ} {domain target : String} {phrase : List String}
    (h : (d.actions[i]?).map (·.value) = some (.returns domain (some target) phrase)) :
    d.GoesTo i target := by
  have haction (n : ℕ) : (Scenario.numbered n d).actions[i]? =
      some (.returns domain (some target) (joinPhrase phrase)) := by
    rw [actions_numbered, List.getElem?_map]
    obtain ⟨a, ha, hvalue⟩ := Option.map_eq_some_iff.1 h
    rw [ha, Option.map_some, hvalue]
    rfl
  refine ⟨⟨domain, phrase, h⟩, fun owners useCase n => ?_, fun n => ?_,
    fun owners useCase n n' k hik hanswer =>
      edgeTarget?_without (haction n) rfl hik hanswer owners useCase n'⟩
  · rw [edgeTarget?, getElem?_edges_ofScenario owners useCase (haction n) rfl]
    rfl
  · obtain ⟨hi, hget⟩ := List.getElem?_eq_some_iff.1 (haction n)
    dsimp only
    rw [List.take_succ_eq_append_getElem hi, callersLeft_append_singleton, hget]
    rfl

/-! ## From lines to records -/

/-- The words of a line that returns to a target are an answer to it. -/
lemma returns_of_actionOf {line : List Token} {ws : List Word} {a : Action (List String)}
    {target : String} (hline : ReturnsTo line (.plain target))
    (hwords : line.map wordOf = ws.map some)
    (hform : actionOf ws = some a) :
    ∃ domain phrase, a = .returns domain (some target) phrase := by
  obtain ⟨rest, hrest⟩ := hline
  have htail : ws.tail.map some =
      some (.plain "returns") :: some (.plain "to") :: some (.plain target) :: rest := by
    rw [List.map_tail, ← hwords, ← List.map_tail, hrest]
  cases ws with
  | nil => cases htail
  | cons first ws =>
      simp only [List.tail_cons, List.map_eq_cons_iff, Option.some.injEq] at htail
      obtain ⟨_, _, rfl, rfl, _, _, rfl, rfl, _, ws, rfl, rfl, -⟩ := htail
      cases first with
      | quoted text => cases hform
      | plain domain =>
          obtain rfl : returnsOf domain (.plain "to" :: .plain target :: ws) = a :=
            Option.some.inj hform
          exact ⟨domain, phrase ws, rfl⟩

/-- What stands at a place stands for what is at the same place. -/
lemma exists_of_forall₂_getElem? {α β : Type} {R : α → β → Prop} {xs : List α} {ys : List β}
    (h : List.Forall₂ R xs ys) {i : ℕ} {x : α} (hx : xs[i]? = some x) :
    ∃ y, ys[i]? = some y ∧ R x y := by
  obtain ⟨hi, rfl⟩ := List.getElem?_eq_some_iff.1 hx
  have hi' : i < ys.length := h.length_eq ▸ hi
  exact ⟨ys[i], List.getElem?_eq_getElem hi', h.get hi hi'⟩

/-- What stands for a list that was put together falls into the same parts. -/
lemma exists_groups {α β γ : Type} {R : α → β → Prop} {f : γ → List β} {xs : List α} {zs : List γ}
    (h : List.Forall₂ R xs (zs.flatMap f)) :
    ∃ groups, xs = groups.flatten ∧ List.Forall₂ (fun g z => List.Forall₂ R g (f z)) groups zs := by
  induction zs generalizing xs with
  | nil =>
      obtain rfl := List.forall₂_nil_right_iff.1 h
      exact ⟨[], rfl, .nil⟩
  | cons z zs ih =>
      rw [List.flatMap_cons] at h
      obtain ⟨groups, hgroups, hrest⟩ := ih (List.forall₂_drop_append _ _ _ h)
      refine ⟨xs.take (f z).length :: groups, ?_, .cons (List.forall₂_take_append _ _ _ h) hrest⟩
      rw [List.flatten_cons, ← hgroups, List.take_append_drop]

/-- The lines of a body fall into those of the scenarios of a use case, and each scenario has `P`
with its lines. -/
def ByScenario (P : List (List Token) → ScenarioDecl → Prop) (body : Tokens) (u : UseCaseDecl) :
    Prop :=
  ∃ groups, linesOf body = groups.flatten ∧ List.Forall₂ P groups u.scenarios

/-- The lines of a scenario are one for its trigger and one for each action, and the line of each
action that returns to a target without quotes is an answer to it. -/
def KeepsTargets (lines : List (List Token)) (d : ScenarioDecl) : Prop :=
  lines.length = d.actions.length + 1 ∧
    ∀ i line target, lines[i + 1]? = some line → ReturnsTo line (.plain target) → d.GoesTo i target

lemma keepsTargets_of_forms {lines : List (List Token)} {d : ScenarioDecl}
    (h : List.Forall₂ IsFormOf lines d.records) : KeepsTargets lines d := by
  refine ⟨by simpa [ScenarioDecl.records] using h.length_eq, fun i line target hline hreturns => ?_⟩
  obtain ⟨record, hrecord, hform⟩ := exists_of_forall₂_getElem? h hline
  rw [ScenarioDecl.records, List.getElem?_cons_succ, List.getElem?_map] at hrecord
  obtain ⟨a, ha, rfl⟩ := Option.map_eq_some_iff.1 hrecord
  cases hform with
  | action _ hwords hform =>
      obtain ⟨domain, phrase, hvalue⟩ := returns_of_actionOf hreturns hwords hform
      have hreturns :
          (d.actions[i]?).map (·.value) = some (.returns domain (some target) phrase) := by
        rw [ha, Option.map_some, hvalue]
      exact goesTo_of_returns hreturns

/-- **`returns to` is an answer to the target.**  The bodies of the use cases of a source fall into
the lines of their scenarios, and every line that returns to a target without quotes is an answer to
it. -/
theorem goesTo_of_declarationsOf {source : String} {ds : List (Located Declaration)}
    (h : declarationsOf source = .ok ds) :
    ∃ ts, tokensOf source = .ok ts ∧
      List.Forall₂ (ByScenario KeepsTargets) (useCaseBodies ts)
        ((ds.map (·.value)).flatMap Declaration.useCaseDecls) := by
  obtain ⟨ts, htokens, hread⟩ := declarationsOf_eq_ok.1 h
  refine ⟨ts, htokens, ?_⟩
  rw [List.flatMap_map]
  refine (formsOf_of_declarations (declarationsOfTokens_eq_ok.1 hread)).imp fun body u hforms => ?_
  obtain ⟨groups, hlines, hgroups⟩ := exists_groups hforms
  exact ⟨groups, hlines, hgroups.imp fun _ _ => keepsTargets_of_forms⟩

/-- In a source with a single scenario all lines are its own. -/
lemma byScenario_single {P : List (List Token) → ScenarioDecl → Prop} {bodies : List Tokens}
    {us : List UseCaseDecl} {lines : List (List Token)} {d : ScenarioDecl}
    (hbodies : bodies.map linesOf = [lines]) (hus : us.flatMap (·.scenarios) = [d])
    (h : List.Forall₂ (ByScenario P) bodies us) : P lines d := by
  obtain ⟨body, rfl, rfl⟩ := List.map_eq_singleton_iff.1 hbodies
  obtain ⟨u, _, ⟨groups, hlines, hgroups⟩, hnil, rfl⟩ := List.forall₂_cons_left_iff.1 h
  obtain rfl := List.forall₂_nil_left_iff.1 hnil
  rw [List.flatMap_singleton] at hus
  rw [hus] at hgroups
  obtain ⟨group, _, hP, hnil, rfl⟩ := List.forall₂_cons_right_iff.1 hgroups
  obtain rfl := List.forall₂_nil_right_iff.1 hnil
  rwa [hlines, List.flatten_singleton]

/-- A scenario in which an answer with a target comes before two answers without. -/
def relayed : String :=
  "use_case Relay \x7b\n  when User calls\n    A asks B\n    B asks C\n" ++
    "    C returns to A \"ok\"\n    C returns\n    B returns\n\x7d"

/-- The answer goes to its target, and the next two to the callers as if it was not there. -/
theorem goesTo_of_declarationsOf_relayed :
    ∃ ds d, declarationsOf relayed = .ok ds ∧
      ((ds.map (·.value)).flatMap Declaration.useCaseDecls).flatMap (·.scenarios) = [d] ∧
      d.GoesTo 2 "A" ∧
      edgeTarget? .empty "Relay" (.numbered 0 d) 3 = some (.domain "B") ∧
      edgeTarget? .empty "Relay" (.numbered 0 d) 4 = some (.domain "A") := by
  have hread : ((tokensOf relayed).toOption.map fun ts => ((useCaseBodies ts).map linesOf,
      (declarationsOfTokens ts).toOption.map fun ds =>
        (((ds.map (·.value)).flatMap Declaration.useCaseDecls).flatMap (·.scenarios)).map fun d =>
          (edgeTarget? .empty "Relay" (.numbered 0 d) 3,
            edgeTarget? .empty "Relay" (.numbered 0 d) 4)))
      = some ([[[.keyword .when, .identifier "User", .identifier "calls"],
          [.identifier "A", .identifier "asks", .identifier "B"],
          [.identifier "B", .identifier "asks", .identifier "C"],
          [.identifier "C", .identifier "returns", .identifier "to", .identifier "A",
            .stringLiteral "ok"],
          [.identifier "C", .identifier "returns"], [.identifier "B", .identifier "returns"]]],
        some [(some (.domain "B"), some (.domain "A"))]) := by decide +kernel
  cases htokens : tokensOf relayed with
  | error e => rw [htokens] at hread; cases hread
  | ok ts =>
      rw [htokens, Except.toOption, Option.map_some, Option.some.injEq, Prod.mk.injEq] at hread
      obtain ⟨hbodies, hread⟩ := hread
      cases hds : declarationsOfTokens ts with
      | error d => rw [hds] at hread; cases hread
      | ok ds =>
          rw [hds, Except.toOption, Option.map_some, Option.some.injEq,
            List.map_eq_singleton_iff] at hread
          obtain ⟨d, hd, hedges⟩ := hread
          obtain ⟨hthird, hfourth⟩ := Prod.mk.inj hedges
          have h := declarationsOf_eq_ok.2 ⟨ts, htokens, hds⟩
          obtain ⟨ts', htokens', hall⟩ := goesTo_of_declarationsOf h
          obtain rfl : ts = ts' := Except.ok.inj (htokens.symm.trans htokens')
          have hkeeps := byScenario_single hbodies hd hall
          exact ⟨ds, d, h, hd, hkeeps.2 2 _ "A" rfl ⟨_, rfl⟩, hthird, hfourth⟩

/-- An answer to a quoted name. -/
def quotedReturn : String := "use_case Relay \x7b\n  when User calls\n    A returns to \"B\"\n\x7d"

/-- Quotes make the fourth word a part of the phrase, so the answer has no target. -/
theorem goesTo_not_of_quoted :
    ¬ ∀ source ds, declarationsOf source = .ok ds → ∃ ts, tokensOf source = .ok ts ∧
      List.Forall₂ (ByScenario fun lines d => ∀ i line target, lines[i + 1]? = some line →
          ReturnsTo line (.plain target) ∨ ReturnsTo line (.quoted target) → d.GoesTo i target)
        (useCaseBodies ts) ((ds.map (·.value)).flatMap Declaration.useCaseDecls) := by
  intro hall
  have hread : ((tokensOf quotedReturn).toOption.map fun ts => ((useCaseBodies ts).map linesOf,
      (declarationsOfTokens ts).toOption.map fun ds =>
        (((ds.map (·.value)).flatMap Declaration.useCaseDecls).flatMap (·.scenarios)).map fun d =>
          d.actions.map fun a => visitedBy a.value))
      = some ([[[.keyword .when, .identifier "User", .identifier "calls"],
          [.identifier "A", .identifier "returns", .identifier "to", .stringLiteral "B"]]],
        some [[["A"]]]) := by decide +kernel
  cases htokens : tokensOf quotedReturn with
  | error e => rw [htokens] at hread; cases hread
  | ok ts =>
      rw [htokens, Except.toOption, Option.map_some, Option.some.injEq, Prod.mk.injEq] at hread
      obtain ⟨hbodies, hread⟩ := hread
      cases hds : declarationsOfTokens ts with
      | error d => rw [hds] at hread; cases hread
      | ok ds =>
          rw [hds, Except.toOption, Option.map_some, Option.some.injEq,
            List.map_eq_singleton_iff] at hread
          obtain ⟨d, hd, hactions⟩ := hread
          obtain ⟨a, ha, hvisited⟩ := List.map_eq_singleton_iff.1 hactions
          obtain ⟨ts', htokens', hsource⟩ :=
            hall quotedReturn ds (declarationsOf_eq_ok.2 ⟨ts, htokens, hds⟩)
          obtain rfl : ts = ts' := Except.ok.inj (htokens.symm.trans htokens')
          have hgoes := byScenario_single hbodies hd hsource 0 _ "B" rfl (.inr ⟨_, rfl⟩)
          obtain ⟨domain, phrase, htarget⟩ := hgoes.record
          rw [ha, List.getElem?_cons_zero, Option.map_some, Option.some.injEq] at htarget
          rw [htarget] at hvisited
          cases hvisited

end ArchLang
