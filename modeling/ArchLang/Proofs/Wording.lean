import ArchLang.Proofs.EdgeNames
import Mathlib.Data.List.Basic
import Mathlib.Data.List.Forall2
import Mathlib.Tactic.Common

/-!
# Lines keep their words

A trigger or an action is one line of a use case, and its record holds the words of that line, split
over fields that depend on the form that was found.  Read back field by field, in the order of the
line, they are the words again.

* `Trigger.words`, `Action.words` read a record back.
* `IsLineOf line record` — the line says what the record says, word by word.
* `words_of_triggerOf`, `words_of_actionOf` — the form of a line keeps its words.
* **`lines_of_declarationsOf`** — the lines of every use case of a source are the lines of its
  records, one for each, in order.
-/

namespace ArchLang

open ArchLang.Parser ArchLang.Grammar

/-! ## Records read back -/

/-- A text in quotes. -/
def inQuotes (text : String) : String := "\"" ++ text ++ "\""

/-- The words of a trigger, in the order of its line. -/
def Trigger.words : Trigger (List String) → List String
  | .external actor verb phrase => actor :: verb :: phrase
  | .event e => [inQuotes e]
  | .listens domain e => [domain, "listens", inQuotes e]

/-- The words of an action, in the order of its line. -/
def Action.words : Action (List String) → List String
  | .internal domain verb connector phrase => domain :: verb :: (connector.toList ++ phrase)
  | .asks domain target connector phrase =>
    domain :: "asks" :: target :: (connector.toList ++ phrase)
  | .notifies domain e => [domain, "notifies", inQuotes e]
  | .returns domain (some target) phrase => domain :: "returns" :: "to" :: target :: phrase
  | .returns domain none phrase => domain :: "returns" :: phrase

/-! ## Lines -/

/-- The line says what the record says: a trigger line behind its `when`, an action line from its
first word on. -/
inductive IsLineOf : List Token → LineRecord → Prop where
  | trigger {rest : List Token} {t : Trigger (List String)} :
      rest.map Token.display = t.words → IsLineOf (.keyword .when :: rest) (.trigger t)
  | action {line : List Token} {a : Action (List String)} : line.head? ≠ some (.keyword .when) →
      line.map Token.display = a.words → IsLineOf line (.action a)

/-! ## The form of a line keeps its words -/

lemma words_of_splitConnector (rest : List Word) :
    (splitConnector rest).1.toList ++ (splitConnector rest).2 = rest.map Word.inPhrase := by
  fun_cases splitConnector rest with
  | case1 => rfl
  | case2 => rfl
  | case3 => rfl

lemma words_of_triggerOf {line : List Word} {t : Trigger (List String)}
    (h : triggerOf line = some t) : t.words = line.map Word.inPhrase := by
  revert h
  fun_cases triggerOf line with
  | case1 => rintro ⟨⟩; rfl
  | case2 => rintro ⟨⟩; rfl
  | case3 => rintro ⟨⟩; rfl
  | case4 => rintro ⟨⟩; rfl
  | case5 => rintro ⟨⟩

lemma words_of_asksOf {domain : String} {rest : List Word} {a : Action (List String)}
    (h : asksOf domain rest = some a) :
    a.words = domain :: "asks" :: rest.map Word.inPhrase := by
  revert h
  fun_cases asksOf domain rest with
  | case1 target rest =>
      rintro ⟨⟩
      rw [Action.words, words_of_splitConnector]
      rfl
  | case2 => rintro ⟨⟩

lemma words_of_notifiesOf {domain : String} {rest : List Word} {a : Action (List String)}
    (h : notifiesOf domain rest = some a) :
    a.words = domain :: "notifies" :: rest.map Word.inPhrase := by
  revert h
  fun_cases notifiesOf domain rest with
  | case1 => rintro ⟨⟩; rfl
  | case2 => rintro ⟨⟩

lemma words_of_returnsOf (domain : String) (rest : List Word) :
    (returnsOf domain rest).words = domain :: "returns" :: rest.map Word.inPhrase := by
  fun_cases returnsOf domain rest with
  | case1 => rfl
  | case2 => rfl
  | case3 => rfl

lemma words_of_actionOf {line : List Word} {a : Action (List String)}
    (h : actionOf line = some a) : a.words = line.map Word.inPhrase := by
  revert h
  fun_cases actionOf line with
  | case1 => exact words_of_asksOf
  | case2 => exact words_of_notifiesOf
  | case3 domain rest =>
      rintro ⟨⟩
      exact words_of_returnsOf domain rest
  | case4 domain verb rest =>
      rintro ⟨⟩
      rw [internalOf, Action.words, words_of_splitConnector]
      rfl
  | case5 => rintro ⟨⟩

lemma display_of_wordOf {t : Token} {w : Word} (h : wordOf t = some w) :
    t.display = w.inPhrase := by
  cases t <;> cases h <;> rfl

lemma display_of_map_wordOf {line : List Token} {ws : List Word}
    (h : line.map wordOf = ws.map some) : line.map Token.display = ws.map Word.inPhrase := by
  induction line generalizing ws with
  | nil =>
      obtain rfl := List.map_eq_nil_iff.1 h.symm
      rfl
  | cons t line ih =>
      obtain ⟨w, ws, rfl, hw, hws⟩ := List.map_eq_cons_iff.1 h.symm
      rw [List.map_cons, List.map_cons, display_of_wordOf hw.symm, ih hws.symm]

/-- A line says what its form says. -/
lemma isLineOf_of_isFormOf {line : List Token} {record : LineRecord} (h : IsFormOf line record) :
    IsLineOf line record := by
  cases h with
  | trigger hwords hform =>
      exact .trigger ((display_of_map_wordOf hwords).trans (words_of_triggerOf hform).symm)
  | action hwhen hwords hform =>
      exact .action hwhen ((display_of_map_wordOf hwords).trans (words_of_actionOf hform).symm)

/-- The lines of a body are those of the records of a use case, one for each, in order. -/
def IsBodyOf (body : Tokens) (u : UseCaseDecl) : Prop :=
  List.Forall₂ IsLineOf (linesOf body) u.records

/-! ## Whole programs -/

lemma isBodyOf_of_declarations {ts r : Tokens} {ds : List (Located Declaration)}
    (h : declarations ts = .done ds r) :
    List.Forall₂ IsBodyOf (useCaseBodies ts) (ds.flatMap fun d => d.value.useCaseDecls) :=
  (formsOf_of_declarations h).imp fun _ _ hforms => hforms.imp fun _ _ => isLineOf_of_isFormOf

/-- **Lines keep their words.**  The use cases of a source that is read are its use case bodies in
order, and each line of a body is told by one record, in order and word by word. -/
theorem lines_of_declarationsOf {source : String} {ds : List (Located Declaration)}
    (h : declarationsOf source = .ok ds) :
    ∃ ts, tokensOf source = .ok ts ∧ List.Forall₂ IsBodyOf (useCaseBodies ts)
      ((ds.map (·.value)).flatMap Declaration.useCaseDecls) := by
  obtain ⟨ts, htokens, hread⟩ := declarationsOf_eq_ok.1 h
  refine ⟨ts, htokens, ?_⟩
  rw [List.flatMap_map]
  exact isBodyOf_of_declarations (declarationsOfTokens_eq_ok.1 hread)

/-- A use case with a comment, an empty line, keywords and quotes inside of lines, and every form of
a line. -/
def deskSource : String :=
  "use_case Sale \x7b // \x7b\n  when Customer pays 50% \"up front\" // cash\n\n" ++
    "  Desk asks Till to actor\n  Till returns to Desk a slip\n  Desk returns slip\n" ++
    "  Desk notifies \"Paid\"\n  Desk prints when \"done\"\n  when \"Night\"\n" ++
    "  when Till listens \"Paid\" \x7d"

/-- Its eight lines are the words of its eight records. -/
theorem lines_of_declarationsOf_deskSource :
    ∃ ts ds, declarationsOf deskSource = .ok ds ∧ tokensOf deskSource = .ok ts ∧
      (useCaseBodies ts).map (fun body => (linesOf body).map (·.map Token.display))
        = [[["when", "Customer", "pays", "50%", "\"up front\""],
          ["Desk", "asks", "Till", "to", "actor"], ["Till", "returns", "to", "Desk", "a", "slip"],
          ["Desk", "returns", "slip"], ["Desk", "notifies", "\"Paid\""],
          ["Desk", "prints", "when", "\"done\""], ["when", "\"Night\""],
          ["when", "Till", "listens", "\"Paid\""]]] ∧
      List.Forall₂ IsBodyOf (useCaseBodies ts)
        ((ds.map (·.value)).flatMap Declaration.useCaseDecls) := by
  have hread : (tokensOf deskSource).toOption.map (fun ts => ((declarationsOfTokens ts).isOk,
      (useCaseBodies ts).map fun body => (linesOf body).map (·.map Token.display)))
      = some (true, [[["when", "Customer", "pays", "50%", "\"up front\""],
        ["Desk", "asks", "Till", "to", "actor"], ["Till", "returns", "to", "Desk", "a", "slip"],
        ["Desk", "returns", "slip"], ["Desk", "notifies", "\"Paid\""],
        ["Desk", "prints", "when", "\"done\""], ["when", "\"Night\""],
        ["when", "Till", "listens", "\"Paid\""]]]) := by decide +kernel
  cases htokens : tokensOf deskSource with
  | error e => rw [htokens] at hread; cases hread
  | ok ts =>
      rw [htokens, Except.toOption, Option.map_some, Option.some.injEq, Prod.mk.injEq] at hread
      cases hds : declarationsOfTokens ts with
      | error d => rw [hds] at hread; cases hread.1
      | ok ds =>
          have h := declarationsOf_eq_ok.2 ⟨ts, htokens, hds⟩
          obtain ⟨ts', htokens', hbodies⟩ := lines_of_declarationsOf h
          obtain rfl : ts = ts' := Except.ok.inj (htokens.symm.trans htokens')
          exact ⟨ts, ds, h, rfl, hread.2, hbodies⟩

end ArchLang
