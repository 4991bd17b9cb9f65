import ArchLang.Grammar.Line
import ArchLang.Grammar.Word

/-!
# Use cases

A use case is a list of scenarios, a scenario a trigger line and the action lines below it.  Line
ends count here: a line is closed by a line end, by the closing brace of the use case or by the end
of the text.

* `words` reads the words of a line and its end.
* `trigger`, `action` read a line and find its form; a line without one is rejected from its
  first word on.
* `useCaseBody` reads what stands behind `use_case`.
-/

namespace ArchLang

namespace Grammar

open ArchLang.Parser

/-! ## Lines -/

/-- The word that a token is inside a line; reserved words are plain words there. -/
def wordOf : Token → Option Word
  | .identifier text => some (.plain text)
  | .number digits => some (.plain digits)
  | .percentage digits => some (.plain (digits ++ "%"))
  | .stringLiteral text => some (.quoted text)
  | .keyword k => some (.plain k.spelling)
  | _ => none

/-- Read one word, and the blanks before it. -/
def lineWord : Parser (Located Word) := do
  blanks
  label .word (token wordOf)

instance : Consumes lineWord := by unfold lineWord; infer_instance

/-- What closes a line; only a line end is used up. -/
def endOfLine : Parser Unit :=
  label .endOfLine
    (orElse (lineBreak >>= fun _ => pure ())
      (orElse (lookahead (mark .rightBrace >>= fun _ => pure ())) atEnd))

instance : Keeps endOfLine := by unfold endOfLine; infer_instance

/-- Read the words of a line, at least one, and the end of the line. -/
def words : Parser (List (Located Word)) := do
  let first ← lineWord
  let others ← many lineWord
  blanks
  endOfLine
  pure (first :: others)

instance : Consumes words := by unfold words; infer_instance

/-- The least span over words. -/
def spanOf (line : List (Located Word)) : Span :=
  (Span.unionAll? (line.map (·.span))).getD .origin

/-- The form of a line over its span; a line without a form is rejected from `start`. -/
def classified {α : Type} (start : Tokens) (what : Expected) (span : Span) :
    Option α → Parser (Located α)
  | some form => pure ⟨form, span⟩
  | none => reject start what

instance {α : Type} (start : Tokens) (what : Expected) (span : Span) (form : Option α) :
    Keeps (classified start what span form) := by
  cases form <;> (unfold classified; infer_instance)

/-- Read the words of a trigger behind `when`. -/
def triggerBody (start : Span) : Parser (Located (Trigger (List String))) := commit do
  let first ← here
  let line ← words
  classified first .triggerForm (start.union (spanOf line)) (triggerOf (line.map (·.value)))

instance (start : Span) : Consumes (triggerBody start) := by unfold triggerBody; infer_instance

/-- Read a trigger line. -/
def trigger : Parser (Located (Trigger (List String))) := do
  let start ← keyword .when
  triggerBody start

instance : Consumes trigger := by unfold trigger; infer_instance

/-- Read an action line. -/
def action : Parser (Located (Action (List String))) := do
  let first ← here
  let line ← words
  classified first .actionForm (spanOf line) (actionOf (line.map (·.value)))

instance : Consumes action := by unfold action; infer_instance

/-! ## Scenarios -/

/-- What ends a scenario: the closing brace or the next trigger, neither of them read. -/
def scenarioEnd : Parser Unit :=
  lookahead (orElse (mark .rightBrace >>= fun _ => pure ()) (keyword .when >>= fun _ => pure ()))

instance : Keeps scenarioEnd := by unfold scenarioEnd; infer_instance

/-- Read a trigger line and the action lines below it. -/
def scenario : Parser ScenarioDecl := do
  let opening ← trigger
  let below ← manyUntil Token.isTrivia scenarioEnd action
  pure ⟨opening, below.1⟩

instance : Consumes scenario := by unfold scenario; infer_instance

/-- Read a use case behind `use_case`. -/
def useCaseBody (start : Span) : Parser (Located Declaration) := do
  gap1
  let name ← anyName
  gap
  let body ← block scenario
  pure ⟨.useCase ⟨name, body.1⟩, start.union body.2⟩

instance (start : Span) : Consumes (useCaseBody start) := by unfold useCaseBody; infer_instance

end Grammar

end ArchLang
