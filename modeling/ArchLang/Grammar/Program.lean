import ArchLang.Diagnostic
import ArchLang.Grammar.Architecture
import ArchLang.Grammar.Entity
import ArchLang.Grammar.UseCase

/-!
# Whole programs

A source file is a list of declarations.  Behind the keyword of a declaration there is no way back:
the first thing that does not fit ends the reading, and one diagnostic tells what it was.

* `declaration`, `declarations` complete the grammar.
* `Failure.diagnostic` makes the diagnostic.  When nothing but trivia is left the input is
  incomplete; otherwise a token is unexpected, and the primary label reaches from the start of the
  innermost committed construct to that token.
* `declarationsOfTokens` reads a token list.
-/

namespace ArchLang

namespace Grammar

open ArchLang.Parser

/-- The keywords that start a declaration. -/
def declarationKeywordOf : Token → Option Keyword
  | .keyword .when => none
  | .keyword .dataStores => none
  | .keyword k => some k
  | _ => none

/-- Read a declaration behind its keyword. -/
def declarationBody (start : Span) : Keyword → Parser (Located Declaration)
  | .actors => actorsBody start
  | .actor => actorBody start
  | .domains => domainsBody start
  | .domain => domainBody start
  | .services => servicesBody start
  | .service => serviceBody start
  | .exposure => exposureBody start
  | .arch => archBody start
  | _ => useCaseBody start

/-- Read one declaration.  Where none begins, the last of the forms, a use case, is named as the one
that was expected. -/
def declaration : Parser (Located Declaration) :=
  label .declaration do
    let opening ← label (.keyword .useCase) (token declarationKeywordOf)
    commit (declarationBody opening.span opening.value)

instance (start : Span) (k : Keyword) : Consumes (declarationBody start k) := by
  cases k <;> (unfold declarationBody; infer_instance)

instance : Consumes declaration := by unfold declaration; infer_instance

/-- Read declarations up to the end of the tokens. -/
def declarations : Parser (List (Located Declaration)) := do
  let found ← manyUntil Token.isTrivia atEnd declaration
  pure found.1

end Grammar

/-! ## From failures to diagnostics -/

/-- The span from the first token that is not trivia to the last, if there is any. -/
def extent? (tokens : Tokens) : Option Span :=
  match tokens.filter fun t => !t.value.isTrivia with
  | [] => none
  | first :: rest => some (first.span.union (rest.getLastD first).span)

/-- What would have fitted, the innermost construct first. -/
def expectation (expected : List Expected) : String :=
  if expected = [] then "unexpected token or end of input"
  else " → ".intercalate (expected.map fun what => "expected " ++ what.text)

/-- The tokens from `start` up to the first of `rest`, both ends included.  Both lists are what is
left of the same tokens; when `start` does not lie before `rest`, only the first of `rest`. -/
def examined (start rest : Tokens) : Tokens :=
  if rest.length < start.length then start.take (start.length - rest.length + 1) else rest.take 1

namespace Failure

/-- The diagnostic when nothing but trivia is left.  The label covers what was read since the start
of the innermost committed construct. -/
def incomplete (f : Failure) (tokens : Tokens) : Diagnostic :=
  let span := (extent? (f.start?.getD tokens)).or (extent? tokens)
  ((Diagnostic.error ("incomplete input: " ++ expectation f.expected)).setCode .incompleteInput
    |>.addLabel (span.getD .origin) "incomplete").setHelp
    "the input ended before this declaration was closed"

/-- The primary span of a failure at a token. -/
def unexpectedSpan (f : Failure) (tokens : Tokens) : Span :=
  (extent? (examined (f.start?.getD tokens) f.rest)).getD
    ((f.rest.head?.map (·.span)).getD .origin)

/-- The diagnostic of a failure at the token `found`.  A second label marks that token, unless the
first one covers just it. -/
def unexpected (f : Failure) (tokens : Tokens) (found : Located Token) : Diagnostic :=
  let span := f.unexpectedSpan tokens
  let d := ((Diagnostic.error ("unexpected token: " ++ expectation f.expected)).setCode
    .unexpectedToken |>.addLabel span "unexpected token").setHelp
    "check syntax and token positioning"
  if found.span = span then d
  else d.addSecondary found.span ("found `" ++ found.value.display ++ "`")

/-- The diagnostic of a failure to read `tokens`. -/
def diagnostic (f : Failure) (tokens : Tokens) : Diagnostic :=
  match f.rest.find? fun t => !t.value.isTrivia with
  | none => f.incomplete tokens
  | some found => f.unexpected tokens found

end Failure

/-- Read a token list as declarations, or say what did not fit. -/
def declarationsOfTokens (tokens : Tokens) : Except Diagnostic (List (Located Declaration)) :=
  match Grammar.declarations tokens with
  | .done found _ => .ok found
  | .failed f => .error (f.diagnostic tokens)

end ArchLang
