import ArchLang.Span

/-!
# Diagnostics

A `Diagnostic` is one finding of the front end: how bad it is, a stable code, a message, labels
that point into the source, and a hint.  A `Rejection` is a list of them.

* `Diagnostic.error`, `Diagnostic.warning` and the functions behind them build a diagnostic.
* `Diagnostic.display` is its one-line text, `Rejection.display` that of a whole error.
* `Rejection.check` fails exactly when one of the diagnostics is an error.
-/

namespace ArchLang

/-- How bad a finding is. -/
inductive Severity where
  | error
  | warning
  deriving DecidableEq, Repr

/-- The word for a severity. -/
def Severity.name : Severity → String
  | error => "error"
  | warning => "warning"

/-- The stable codes: `E0xx` for the lexer, `E1xx` for the reader of declarations. -/
inductive DiagnosticCode where
  /-- a string literal that its line does not close -/
  | unterminatedString
  /-- a character at which no token begins -/
  | unexpectedCharacter
  /-- a backslash before a character that it cannot escape -/
  | invalidEscape
  /-- a token that does not fit -/
  | unexpectedToken
  /-- the end of the text inside a declaration -/
  | incompleteInput
  deriving DecidableEq, Repr

namespace DiagnosticCode

/-- The code as it is shown. -/
def name : DiagnosticCode → String
  | unterminatedString => "E001"
  | unexpectedCharacter => "E002"
  | invalidEscape => "E003"
  | unexpectedToken => "E100"
  | incompleteInput => "E101"

/-- What the code stands for. -/
def description : DiagnosticCode → String
  | unterminatedString => "unterminated string literal"
  | unexpectedCharacter => "unexpected character"
  | invalidEscape => "invalid escape sequence"
  | unexpectedToken => "unexpected token"
  | incompleteInput => "incomplete input"

/-- The code with this name. -/
def ofName? (text : String) : Option DiagnosticCode :=
  [unterminatedString, unexpectedCharacter, invalidEscape, unexpectedToken, incompleteInput].find?
    fun code => code.name = text

theorem ofName?_name (code : DiagnosticCode) : ofName? code.name = some code := by
  cases code <;> decide

end DiagnosticCode

/-- A remark at a place of the source. -/
structure Label where
  span : Span
  message : String
  /-- whether the label marks the fault itself and not something around it -/
  isPrimary : Bool
  deriving DecidableEq, Repr

/-- One finding of the front end. -/
structure Diagnostic where
  severity : Severity
  code : Option DiagnosticCode
  message : String
  labels : List Label
  help : Option String
  deriving DecidableEq, Repr

namespace Diagnostic

/-- An error with nothing but a message. -/
def error (message : String) : Diagnostic := ⟨.error, none, message, [], none⟩

/-- A warning with nothing but a message. -/
def warning (message : String) : Diagnostic := ⟨.warning, none, message, [], none⟩

/-- The same finding under a code. -/
def setCode (d : Diagnostic) (code : DiagnosticCode) : Diagnostic := { d with code := some code }

/-- The same finding with one more primary label. -/
def addLabel (d : Diagnostic) (span : Span) (message : String) : Diagnostic :=
  { d with labels := d.labels ++ [⟨span, message, true⟩] }

/-- The same finding with one more secondary label. -/
def addSecondary (d : Diagnostic) (span : Span) (message : String) : Diagnostic :=
  { d with labels := d.labels ++ [⟨span, message, false⟩] }

/-- The same finding with a hint. -/
def setHelp (d : Diagnostic) (help : String) : Diagnostic := { d with help := some help }

/-- The place of the first primary label. -/
def primaryPlace (d : Diagnostic) : Option Span := (d.labels.find? (·.isPrimary)).map (·.span)

/-- Whether the finding is an error. -/
def isError (d : Diagnostic) : Bool := d.severity = .error

/-- The one-line text: severity, code in brackets if there is one, message. -/
def display (d : Diagnostic) : String :=
  match d.code with
  | some code => d.severity.name ++ "[" ++ code.name ++ "]: " ++ d.message
  | none => d.severity.name ++ ": " ++ d.message

end Diagnostic

/-- The findings that made the front end give up. -/
structure Rejection where
  diagnostics : List Diagnostic
  deriving DecidableEq, Repr

namespace Rejection

/-- The one-line text: the first finding and how many more there are. -/
def display (e : Rejection) : String :=
  match e.diagnostics with
  | [] => ""
  | [only] => only.display
  | first :: rest => first.display ++ " (+" ++ toString rest.length ++ " more)"

/-- Fails with all findings as soon as one of them is an error. -/
def check (found : List Diagnostic) : Except Rejection Unit :=
  if found.any Diagnostic.isError then .error ⟨found⟩ else .ok ()

end Rejection

end ArchLang
