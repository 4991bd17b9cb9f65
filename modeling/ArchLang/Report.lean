import ArchLang.Configuration

/-!
# Reports

A report is an error as a user sees it: a message, a code, a hint, and labels that point into the
source by offset and length.  A rejected source gives one report per diagnostic, every other error a
single report without labels.

* `ReportLabel.ofLabel` cuts a label down to the length of the source, so that no report points
  behind its end: `offset_add_length_le`.
* `CompileError.reports` makes the reports of an error.
-/

namespace ArchLang

/-- A remark at a place of the source, as an offset and a length. -/
structure ReportLabel where
  offset : Nat
  length : Nat
  message : String
  isPrimary : Bool
  deriving DecidableEq, Repr

/-- An error as a user sees it. -/
structure Report where
  message : String
  code : Option String
  severity : Severity
  help : Option String
  labels : List ReportLabel
  /-- the text that the labels point into -/
  source : Option String
  /-- the message of the error behind this one -/
  cause : Option String
  deriving DecidableEq, Repr

/-- A label cut down to a source of `size` bytes: the start to at most the size, the end to between
that start and the size. -/
def ReportLabel.ofLabel (size : Nat) (l : Label) : ReportLabel :=
  let start := min l.span.start size
  let stop := max start (min l.span.stop size)
  ⟨start, stop - start, l.message, l.isPrimary⟩

/-- No label reaches behind the source. -/
theorem ReportLabel.offset_add_length_le (size : Nat) (l : Label) :
    (ofLabel size l).offset + (ofLabel size l).length ≤ size := by
  simp only [ofLabel]; omega

/-- The report of a diagnostic about a source. -/
def Report.ofDiagnostic (source : String) (d : Diagnostic) : Report where
  message := d.message
  code := d.code.map DiagnosticCode.name
  severity := d.severity
  help := d.help
  labels := d.labels.map (ReportLabel.ofLabel source.utf8ByteSize)
  source := some source
  cause := none

/-- The reports of an error. -/
def CompileError.reports : CompileError → List Report
  | rejected error source => error.diagnostics.map (Report.ofDiagnostic source)
  | io message =>
    [{ message := (io message).display
       code := some "archflow::io"
       severity := .error
       help := none
       labels := []
       source := none
       cause := some message }]

end ArchLang
