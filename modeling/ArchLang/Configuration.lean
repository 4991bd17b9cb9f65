import ArchLang.Assembly.Program
import ArchLang.Export.FlowListing
import ArchLang.Export.ModelJson

/-!
# Configurations and what they run

A `Configuration` holds the two policies of an assembly and the layout of the JSON output.

* `Configuration.compile` compiles a source text under it.
* `Configuration.render` writes a model in an `ExportFormat`.
* `CompileError` says why no output came about.
-/

namespace ArchLang

/-- How programs are compiled and written. -/
structure Configuration extends Policies where
  /-- whether JSON is written one member a line -/
  pretty : Bool := true
  deriving DecidableEq, Repr

/-- What a model can be written as. -/
inductive ExportFormat where
  | json
  | flows
  deriving DecidableEq, Repr

/-- Why a program could not be compiled. -/
inductive CompileError where
  /-- a file could not be read or written -/
  | io (message : String)
  /-- the front end rejected a source text -/
  | rejected (error : Rejection) (source : String)
  deriving DecidableEq, Repr

/-- The one-line text of an error. -/
def CompileError.display : CompileError → String
  | io message => "I/O error: " ++ message
  | rejected error _ => error.display

namespace Configuration

/-- Compile a source text. -/
def compile (c : Configuration) (source : String) : Except CompileError Model :=
  match Model.ofSource c.toPolicies source with
  | .ok m => .ok m
  | .error e => .error (.rejected e source)

/-- Write a model. -/
def render (c : Configuration) (format : ExportFormat) (m : Model) : String :=
  match format with
  | .json => m.jsonText c.pretty
  | .flows => m.flowListing

/-- Compile a source text and write its model. -/
def produce (c : Configuration) (format : ExportFormat) (source : String) :
    Except CompileError String :=
  match c.compile source with
  | .ok m => .ok (c.render format m)
  | .error e => .error e

end Configuration

end ArchLang
