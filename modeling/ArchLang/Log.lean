/-!
# Log records

A record has a level, the phase that it comes from, a fixed message and named values.  Records are
data here: the functions that report something give back lists of them.

* `LogRecord` is a record, `LogRecord.target` the name of its phase in a log.
-/

namespace ArchLang

/-- How important a record is. -/
inductive LogLevel where
  | trace
  | debug
  | info
  | warn
  deriving DecidableEq, Repr

/-- The word for a level. -/
def LogLevel.name : LogLevel → String
  | trace => "TRACE"
  | debug => "DEBUG"
  | info => "INFO"
  | warn => "WARN"

/-- The phase of a run that a record comes from. -/
inductive Phase where
  /-- declarations become entities -/
  | entities
  /-- entities of one name are merged -/
  | merging
  /-- scenarios become flows -/
  | flows
  /-- events find their publishers -/
  | events
  /-- a model is put together -/
  | assembly
  /-- a source text is compiled, a model is exported -/
  | compilation
  /-- a model is written as JSON -/
  | json
  /-- the command runs -/
  | command
  /-- a configuration is chosen and read -/
  | configuration
  deriving DecidableEq, Repr

/-- The name of a phase in a log. -/
def Phase.target : Phase → String
  | entities => "archflow_parser::normalize"
  | merging => "archflow_parser::merge"
  | flows => "archflow_parser::resolve"
  | events => "archflow_parser::correlate"
  | assembly => "archflow_parser::assemble"
  | compilation => "archflow"
  | json => "archflow::export::json"
  | command => "archflow_cli"
  | configuration => "archflow_cli::config"

/-- One thing that was reported. -/
structure LogRecord where
  level : LogLevel
  phase : Phase
  message : String
  fields : List (String × String)
  deriving DecidableEq, Repr

/-- The name under which a record appears in a log. -/
def LogRecord.target (r : LogRecord) : String := r.phase.target

end ArchLang
