import ArchLang.Configuration

/-!
# Command-line arguments

One input file and four options with a value each; `--help` and `--version` end the reading.

An option takes its value from the same argument (`--output=x`, `-ox`, `-o=x`) or from the next
one, which must not look like an option.  Short options may share a dash.  Behind `--` everything is
a file name.

A value that came in an argument of its own is checked late: only when the next option or file name
begins, or at the end.  So an argument that is not known at all is reported before a value in front
of it that does not fit.

* `Arguments.parse` reads a list of arguments.
* `ArgumentError` says why they were rejected, or that help or the version was asked for.
-/

namespace ArchLang

/-- What the command line asks for. -/
structure Arguments where
  input : String
  output : String
  format : ExportFormat
  config : Option String
  logLevel : String
  deriving DecidableEq, Repr

/-- Why arguments give nothing to run. -/
inductive ArgumentError where
  | unknownArgument
  | invalidValue
  | argumentConflict
  | tooManyValues
  | missingRequiredArgument
  | displayHelp
  | displayVersion
  deriving DecidableEq, Repr

/-- The name of an error. -/
def ArgumentError.name : ArgumentError → String
  | unknownArgument => "UnknownArgument"
  | invalidValue => "InvalidValue"
  | argumentConflict => "ArgumentConflict"
  | tooManyValues => "TooManyValues"
  | missingRequiredArgument => "MissingRequiredArgument"
  | displayHelp => "DisplayHelp"
  | displayVersion => "DisplayVersion"

namespace Arguments

/-! ## Options -/

/-- The options that take a value. -/
inductive ValueOption where
  | output
  | format
  | config
  | logLevel
  deriving DecidableEq, Repr

/-- An option or a request that ends the reading. -/
inductive Flag where
  | option (o : ValueOption)
  | help
  | version
  deriving DecidableEq, Repr

/-- The flag with a long name. -/
def longFlag? (name : String) : Option Flag :=
  if name = "output" then some (.option .output)
  else if name = "format" then some (.option .format)
  else if name = "config" then some (.option .config)
  else if name = "log-level" then some (.option .logLevel)
  else if name = "help" then some .help
  else if name = "version" then some .version
  else none

/-- The flag with a letter. -/
def shortFlag? : Char → Option Flag
  | 'o' => some (.option .output)
  | 'f' => some (.option .format)
  | 'c' => some (.option .config)
  | 'h' => some .help
  | 'V' => some .version
  | _ => none

/-- The output format with this name. -/
def formatOf? (text : String) : Option ExportFormat :=
  if text = "json" then some .json else if text = "flows" then some .flows else none

/-! ## What was read so far -/

/-- The values read so far.  `pending` is an option whose value was not checked yet, or did not come
yet. -/
structure Draft where
  input : Option String := none
  output : Option String := none
  format : Option ExportFormat := none
  config : Option String := none
  logLevel : Option String := none
  pending : Option (ValueOption × Option String) := none
  deriving DecidableEq, Repr

namespace Draft

/-- A value for an option that has none yet. -/
def once {α : Type} (known : Option α) (value : α) : Except ArgumentError (Option α) :=
  match known with
  | some _ => .error .argumentConflict
  | none => .ok (some value)

/-- Check a value and enter it: an option comes once, and a format must be known. -/
def enter (d : Draft) (o : ValueOption) (value : String) : Except ArgumentError Draft :=
  match o with
  | .output => (once d.output value).map fun v => { d with output := v }
  | .config => (once d.config value).map fun v => { d with config := v }
  | .logLevel => (once d.logLevel value).map fun v => { d with logLevel := v }
  | .format =>
    match d.format, formatOf? value with
    | some _, _ => .error .argumentConflict
    | none, some f => .ok { d with format := some f }
    | none, none => .error .invalidValue

/-- Check the pending option, if there is one. -/
def settle (d : Draft) : Except ArgumentError Draft :=
  match d.pending with
  | none => .ok d
  | some (_, none) => .error .invalidValue
  | some (o, some value) => { d with pending := none }.enter o value

/-- Begin with a flag that has no value yet. -/
def begin (d : Draft) (flag : Flag) : Except ArgumentError Draft := do
  let d ← d.settle
  match flag with
  | .option o => pure { d with pending := some (o, none) }
  | .help => .error .displayHelp
  | .version => .error .displayVersion

/-- An option with a value in the same argument. -/
def attach (d : Draft) (o : ValueOption) (value : String) : Except ArgumentError Draft := do
  let d ← d.settle
  d.enter o value

/-- A file name; there is room for one. -/
def file (d : Draft) (name : String) : Except ArgumentError Draft :=
  match d.input with
  | some _ => .error .unknownArgument
  | none => d.settle.map fun d => { d with input := some name }

end Draft

/-! ## Reading -/

/-- Read a long option behind its two dashes. -/
def readLong (d : Draft) (cs : List Char) : Except ArgumentError Draft :=
  let value? := match cs.dropWhile (· ≠ '=') with
    | [] => none
    | _ :: rest => some (String.ofList rest)
  match longFlag? (String.ofList (cs.takeWhile (· ≠ '='))), value? with
  | none, _ => .error .unknownArgument
  | some flag, none => d.begin flag
  | some (.option o), some value => d.attach o value
  | some _, some _ => .error .tooManyValues

/-- Read short options behind their dash. -/
def readShort (d : Draft) : List Char → Except ArgumentError Draft
  | [] => .ok d
  | c :: rest =>
    match shortFlag? c with
    | none => .error .unknownArgument
    | some (.option o) =>
      match rest with
      | [] => d.begin (.option o)
      | '=' :: value => d.attach o (String.ofList value)
      | value => d.attach o (String.ofList value)
    | some flag => (d.begin flag).bind fun d => readShort d rest

/-- Read a value for the option that waits for one, or a file name. -/
def readPlain (d : Draft) (text : String) : Except ArgumentError Draft :=
  match d.pending with
  | some (o, none) => .ok { d with pending := some (o, some text) }
  | _ => d.file text

/-- Read one argument that is not `--`. -/
def readOne (d : Draft) (text : String) : Except ArgumentError Draft :=
  match text.toList with
  | '-' :: '-' :: name => readLong d name
  | '-' :: c :: rest => readShort d (c :: rest)
  | _ => readPlain d text

/-- Read all arguments. -/
def readAll (d : Draft) : List String → Except ArgumentError Draft
  | [] => .ok d
  | text :: rest =>
    if text = "--" then rest.foldlM Draft.file d
    else (readOne d text).bind fun d => readAll d rest

/-- What the arguments ask for, with `model.json`, JSON and the level `info` as defaults. -/
def parse (argv : List String) : Except ArgumentError Arguments := do
  let d ← readAll {} argv
  let d ← d.settle
  match d.input with
  | none => .error .missingRequiredArgument
  | some input =>
    pure
      { input := input
        output := d.output.getD "model.json"
        format := d.format.getD .json
        config := d.config
        logLevel := d.logLevel.getD "info" }

end Arguments

end ArchLang
