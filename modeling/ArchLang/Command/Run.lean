import ArchLang.Command.Arguments
import ArchLang.Command.FileStore
import ArchLang.Log
import ArchLang.Toml.Settings

/-!
# Running the command

A run chooses a configuration, reads the input, compiles it, and writes the output.  It either gives
a store in which exactly the output has changed, or an error; an error leaves no trace.

The configuration comes from one file: the one that the arguments name, otherwise the local one if
it is there, otherwise the one of the platform if it is there.  A file that was chosen has to be
good: no other one takes its place.  Without any file the defaults hold.

What a file says is for a `ConfigReader` to find out, which a run takes as a parameter.  The program
runs with `Configuration.reader`; nothing else here depends on how the texts are written.

* `Environment.source` chooses the file, `Environment.configuration` reads it.
* `Environment.run` is the whole run, `Environment.records` what it reports.
-/

namespace ArchLang

/-- What a run finds: files, and the path of the platform's configuration file. -/
structure Environment where
  store : FileStore
  platformConfig : String

/-- A reader of configuration files: what a text sets, or why it sets nothing, where `none` leaves
the words open. -/
abbrev ConfigReader := String → Except (Option String) Configuration

/-- The reader of TOML texts.  It leaves the words open. -/
def Configuration.reader : ConfigReader := fun text =>
  match Configuration.ofToml text with
  | some c => .ok c
  | none => .error none

/-- Where a configuration comes from. -/
inductive ConfigSource where
  | explicit (path : String)
  | localFile
  | platform
  | defaults
  deriving DecidableEq, Repr

/-- The path of a local configuration file. -/
def localConfig : String := "archflow/config.toml"

namespace Environment

/-- The store as it looks from the root, where the platform's file is found. -/
def fromRoot (env : Environment) : FileStore := { env.store with workingDirectory := [] }

/-- Choose the configuration file. -/
def source (env : Environment) (explicit : Option String) : ConfigSource :=
  match explicit with
  | some path => .explicit path
  | none =>
    if env.store.holds localConfig then .localFile
    else if env.fromRoot.holds env.platformConfig then .platform
    else .defaults

/-- An outcome of the file store as one of a run. -/
def liftFile {α : Type} (outcome : Except FileFault α) : Except CompileError α :=
  outcome.mapError fun fault => .io fault.message

/-- The error of a file that sets nothing; behind its path stands why. -/
def notParsed (path : String) : Option String → CompileError
  | some message => .io ("Failed to parse TOML configuration in " ++ path ++ ": " ++ message)
  | none => .io ("Failed to parse TOML configuration in " ++ path)

/-- Read a configuration from a file that is there. -/
def interpret (read : ConfigReader) (path content : String) : Except CompileError Configuration :=
  (read content).mapError (notParsed path)

/-- Read a configuration file. -/
def readConfig (read : ConfigReader) (store : FileStore) (path : String) :
    Except CompileError Configuration := do
  if store.holds path then
    let content ← liftFile (store.readText path)
    interpret read path content
  else .error (.io ("Missing configuration file: " ++ path))

/-- The configuration of a source. -/
def configurationOf (env : Environment) (source : ConfigSource)
    (read : ConfigReader := Configuration.reader) : Except CompileError Configuration :=
  match source with
  | .explicit path => readConfig read env.store path
  | .localFile => readConfig read env.store localConfig
  | .platform => readConfig read env.fromRoot env.platformConfig
  | .defaults => .ok {}

/-- The configuration of a run. -/
def configuration (env : Environment) (args : Arguments)
    (read : ConfigReader := Configuration.reader) : Except CompileError Configuration :=
  env.configurationOf (env.source args.config) read

/-- The output of a run: the text to be written. -/
def output (env : Environment) (args : Arguments) (read : ConfigReader := Configuration.reader) :
    Except CompileError String := do
  let c ← env.configuration args read
  let text ← liftFile (env.store.readText args.input)
  c.produce args.format text

/-- The store after a run. -/
def run (env : Environment) (args : Arguments) (read : ConfigReader := Configuration.reader) :
    Except CompileError FileStore := do
  let text ← env.output args read
  liftFile (env.store.write args.output text)

/-! ## What a run reports -/

/-- The word for a format in a record. -/
def formatWord : ExportFormat → String
  | .json => "Json"
  | .flows => "Flows"

/-- The start of a run. -/
def startRecord (args : Arguments) : LogRecord :=
  ⟨.info, .command, "Processing model",
    [("input_path", args.input), ("output_path", args.output),
      ("format", formatWord args.format)]⟩

/-- Where the configuration comes from. -/
def sourceRecords (env : Environment) : ConfigSource → List LogRecord
  | .explicit path =>
    [⟨.info, .configuration, "Loading configuration from explicit path", [("path", path)]⟩]
  | .localFile =>
    [⟨.info, .configuration, "Loading configuration from local path",
      [("path", localConfig)]⟩]
  | .platform =>
    [⟨.info, .configuration, "Loading configuration from system path",
      [("path", env.platformConfig)]⟩]
  | .defaults =>
    [⟨.debug, .configuration, "System configuration file not found",
        [("path", env.platformConfig)]⟩,
      ⟨.debug, .configuration,
        "No configuration file found, using default configuration", []⟩]

/-- A configuration that was read from a file. -/
def loadedRecords (source : ConfigSource) : Except CompileError Configuration → List LogRecord
  | .error _ => []
  | .ok c =>
    if source = .defaults then []
    else
      [⟨.debug, .configuration, "Configuration loaded",
        [("merge", c.merge.name), ("publishers", c.publishers.name),
          ("pretty", toString c.pretty)]⟩]

/-- The end of a run that wrote its output. -/
def endRecords {α : Type} (args : Arguments) : Except CompileError α → List LogRecord
  | .error _ => []
  | .ok _ =>
    [⟨.info, .command, "Model exported successfully", [("output_file", args.output)]⟩]

/-- What a run reports, compilation apart. -/
def records (env : Environment) (args : Arguments) (read : ConfigReader := Configuration.reader) :
    List LogRecord :=
  let source := env.source args.config
  startRecord args :: sourceRecords env source ++
    loadedRecords source (env.configurationOf source read) ++ endRecords args (env.run args read)

end Environment

end ArchLang
