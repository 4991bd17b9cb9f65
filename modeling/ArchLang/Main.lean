import ArchLang.Command.Run
import ArchLang.Report

/-!
# The command

The outer layer of the command line.  It takes a picture of the files that a run may look at, lets
`Environment.output` decide what is written, and writes it.
-/

namespace ArchLang

/-- The content of a file, if it can be read. -/
def readBytes (path : String) : IO (Option ByteArray) := do
  try
    let content ← IO.FS.readBinFile path
    pure (some content)
  catch _ => pure none

/-- The names in the text of a path. -/
def pathOf (text : String) : Path :=
  ((splitSlashes text.toList).filter (· ≠ [])).map String.ofList

/-- The environment of a run: the files that the arguments name and the places of configurations. -/
def snapshot (args : Arguments) : IO Environment := do
  let working := pathOf (← IO.currentDir).toString
  let home := (← IO.getEnv "HOME").getD ""
  let base := (← IO.getEnv "XDG_CONFIG_HOME").getD (home ++ "/.config")
  let platform := base ++ "/archflow/config.toml"
  let mut files : OrderedMap Path ByteArray := .empty
  for path in [args.input, localConfig, platform] ++ args.config.toList do
    match ← readBytes path with
    | some content =>
      let target := FileStore.startOf working path.toList ++ pathOf path
      files := files.insertWith (fun _ new => new) target content
    | none => pure ()
  pure ⟨⟨files, working⟩, platform⟩

/-- Show why a run failed. -/
def reportFailure (e : CompileError) : IO UInt32 := do
  for report in e.reports do
    IO.eprintln report.message
  pure 1

/-- Run the command on parsed arguments; the result is the exit code. -/
def runCommand (args : Arguments) : IO UInt32 := do
  match (← snapshot args).output args with
  | .ok text =>
    try
      IO.FS.writeFile args.output text
      pure 0
    catch e => reportFailure (.io (toString e))
  | .error e => reportFailure e

/-- Read the arguments and run the command. -/
def start (argv : List String) : IO UInt32 := do
  match Arguments.parse argv with
  | .ok args => runCommand args
  | .error .displayHelp =>
    IO.println "usage: archflow [-o output] [-f json|flows] [-c config] [--log-level level] input"
    pure 0
  | .error .displayVersion =>
    IO.println "archflow"
    pure 0
  | .error e =>
    IO.eprintln e.name
    pure 2

end ArchLang

/-- The program. -/
def main (argv : List String) : IO UInt32 := ArchLang.start argv
