import ArchLang.Command.Run
import ArchLang.Proofs.FileEffects
import Mathlib.Logic.Function.Iterate
import Mathlib.Tactic.Common

/-!
# A run is all or nothing

`Environment.run` says what comes of a run.  Here a run takes one step after another on the files as
they are: it chooses and reads a configuration, reads the input, compiles it, renders the model and
writes the output.  A step keeps what the run will come to (`result_step`), and it comes nearer to
the end (`stepsLeft_step`), so the steps come to what `Environment.run` says (`after_eq_ending`).
Only the last step touches the files (`untouched_step`): whenever a run is looked at, they are as it
found them, or they are as it leaves them.

Which configuration holds is stated apart from the code: `Picks` is the order of precedence, and
`Effective` reads the file that was picked.  How a file is read does not matter: everything is said
for any `ConfigReader`.

* `Moment.step`, `Environment.after` — a run in steps.
* `outcome_eq_of_picks`, `outcome_put` — which files a run does not look at.
* **`allOrNothing`** — all of it together.
-/

namespace ArchLang

/-- The file holds a text that sets this configuration. -/
def FileStore.Configures (s : FileStore) (read : ConfigReader) (path : String)
    (c : Configuration) : Prop :=
  ∃ text, s.readText path = .ok text ∧ read text = .ok c

namespace Environment

variable {env : Environment} {args : Arguments} {read : ConfigReader}

/-! ## Which configuration holds -/

/-- The order of precedence: a file, in the store that it is looked up in, or no file at all. -/
inductive Picks (env : Environment) : Option String → Option (FileStore × String) → Prop
  | explicit (path : String) : Picks env (some path) (some (env.store, path))
  | localFile (here : env.store.holds localConfig = true) :
      Picks env none (some (env.store, localConfig))
  | platform (gone : env.store.holds localConfig = false)
      (there : env.fromRoot.holds env.platformConfig = true) :
      Picks env none (some (env.fromRoot, env.platformConfig))
  | defaults (gone : env.store.holds localConfig = false)
      (nowhere : env.fromRoot.holds env.platformConfig = false) : Picks env none none

/-- The configuration that the files and the arguments call for. -/
inductive Effective (env : Environment) (explicit : Option String) (read : ConfigReader) :
    Configuration → Prop
  | ofFile {s : FileStore} {path : String} {c : Configuration}
      (picked : Picks env explicit (some (s, path))) (good : s.Configures read path c) :
      Effective env explicit read c
  | defaults (picked : Picks env explicit none) : Effective env explicit read {}

/-- Exactly one file is picked, or none. -/
lemma existsUnique_picks (env : Environment) (explicit : Option String) :
    ∃! file, Picks env explicit file := by
  cases explicit with
  | some path =>
      refine ⟨_, .explicit path, ?_⟩
      rintro _ ⟨⟩
      rfl
  | none =>
      cases here : env.store.holds localConfig with
      | true =>
          refine ⟨_, .localFile here, ?_⟩
          rintro _ (_ | _ | ⟨gone, _⟩ | ⟨gone, _⟩) <;> simp_all
      | false =>
          cases there : env.fromRoot.holds env.platformConfig with
          | true =>
              refine ⟨_, .platform here there, ?_⟩
              rintro _ (_ | _ | _ | _) <;> simp_all
          | false =>
              refine ⟨_, .defaults here there, ?_⟩
              rintro _ (_ | _ | _ | _) <;> simp_all

/-- The configuration in the file that was picked. -/
def readPicked (read : ConfigReader) :
    Option (FileStore × String) → Except CompileError Configuration
  | none => .ok {}
  | some (s, path) => readConfig read s path

lemma configuration_of_picks {file : Option (FileStore × String)}
    (h : env.Picks args.config file) : env.configuration args read = readPicked read file := by
  rw [configuration]
  generalize args.config = explicit at h
  cases h <;> simp [source, configurationOf, readPicked, *]

lemma readConfig_eq_ok_iff {s : FileStore} {path : String} {c : Configuration} :
    readConfig read s path = .ok c ↔ s.Configures read path c := by
  simp only [readConfig, FileStore.holds_eq_answers, FileStore.Configures, liftFile]
  cases s.readText path with
  | error fault =>
      split <;> simp [Except.mapError, bind, Except.bind]
  | ok text =>
      simp only [FileStore.answers, if_true, Except.mapError, bind, Except.bind, interpret]
      cases hc : read text <;> simp [hc]

theorem configuration_eq_ok_iff {c : Configuration} :
    env.configuration args read = .ok c ↔ env.Effective args.config read c := by
  obtain ⟨file, hfile, honly⟩ := existsUnique_picks env args.config
  rw [configuration_of_picks hfile]
  constructor
  · intro h
    cases file with
    | none =>
        obtain rfl : ({} : Configuration) = c := by simpa [readPicked] using h
        exact .defaults hfile
    | some file => exact .ofFile hfile (readConfig_eq_ok_iff.1 h)
  · rintro (⟨hpicked, hgood⟩ | hpicked)
    · rw [← honly _ hpicked]
      exact readConfig_eq_ok_iff.2 hgood
    · rw [← honly _ hpicked]
      rfl

/-- A local configuration that is broken, and one that a run can be told to use. -/
def deskEnvironment : Environment where
  store :=
    { files := ⟨[(["archflow", "config.toml"], "[".toUTF8),
        (["own.toml"], "[policies]\nmerge = \"last_wins\"\n".toUTF8)], by decide⟩
      workingDirectory := [] }
  platformConfig := "/etc/archflow/config.toml"

-- the broken file is passed over where another one is named, and only there
example :
    deskEnvironment.configuration ⟨"desk.arch", "desk.json", .json, some "own.toml", "info"⟩ =
      .ok ⟨⟨.lastWins, .lastWins⟩, true⟩ ∧
    deskEnvironment.configuration ⟨"desk.arch", "desk.json", .json, none, "info"⟩ =
      .error (.io "Failed to parse TOML configuration in archflow/config.toml") := by
  cbv

lemma effective_unique {c c' : Configuration} (h : env.Effective args.config read c)
    (h' : env.Effective args.config read c') : c = c' := by
  have hread := configuration_eq_ok_iff.2 h
  rw [configuration_eq_ok_iff.2 h'] at hread
  exact (Except.ok.inj hread).symm

/-! ## What a run comes to -/

/-- The change that a run makes: the path it writes and the text. -/
def outcome (env : Environment) (args : Arguments) (read : ConfigReader) :
    Except CompileError (Path × String) := do
  let text ← env.output args read
  let path ← liftFile (env.store.writable args.output)
  pure (path, text)

/-- The text that the configuration and the input call for. -/
def Produces (env : Environment) (args : Arguments) (read : ConfigReader) (text : String) : Prop :=
  ∃ c input m, env.Effective args.config read c ∧ env.store.readText args.input = .ok input ∧
    Model.ofSource c.toPolicies input = .ok m ∧ text = c.render args.format m

lemma run_eq_outcome (env : Environment) (args : Arguments) (read : ConfigReader) :
    env.run args read
      = (env.outcome args read).map fun change => env.store.put change.1 change.2 := by
  simp only [run, outcome, liftFile, FileStore.write]
  cases env.output args read with
  | error => rfl
  | ok text => cases env.store.writable args.output <;> rfl

lemma output_eq_ok_iff {text : String} :
    env.output args read = .ok text ↔ env.Produces args read text := by
  simp only [Produces, ← configuration_eq_ok_iff, output, bind, Except.bind]
  cases hc : env.configuration args read with
  | error => simp
  | ok c =>
      cases hinput : env.store.readText args.input with
      | error => simp [liftFile, Except.mapError]
      | ok input =>
          simp only [liftFile, Except.mapError, Configuration.produce, Configuration.compile]
          cases hm : Model.ofSource c.toPolicies input with
          | error => simp [hm]
          | ok m => simp [hm, eq_comm]

lemma outcome_eq_ok_iff {path : Path} {text : String} :
    env.outcome args read = .ok (path, text) ↔
      env.Produces args read text ∧ env.store.writable args.output = .ok path := by
  rw [← output_eq_ok_iff]
  simp only [outcome, bind, Except.bind, pure, Except.pure]
  cases env.output args read with
  | error => simp
  | ok text' =>
      cases env.store.writable args.output with
      | error => simp [liftFile, Except.mapError]
      | ok path' => simp [liftFile, Except.mapError, and_comm]

theorem run_eq_ok_iff {s : FileStore} :
    env.run args read = .ok s ↔ ∃ text path, env.Produces args read text ∧
      env.store.writable args.output = .ok path ∧ s = env.store.put path text := by
  rw [run_eq_outcome]
  constructor
  · intro h
    cases hchange : env.outcome args read with
    | error => simp [hchange, Except.map] at h
    | ok change =>
        obtain ⟨path, text⟩ := change
        obtain ⟨htext, hpath⟩ := outcome_eq_ok_iff.1 hchange
        refine ⟨text, path, htext, hpath, ?_⟩
        simpa [hchange, Except.map, eq_comm] using h
  · rintro ⟨text, path, htext, hpath, rfl⟩
    rw [outcome_eq_ok_iff.2 ⟨htext, hpath⟩]
    rfl

/-! ## Which files a run does not look at -/

/-- A configuration, an input and a place to write are all there is to a run. -/
lemma outcome_congr {env' : Environment}
    (hc : env.configuration args read = env'.configuration args read)
    (hinput : env.store.readText args.input = env'.store.readText args.input)
    (houtput : env.store.writable args.output = env'.store.writable args.output) :
    env.outcome args read = env'.outcome args read := by
  simp only [outcome, output, hc, hinput, houtput]

lemma readConfig_congr {s s' : FileStore} {path : String}
    (h : s.readText path = s'.readText path) :
    readConfig read s path = readConfig read s' path := by
  simp only [readConfig, FileStore.holds_eq_answers, h]

/-- Behind the file that was picked, no other one matters, there or not. -/
theorem outcome_eq_of_picks {env' : Environment} {s s' : FileStore} {path : String}
    (hpicked : env.Picks args.config (some (s, path)))
    (hpicked' : env'.Picks args.config (some (s', path)))
    (hconfig : s.readText path = s'.readText path)
    (hinput : env.store.readText args.input = env'.store.readText args.input)
    (houtput : env.store.writable args.output = env'.store.writable args.output) :
    env.outcome args read = env'.outcome args read := by
  refine outcome_congr ?_ hinput houtput
  rw [configuration_of_picks hpicked, configuration_of_picks hpicked']
  exact readConfig_congr hconfig

/-- The file that was picked is one of the files there are. -/
lemma files_of_picks {explicit : Option String} {s : FileStore} {text : String}
    (h : env.Picks explicit (some (s, text))) : s.files = env.store.files := by
  cases h <;> rfl

/-- The environment with another content of one file. -/
def put (env : Environment) (path : Path) (content : String) : Environment :=
  { env with store := env.store.put path content }

/-- The same file with perhaps another content is picked. -/
lemma picks_put {path : Path} {content : String} (h : env.store.isFile path = true)
    {explicit : Option String} {file : Option (FileStore × String)}
    (hpicked : env.Picks explicit file) :
    (env.put path content).Picks explicit
      (file.map fun picked => (picked.1.put path content, picked.2)) := by
  have hlocal : (env.put path content).store.holds localConfig = env.store.holds localConfig :=
    FileStore.holds_put_of_isFile h _
  have hplatform : (env.put path content).fromRoot.holds (env.put path content).platformConfig =
      env.fromRoot.holds env.platformConfig :=
    FileStore.holds_put_of_isFile (s := env.fromRoot) h _
  cases hpicked with
  | explicit text => exact .explicit text
  | localFile here => exact .localFile (hlocal.trans here)
  | platform gone there => exact .platform (hlocal.trans gone) (hplatform.trans there)
  | defaults gone nowhere => exact .defaults (hlocal.trans gone) (hplatform.trans nowhere)

/-- Another content of a file that is neither the input nor the configuration that was picked. -/
theorem outcome_put {path : Path} {content : String} (h : env.store.isFile path = true)
    (hconfig : ∀ s text, env.Picks args.config (some (s, text)) → s.locate text ≠ .ok (.file path))
    (hinput : env.store.locate args.input ≠ .ok (.file path)) :
    (env.put path content).outcome args read = env.outcome args read := by
  refine outcome_congr ?_ (FileStore.readText_put_of_ne h hinput) ?_
  · obtain ⟨file, hfile, -⟩ := existsUnique_picks env args.config
    rw [configuration_of_picks hfile, configuration_of_picks (picks_put h hfile)]
    cases file with
    | none => rfl
    | some picked =>
        obtain ⟨s, text⟩ := picked
        have hs : s.isFile path = true := by
          rw [FileStore.isFile, files_of_picks hfile]
          exact h
        exact readConfig_congr (FileStore.readText_put_of_ne hs (hconfig s text hfile))
  · exact FileStore.writable_put_of_isFile h args.output

end Environment

/-! ## A run in steps -/

/-- How far a run has come, and what it knows by then. -/
inductive Stage where
  | configuring
  | reading (c : Configuration)
  | compiling (c : Configuration) (input : String)
  | rendering (c : Configuration) (m : Model)
  | writing (text : String)
  | finished
  | failed (e : CompileError)

/-- A run that was stopped to look at it, and the files at that time. -/
structure Moment where
  stage : Stage
  store : FileStore

namespace Moment

/-- Go on with what a step gave, or fail.  The files stay as they are. -/
def onward {α : Type} (store : FileStore) (next : α → Stage) : Except CompileError α → Moment
  | .ok a => ⟨next a, store⟩
  | .error e => ⟨.failed e, store⟩

/-- The next step of a run. -/
def step (platformConfig : String) (args : Arguments) (read : ConfigReader) (now : Moment) :
    Moment :=
  match now.stage with
  | .configuring =>
    onward now.store .reading ((Environment.mk now.store platformConfig).configuration args read)
  | .reading c =>
    onward now.store (.compiling c) (Environment.liftFile (now.store.readText args.input))
  | .compiling c input => onward now.store (.rendering c) (c.compile input)
  | .rendering c m => ⟨.writing (c.render args.format m), now.store⟩
  | .writing text =>
    match Environment.liftFile (now.store.write args.output text) with
    | .ok store => ⟨.finished, store⟩
    | .error e => ⟨.failed e, now.store⟩
  | .finished => now
  | .failed _ => now

/-- What a run will come to. -/
def result (platformConfig : String) (args : Arguments) (read : ConfigReader) (now : Moment) :
    Except CompileError FileStore :=
  match now.stage with
  | .configuring => (Environment.mk now.store platformConfig).run args read
  | .reading c => do
    let input ← Environment.liftFile (now.store.readText args.input)
    let text ← c.produce args.format input
    Environment.liftFile (now.store.write args.output text)
  | .compiling c input => do
    let text ← c.produce args.format input
    Environment.liftFile (now.store.write args.output text)
  | .rendering c m => Environment.liftFile (now.store.write args.output (c.render args.format m))
  | .writing text => Environment.liftFile (now.store.write args.output text)
  | .finished => .ok now.store
  | .failed e => .error e

/-- How many steps are left at most. -/
def stepsLeft (now : Moment) : ℕ :=
  match now.stage with
  | .configuring => 5
  | .reading _ => 4
  | .compiling _ _ => 3
  | .rendering _ _ => 2
  | .writing _ => 1
  | .finished => 0
  | .failed _ => 0

variable {platformConfig : String} {args : Arguments} {read : ConfigReader}

section Onward

variable {α : Type} (store : FileStore) (next : α → Stage) (found : Except CompileError α)

lemma store_onward : (onward store next found).store = store := by
  cases found <;> rfl

lemma result_onward : (onward store next found).result platformConfig args read =
    found.bind fun a => (Moment.mk (next a) store).result platformConfig args read := by
  cases found <;> rfl

lemma stepsLeft_onward {k : ℕ} (h : ∀ a, (Moment.mk (next a) store).stepsLeft ≤ k) :
    (onward store next found).stepsLeft ≤ k := by
  cases found with
  | error e => exact Nat.zero_le k
  | ok a => exact h a

end Onward

/-- A step keeps what the run will come to. -/
lemma result_step (now : Moment) :
    (now.step platformConfig args read).result platformConfig args read =
      now.result platformConfig args read := by
  obtain ⟨stage, store⟩ := now
  cases stage with
  | configuring =>
      rw [step, result_onward]
      simp only [result, Environment.run, Environment.output, bind_assoc]
      rfl
  | reading c =>
      rw [step, result_onward]
      rfl
  | compiling c input =>
      rw [step, result_onward]
      simp only [result, Configuration.produce]
      cases c.compile input <;> rfl
  | writing text =>
      simp only [step, result]
      cases Environment.liftFile (store.write args.output text) <;> rfl
  | rendering | finished | failed => rfl

lemma stepsLeft_step (now : Moment) :
    (now.step platformConfig args read).stepsLeft ≤ now.stepsLeft - 1 := by
  obtain ⟨stage, store⟩ := now
  cases stage with
  | configuring | reading | compiling =>
      exact stepsLeft_onward store _ _ fun _ => Nat.le_refl _
  | rendering | finished | failed => exact Nat.le_refl _
  | writing text =>
      simp only [step]
      cases Environment.liftFile (store.write args.output text) <;> exact Nat.le_refl _

/-- The files are as they were, unless the run is over. -/
def Untouched (before : FileStore) (now : Moment) : Prop :=
  now.store = before ∨ ∃ after, now = ⟨.finished, after⟩

/-- No step but the last one touches the files. -/
lemma untouched_step {before : FileStore} {now : Moment} (h : now.Untouched before) :
    (now.step platformConfig args read).Untouched before := by
  obtain hstore | ⟨after, rfl⟩ := h
  · obtain ⟨stage, store⟩ := now
    obtain rfl : store = before := hstore
    cases stage with
    | configuring | reading | compiling => exact Or.inl (store_onward store _ _)
    | rendering | finished | failed => exact Or.inl rfl
    | writing text =>
        simp only [step]
        cases Environment.liftFile (store.write args.output text) with
        | error => exact Or.inl rfl
        | ok after => exact Or.inr ⟨after, rfl⟩
  · exact Or.inr ⟨after, rfl⟩

end Moment

namespace Environment

variable {env : Environment} {args : Arguments} {read : ConfigReader}

/-- A run after so many steps. -/
def after (env : Environment) (args : Arguments) (read : ConfigReader) (n : ℕ) : Moment :=
  (Moment.step env.platformConfig args read)^[n] ⟨.configuring, env.store⟩

lemma after_succ (n : ℕ) :
    env.after args read (n + 1) = (env.after args read n).step env.platformConfig args read := by
  rw [after, Function.iterate_succ_apply', after]

lemma result_after (n : ℕ) :
    (env.after args read n).result env.platformConfig args read = env.run args read := by
  induction n with
  | zero => rfl
  | succ n ih => rw [after_succ, Moment.result_step, ih]

lemma stepsLeft_after (n : ℕ) : (env.after args read n).stepsLeft ≤ 5 - n := by
  induction n with
  | zero => exact Nat.le_refl 5
  | succ n ih =>
      have hstep : (env.after args read (n + 1)).stepsLeft
          ≤ (env.after args read n).stepsLeft - 1 := by
        rw [after_succ]
        exact Moment.stepsLeft_step _
      omega

lemma untouched_after (n : ℕ) : (env.after args read n).Untouched env.store := by
  induction n with
  | zero => exact Or.inl rfl
  | succ n ih =>
      rw [after_succ]
      exact Moment.untouched_step ih

/-- The last moment of a run: an error leaves the files as they were found. -/
def ending (env : Environment) : Except CompileError FileStore → Moment
  | .ok store => ⟨.finished, store⟩
  | .error e => ⟨.failed e, env.store⟩

/-- Five steps are enough, and they come to what the run comes to. -/
theorem after_eq_ending {n : ℕ} (hn : 5 ≤ n) :
    env.after args read n = env.ending (env.run args read) := by
  have hleft : (env.after args read n).stepsLeft ≤ 5 - n := stepsLeft_after n
  have huntouched : (env.after args read n).Untouched env.store := untouched_after n
  rw [← result_after n]
  generalize env.after args read n = now at hleft huntouched
  obtain ⟨stage, store⟩ := now
  cases stage with
  | finished => rfl
  | failed e =>
      obtain rfl : store = env.store := by simpa [Moment.Untouched] using huntouched
      rfl
  | configuring | reading | compiling | rendering | writing =>
      simp only [Moment.stepsLeft] at hleft
      omega

/-- Whenever a run is looked at, the files are as it found them or as it leaves them. -/
theorem store_after (n : ℕ) :
    (env.after args read n).store = env.store ∨
      env.run args read = .ok (env.after args read n).store := by
  refine (untouched_after n).imp_right ?_
  rintro ⟨store, h⟩
  rw [← result_after n, h]
  rfl

lemma store_after_of_error {e : CompileError} (h : env.run args read = .error e) (n : ℕ) :
    (env.after args read n).store = env.store := by
  refine (store_after n).resolve_right ?_
  simp [h]

/-! ## All or nothing -/

/-- What can be relied on when a run is over, and while it goes on. -/
structure AllOrNothing (env : Environment) (args : Arguments) (read : ConfigReader) : Prop where
  /-- the configuration is the one that the order of precedence calls for -/
  configured : ∀ c, env.configuration args read = .ok c ↔ env.Effective args.config read c
  /-- a file that was picked has to be good, for no other one takes its place -/
  no_fallback : ∀ s path, env.Picks args.config (some (s, path)) →
    (∀ c, ¬s.Configures read path c) → ∃ e, env.run args read = .error e
  /-- behind the file that was picked, other configuration files may be there or not -/
  lower : ∀ (env' : Environment) (s s' : FileStore) (path : String),
    env.Picks args.config (some (s, path)) → env'.Picks args.config (some (s', path)) →
    s.readText path = s'.readText path →
    env.store.readText args.input = env'.store.readText args.input →
    env.store.writable args.output = env'.store.writable args.output →
    env.outcome args read = env'.outcome args read
  /-- no file counts for its content but the one that was picked and the input -/
  others : ∀ path content, env.store.isFile path = true →
    (∀ s text, env.Picks args.config (some (s, text)) → s.locate text ≠ .ok (.file path)) →
    env.store.locate args.input ≠ .ok (.file path) →
    (env.put path content).outcome args read = env.outcome args read
  /-- a run is its outcome, entered into the files -/
  change : env.run args read =
    (env.outcome args read).map fun change => env.store.put change.1 change.2
  /-- step by step a run comes to the same end -/
  ends : ∀ n, 5 ≤ n → env.after args read n = env.ending (env.run args read)
  /-- at any time the files are as they were found or as they will be left -/
  whole : ∀ n, (env.after args read n).store = env.store ∨
    env.run args read = .ok (env.after args read n).store
  /-- no configuration, no input, or a text that the lexer or the parser refuses: nothing changes -/
  nothing : (∀ c, ¬env.Effective args.config read c) ∨
      (∃ fault, env.store.readText args.input = .error fault) ∨
      (∃ c input r, env.Effective args.config read c ∧ env.store.readText args.input = .ok input ∧
        Model.ofSource c.toPolicies input = .error r) →
    ∃ e, env.run args read = .error e ∧ ∀ n, (env.after args read n).store = env.store
  /-- otherwise a run succeeds if there is a place for the output -/
  all : ∀ s, env.run args read = .ok s ↔ ∃ text path, env.Produces args read text ∧
    env.store.writable args.output = .ok path ∧ s = env.store.put path text
  /-- then the output holds its text, and every other file what it held -/
  effect : ∀ s, env.run args read = .ok s → ∃ text path, env.Produces args read text ∧
    env.store.writable args.output = .ok path ∧ s.files.get? path = some text.toUTF8 ∧
    s.readText args.output = .ok text ∧ s.workingDirectory = env.store.workingDirectory ∧
    ∀ q, q ≠ path → s.files.get? q = env.store.files.get? q

lemma exists_error_of_not_produces (h : ∀ text, ¬env.Produces args read text) :
    ∃ e, env.run args read = .error e := by
  cases hrun : env.run args read with
  | error e => exact ⟨e, rfl⟩
  | ok s =>
      obtain ⟨text, path, htext, -⟩ := run_eq_ok_iff.1 hrun
      exact absurd htext (h text)

/-- **A run is all or nothing**, whatever the files and the arguments are, and however
configurations are read. -/
theorem allOrNothing (env : Environment) (args : Arguments) (read : ConfigReader) :
    AllOrNothing env args read where
  configured c := configuration_eq_ok_iff
  no_fallback s path hpicked hbad := by
    apply exists_error_of_not_produces
    rintro text ⟨c, -, -, heffective, -⟩
    have hread := configuration_eq_ok_iff.2 heffective
    rw [configuration_of_picks hpicked] at hread
    exact hbad c (readConfig_eq_ok_iff.1 hread)
  lower env' s s' path := outcome_eq_of_picks
  others path content := outcome_put
  change := run_eq_outcome env args read
  ends n := after_eq_ending
  whole := store_after
  nothing h := by
    obtain ⟨e, he⟩ : ∃ e, env.run args read = .error e := by
      apply exists_error_of_not_produces
      rintro text ⟨c, input, m, hc, hinput, hm, -⟩
      obtain hnone | ⟨fault, hfault⟩ | ⟨c', input', r, hc', hinput', hr⟩ := h
      · exact hnone c hc
      · simp [hfault] at hinput
      · obtain rfl := effective_unique hc hc'
        obtain rfl : input = input' := by simpa [hinput] using hinput'
        simp [hm] at hr
    exact ⟨e, he, store_after_of_error he⟩
  all s := run_eq_ok_iff
  effect s hs := by
    obtain ⟨text, path, htext, hpath, rfl⟩ := run_eq_ok_iff.1 hs
    refine ⟨text, path, htext, hpath, ?_, FileStore.readText_put hpath, rfl, ?_⟩
    · rw [FileStore.get?_put, if_pos rfl]
    · intro q hq
      rw [FileStore.get?_put, if_neg hq.symm]

end Environment

end ArchLang
