import ArchLang.Configuration
import ArchLang.Toml.Document

/-!
# Configurations from TOML

A configuration file has two tables, `policies` and `output`; what it leaves out keeps its default,
and keys that are not known are ignored, provided that their values can be held.

A table of settings may also be given as an array, which holds the settings in order, and a policy
as a table with its name as the only key and something empty behind it.

* `Configuration.ofToml` reads a text, and has no answer for a text that is no configuration.
-/

namespace ArchLang

namespace Toml

/-- An array or table without anything in it. -/
def isEmptyValue : Value → Bool
  | .array [] => true
  | .table _ [] => true
  | _ => false

/-- The policy that a value names. -/
def policyOf? : Value → Option ConflictPolicy
  | .string name => ConflictPolicy.ofName? name
  | .table _ [(name, v)] => if isEmptyValue v then ConflictPolicy.ofName? name else none
  | _ => none

/-- The truth that a value stands for. -/
def booleanOf? : Value → Option Bool
  | .boolean b => some b
  | _ => none

/-- A setting that may be missing. -/
def settingOr {α : Type} (absent : α) (read : Value → Option α) : Option Value → Option α
  | none => some absent
  | some v => read v

/-- Whether all values under other keys than these can be held. -/
def othersSound (known : List String) (entries : Entries) : Bool :=
  soundEntries (entries.filter fun e => !known.contains e.1)

/-- Set the policies of a configuration. -/
def withPolicies? (c : Configuration) (merge publishers : Option Value) : Option Configuration := do
  let merge ← settingOr c.merge policyOf? merge
  let publishers ← settingOr c.publishers policyOf? publishers
  pure { c with merge, publishers }

/-- Set the output of a configuration. -/
def withOutput? (c : Configuration) (pretty : Option Value) : Option Configuration := do
  let pretty ← settingOr c.pretty booleanOf? pretty
  pure { c with pretty }

/-- The elements of a value that is an array. -/
def elementsOf? : Value → Option (List Value)
  | .array elements => some elements
  | .tables elements => some (elements.map (.table .headed))
  | _ => none

/-- Read the `policies` of a document into a configuration. -/
def readPolicies? (c : Configuration) : Option Value → Option Configuration
  | none => some c
  | some .datetime => some c
  | some (.table _ entries) =>
    if othersSound ["merge", "publishers"] entries then
      withPolicies? c (lookup "merge" entries) (lookup "publishers" entries)
    else none
  | some v => (elementsOf? v).bind fun elements => withPolicies? c elements[0]? elements[1]?

/-- Read the `output` of a document into a configuration. -/
def readOutput? (c : Configuration) : Option Value → Option Configuration
  | none => some c
  | some .datetime => some c
  | some (.table _ entries) =>
    if othersSound ["pretty"] entries then withOutput? c (lookup "pretty" entries) else none
  | some v => (elementsOf? v).bind fun elements => withOutput? c elements[0]?

end Toml

/-- The configuration that a TOML text describes. -/
def Configuration.ofToml (text : String) : Option Configuration := do
  let entries ← Toml.parse text
  let c ← Toml.readPolicies? {} (Toml.lookup "policies" entries)
  let c ← Toml.readOutput? c (Toml.lookup "output" entries)
  if Toml.othersSound ["policies", "output"] entries then pure c else none

end ArchLang
