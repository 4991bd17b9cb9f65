import ArchLang.Text.Blank

/-!
# Policies for conflicting declarations

Two declarations may disagree, and that is never an error: a `ConflictPolicy` says which of the two
values is kept.

* `ConflictPolicy.choose` chooses between the value at hand and the one that arrives.
* `ConflictPolicy.name` is the spelling in a configuration.
* `ConflictPolicy.ofText` reads a policy leniently: blanks around it, letter case and the choice of
  `-` or `_` do not matter.
-/

namespace ArchLang

/-- Which of two disagreeing values is kept. -/
inductive ConflictPolicy where
  /-- the value seen first in source order -/
  | firstWins
  /-- the value seen last in source order -/
  | lastWins
  deriving DecidableEq, Repr

/-- A policy name that is not known. -/
structure UnknownPolicy where
  text : String
  deriving DecidableEq, Repr

/-- The wording of the error. -/
def UnknownPolicy.message (e : UnknownPolicy) : String :=
  "unknown conflict policy `" ++ e.text ++ "`, expected `first_wins` or `last_wins`"

namespace ConflictPolicy

/-- Whether an arriving value replaces the one at hand. -/
def takesLater : ConflictPolicy → Bool
  | firstWins => false
  | lastWins => true

/-- Choose between the value at hand and the one that arrives. -/
def choose {α : Type} (policy : ConflictPolicy) (existing incoming : α) : α :=
  match policy with
  | firstWins => existing
  | lastWins => incoming

/-- The spelling in a configuration. -/
def name : ConflictPolicy → String
  | firstWins => "first_wins"
  | lastWins => "last_wins"

/-- The policy with exactly this spelling. -/
def ofName? (text : String) : Option ConflictPolicy :=
  if text = "first_wins" then some firstWins
  else if text = "last_wins" then some lastWins
  else none

/-- The spelling that a lenient reader compares: no blanks around it, ASCII letters in lower case,
`_` for `-`. -/
def canonical (text : String) : String :=
  String.ofList ((trimBlank text.toList).map fun c => if c = '-' then '_' else c.toLower)

/-- Read a policy leniently; the error keeps the text as it was given. -/
def ofText (text : String) : Except UnknownPolicy ConflictPolicy :=
  match ofName? (canonical text) with
  | some policy => .ok policy
  | none => .error ⟨text⟩

theorem ofName?_name (policy : ConflictPolicy) : ofName? policy.name = some policy := by
  cases policy <;> rfl

end ConflictPolicy

end ArchLang
