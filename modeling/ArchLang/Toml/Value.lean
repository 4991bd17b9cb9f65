/-!
# TOML documents as values

A document is a table, and its statements fill it one after another.  Some ways to name a table
again are allowed and some are not, so every table remembers how it came about.

* `Value` is what a key stands for.  Of numbers only the question remains whether a machine can hold
  them, and of dates nothing but that they are dates.
* `openTable` and `openArray` follow a header, `assign` a key with its value.
* `Value.sound` holds when every number inside a value can be held.
-/

namespace ArchLang

namespace Toml

/-- How a table came about. -/
inductive TableKind where
  /-- by a header of its own, or as an element of an array of tables -/
  | headed
  /-- by a header further down, which only passes through -/
  | passed
  /-- by a dotted key -/
  | dotted
  /-- in braces; nothing can be added to it -/
  | inline
  deriving DecidableEq, Repr

/-- What a key stands for. -/
inductive Value where
  | string (text : String)
  | boolean (b : Bool)
  /-- a number, and whether it can be held -/
  | number (fits : Bool)
  | datetime
  | array (elements : List Value)
  /-- an array that headers in double brackets fill -/
  | tables (elements : List (List (String × Value)))
  | table (kind : TableKind) (entries : List (String × Value))

/-- The entries of a table, in order. -/
abbrev Entries := List (String × Value)

/-- The value of a key. -/
def lookup (key : String) (entries : Entries) : Option Value :=
  (entries.find? fun e => e.1 = key).map Prod.snd

/-- The entries with another value for a key. -/
def replace (key : String) (v : Value) (entries : Entries) : Entries :=
  entries.map fun e => if e.1 = key then (key, v) else e

/-- Change the last element of a list. -/
def changeLast {α : Type} (f : α → Option α) : List α → Option (List α)
  | [] => none
  | [x] => (f x).map ([·])
  | x :: rest => (changeLast f rest).map (x :: ·)

/-! ## Keys -/

/-- Give a dotted key its value.  The tables on the way are made as needed; those that headers only
pass through count as made by dotted keys from then on, so that no header can open them any more.
The last element of an array of tables may be passed on the way, but not take the value. -/
def assign (v : Value) : List String → Entries → Option Entries
  | [], _ => none
  | [key], entries =>
    match lookup key entries with
    | none => some (entries ++ [(key, v)])
    | some _ => none
  | key :: rest, entries =>
    match lookup key entries with
    | none => (assign v rest []).map fun inner => entries ++ [(key, .table .dotted inner)]
    | some (.table kind inner) =>
      if kind = .headed ∨ kind = .inline then none
      else (assign v rest inner).map fun inner => replace key (.table .dotted inner) entries
    | some (.tables elements) =>
      if rest.length ≤ 1 then none
      else (changeLast (assign v rest) elements).map fun elements =>
        replace key (.tables elements) entries
    | some _ => none

/-! ## Headers -/

/-- Go to the table of a path, through the last element of every array of tables, and change it
there.  Tables on the way are made as needed. -/
def descend (change : String → Entries → Option Entries) : List String → Entries → Option Entries
  | [], _ => none
  | [key], entries => change key entries
  | key :: rest, entries =>
    match lookup key entries with
    | none => (descend change rest []).map fun inner => entries ++ [(key, .table .passed inner)]
    | some (.table kind inner) =>
      if kind = .inline then none
      else (descend change rest inner).map fun inner => replace key (.table kind inner) entries
    | some (.tables elements) =>
      (changeLast (descend change rest) elements).map fun elements =>
        replace key (.tables elements) entries
    | some _ => none

/-- Follow a header in single brackets: a table may be opened once. -/
def openTable (path : List String) (entries : Entries) : Option Entries :=
  descend (fun key entries =>
    match lookup key entries with
    | none => some (entries ++ [(key, .table .headed [])])
    | some (.table .passed inner) => some (replace key (.table .headed inner) entries)
    | some _ => none) path entries

/-- Follow a header in double brackets: one more element. -/
def openArray (path : List String) (entries : Entries) : Option Entries :=
  descend (fun key entries =>
    match lookup key entries with
    | none => some (entries ++ [(key, .tables [[]])])
    | some (.tables elements) => some (replace key (.tables (elements ++ [[]])) entries)
    | some _ => none) path entries

/-- Change the table that the last header opened. -/
def within (change : Entries → Option Entries) : List String → Entries → Option Entries
  | [], entries => change entries
  | path, entries =>
    descend (fun key entries =>
      match lookup key entries with
      | some (.table kind inner) =>
        (change inner).map fun inner => replace key (.table kind inner) entries
      | some (.tables elements) =>
        (changeLast change elements).map fun elements => replace key (.tables elements) entries
      | _ => none) path entries

/-! ## Numbers that can be held -/

mutual

/-- Whether every number inside can be held. -/
def Value.sound : Value → Bool
  | .number fits => fits
  | .array elements => soundElements elements
  | .tables elements => soundTables elements
  | .table _ entries => soundEntries entries
  | _ => true

/-- Whether every number inside the elements can be held. -/
def soundElements : List Value → Bool
  | [] => true
  | v :: rest => v.sound && soundElements rest

/-- Whether every number inside the entries can be held. -/
def soundEntries : List (String × Value) → Bool
  | [] => true
  | (_, v) :: rest => v.sound && soundEntries rest

/-- Whether every number inside the tables can be held. -/
def soundTables : List (List (String × Value)) → Bool
  | [] => true
  | es :: rest => soundEntries es && soundTables rest

end

end Toml

end ArchLang
