/-!
# Maps in first-seen order

An `OrderedMap` is a list of entries with distinct keys.  A key keeps the place of its first
entry; what becomes of the value when the key comes again is up to the caller, who hands over a
rule that combines the old value with the new one.

* `OrderedMap.insertWith` enters a value under such a rule.
* `OrderedMap.gather` enters a list of pairs, one after another.
* `OrderedMap.get?` looks a key up.
* `keys_insertWith` says what an entry does to the keys: nothing, or one more at the end.
-/

namespace ArchLang

/-- A map that remembers the order in which its keys were first met. -/
structure OrderedMap (κ ν : Type) where
  entries : List (κ × ν)
  nodup : (entries.map Prod.fst).Nodup
  deriving DecidableEq, Repr

namespace OrderedMap

variable {κ ν : Type}

/-- Two maps with the same entries are the same. -/
@[ext] theorem ext {m n : OrderedMap κ ν} (h : m.entries = n.entries) : m = n := by
  cases m; cases n; cases h; rfl

/-- The map without entries. -/
def empty : OrderedMap κ ν := ⟨[], List.nodup_nil⟩

instance : Inhabited (OrderedMap κ ν) := ⟨empty⟩

/-- The keys, in the order in which they were first met. -/
def keys (m : OrderedMap κ ν) : List κ := m.entries.map Prod.fst

/-- The values, in the order of their keys. -/
def values (m : OrderedMap κ ν) : List ν := m.entries.map Prod.snd

/-- The number of entries. -/
def size (m : OrderedMap κ ν) : Nat := m.entries.length

variable [DecidableEq κ]

/-- The value of a key. -/
def get? (m : OrderedMap κ ν) (k : κ) : Option ν :=
  (m.entries.find? fun entry => entry.1 = k).map Prod.snd

/-- Entries after a value came for a key: combined in place, or added at the end. -/
def enter (combine : ν → ν → ν) (k : κ) (v : ν) : List (κ × ν) → List (κ × ν)
  | [] => [(k, v)]
  | (k', old) :: rest =>
    if k' = k then (k', combine old v) :: rest else (k', old) :: enter combine k v rest

theorem keys_enter (combine : ν → ν → ν) (k : κ) (v : ν) (es : List (κ × ν)) :
    (enter combine k v es).map Prod.fst =
      if k ∈ es.map Prod.fst then es.map Prod.fst else es.map Prod.fst ++ [k] := by
  induction es with
  | nil => simp [enter]
  | cons e rest ih =>
    obtain ⟨k', old⟩ := e
    by_cases h : k' = k
    · simp [enter, h]
    · have h' : ¬ k = k' := fun e => h e.symm
      simp only [enter, h, if_false, List.map_cons, ih, List.mem_cons, h', false_or]
      split <;> simp

/-- Enter a value: a known key keeps its place and takes `combine old new`, a new key goes to the
end. -/
def insertWith (combine : ν → ν → ν) (k : κ) (v : ν) (m : OrderedMap κ ν) : OrderedMap κ ν :=
  ⟨enter combine k v m.entries, by
    rw [keys_enter]
    split
    · exact m.nodup
    · next h =>
      exact List.nodup_append.2 ⟨m.nodup, List.nodup_cons.2 ⟨List.not_mem_nil, List.nodup_nil⟩,
        fun a ha b hb => by
          rintro rfl
          exact h (List.mem_singleton.1 hb ▸ ha)⟩⟩

/-- Enter a list of pairs, one after another. -/
def gather (combine : ν → ν → ν) (pairs : List (κ × ν)) : OrderedMap κ ν :=
  pairs.foldl (fun m pair => m.insertWith combine pair.1 pair.2) empty

/-- An entry leaves the keys alone or adds one at the end. -/
theorem keys_insertWith (combine : ν → ν → ν) (k : κ) (v : ν) (m : OrderedMap κ ν) :
    (m.insertWith combine k v).keys = if k ∈ m.keys then m.keys else m.keys ++ [k] :=
  keys_enter combine k v m.entries

end OrderedMap

end ArchLang
