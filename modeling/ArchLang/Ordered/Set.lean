/-!
# Sets in first-seen order

An `OrderedSet` is a list without repetitions.  It remembers the order in which its elements were
first met, and that order is part of its value: two sets are equal when their lists are.

* `OrderedSet.ofList` keeps the first of every group of equal elements.
* `OrderedSet.union` appends what is new of a second set.
* `eraseDups_of_nodup` says that a list without repetitions is kept as it is.
-/

namespace ArchLang

section EraseDups

variable {α : Type} [DecidableEq α]

/-- Keeping first occurrences leaves no repetition. -/
theorem nodup_eraseDups : ∀ xs : List α, xs.eraseDups.Nodup
  | [] => by simp
  | x :: xs => by
    rw [List.eraseDups_cons]
    refine List.nodup_cons.2 ⟨?_, nodup_eraseDups _⟩
    simp [List.mem_eraseDups]
termination_by xs => xs.length
decreasing_by exact Nat.lt_succ_of_le (List.length_filter_le _ _)

/-- A list without repetitions has nothing to lose. -/
theorem eraseDups_of_nodup : ∀ {xs : List α}, xs.Nodup → xs.eraseDups = xs
  | [], _ => by simp
  | x :: xs, h => by
    obtain ⟨hx, hxs⟩ := List.nodup_cons.1 h
    have keep : xs.filter (fun y => !y == x) = xs :=
      List.filter_eq_self.2 fun y hy => by
        have : y ≠ x := fun e => hx (e ▸ hy)
        simpa using this
    rw [List.eraseDups_cons, keep, eraseDups_of_nodup hxs]

end EraseDups

/-- A set that remembers the order in which its elements were first met. -/
structure OrderedSet (α : Type) where
  toList : List α
  nodup : toList.Nodup
  deriving DecidableEq, Repr

namespace OrderedSet

variable {α : Type}

/-- Two sets with the same list are the same. -/
@[ext] theorem ext {s t : OrderedSet α} (h : s.toList = t.toList) : s = t := by
  cases s; cases t; cases h; rfl

/-- The set without elements. -/
def empty : OrderedSet α := ⟨[], List.nodup_nil⟩

instance : Inhabited (OrderedSet α) := ⟨empty⟩

@[simp] theorem toList_empty : (empty : OrderedSet α).toList = [] := rfl

variable [DecidableEq α]

/-- The elements of a list, each at the place of its first occurrence. -/
def ofList (xs : List α) : OrderedSet α := ⟨xs.eraseDups, nodup_eraseDups xs⟩

/-- The elements of the first set, then what is new in the second. -/
def union (s t : OrderedSet α) : OrderedSet α := ofList (s.toList ++ t.toList)

/-- Whether the set holds an element. -/
def contains (s : OrderedSet α) (x : α) : Bool := s.toList.contains x

@[simp] theorem toList_ofList (xs : List α) : (ofList xs).toList = xs.eraseDups := rfl

@[simp] theorem toList_union (s t : OrderedSet α) :
    (s.union t).toList = (s.toList ++ t.toList).eraseDups := rfl

/-- Reading a set back from its own list gives the set. -/
@[simp] theorem ofList_toList (s : OrderedSet α) : ofList s.toList = s :=
  ext (eraseDups_of_nodup s.nodup)

@[simp] theorem contains_eq_true {s : OrderedSet α} {x : α} :
    s.contains x = true ↔ x ∈ s.toList := by
  simp [contains]

end OrderedSet

end ArchLang
