/-!
# Places in a source text

A `Span` is a half-open range of byte offsets into a UTF-8 text, and its end is never before its
start: the bound is a field, so no operation can lose it.  A `Located` value carries the span it
was read from.

* `Span.between` builds a span from two offsets and clamps a reversed pair to an empty span.
* `Span.union` is the least span that covers two others.
* `Located.agrees` compares two located values and looks past their places.
* `byteLength` measures a list of characters in the units that spans count.
-/

namespace ArchLang

/-- A half-open range of byte offsets. -/
structure Span where
  start : Nat
  stop : Nat
  start_le_stop : start ≤ stop
  deriving DecidableEq, Repr

namespace Span

/-- The span from `start` to `stop`, empty at `start` when the two are reversed. -/
def between (start stop : Nat) : Span :=
  ⟨start, max start stop, Nat.le_max_left start stop⟩

/-- The empty span at the front of a text. -/
def origin : Span := ⟨0, 0, Nat.le_refl 0⟩

instance : Inhabited Span := ⟨origin⟩

/-- The number of bytes covered. -/
def length (s : Span) : Nat := s.stop - s.start

/-- Whether no byte is covered. -/
def isEmpty (s : Span) : Bool := s.start == s.stop

/-- The least span that covers both. -/
def union (s t : Span) : Span :=
  ⟨min s.start t.start, max s.stop t.stop,
    Nat.le_trans (Nat.min_le_left _ _) (Nat.le_trans s.start_le_stop (Nat.le_max_left _ _))⟩

@[simp] theorem union_start (s t : Span) : (s.union t).start = min s.start t.start := rfl

@[simp] theorem union_stop (s t : Span) : (s.union t).stop = max s.stop t.stop := rfl

/-- A pair in order is kept as it is. -/
theorem between_of_le {a b : Nat} (h : a ≤ b) : between a b = ⟨a, b, h⟩ := by
  simp [between, Nat.max_eq_right h]

/-- The least span that covers every span of a list, if there is one. -/
def unionAll? : List Span → Option Span
  | [] => none
  | s :: rest => some (rest.foldl union s)

end Span

/-- A value with the span it was read from. -/
structure Located (α : Type) where
  value : α
  span : Span
  deriving DecidableEq, Repr

namespace Located

variable {α β : Type}

/-- Apply a function to the value and keep its place. -/
def map (f : α → β) (x : Located α) : Located β := ⟨f x.value, x.span⟩

/-- Whether two located values are equal up to their places. -/
def agrees [BEq α] (x y : Located α) : Bool := x.value == y.value

end Located

/-- The number of bytes that a text takes in UTF-8. -/
def byteLength (text : List Char) : Nat := text.foldr (fun c n => c.utf8Size + n) 0

@[simp] theorem byteLength_nil : byteLength [] = 0 := rfl

@[simp] theorem byteLength_cons (c : Char) (text : List Char) :
    byteLength (c :: text) = c.utf8Size + byteLength text := rfl

@[simp] theorem byteLength_append (left right : List Char) :
    byteLength (left ++ right) = byteLength left + byteLength right := by
  induction left with
  | nil => exact (Nat.zero_add _).symm
  | cons c left ih =>
    rw [List.cons_append, byteLength_cons, byteLength_cons, ih, Nat.add_assoc]

end ArchLang
