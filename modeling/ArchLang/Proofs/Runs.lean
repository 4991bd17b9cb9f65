import ArchLang.Text.Blank
import ArchLang.Text.Joining
import Mathlib.Data.List.Basic
import Mathlib.Data.List.Chain
import Mathlib.Data.List.Infix
import Mathlib.Data.String.Basic
import Mathlib.Tactic.Common

/-!
# Texts up to white space

A text that is put together from words and blanks can be told from its words alone, as long as there
is a blank between any two of them.  Where two words touch, they are one run of the text, and the
text has fewer runs than words.

* `runs text` — the parts of a text between its blanks; `squeezed text` joins them with one space.
* `of_mem_splitOnP` — what a list is cut into lies in the list and holds no separator.
* `runs_append_blank` — the step: a blank ends a run.
* `joinPhrase_eq_squeezed_iff` — words make a text, up to white space, exactly if they are its runs.
* **`runs_flatMap_iff`** — the words among some pieces are the runs of the whole exactly if no two
  of them touch.
-/

namespace ArchLang

/-! ## Parts of a list -/

section SplitOnP

variable {α : Type*} {p : α → Bool}

/-- The first of the parts begins the list; each of them lies in it and holds no separator. -/
lemma exists_splitOnP (p : α → Bool) (s : List α) : ∃ part parts, s.splitOnP p = part :: parts ∧
    part <+: s ∧ ∀ l ∈ part :: parts, l <:+: s ∧ ∀ x ∈ l, p x = false := by
  induction s with
  | nil => exact ⟨[], [], rfl, List.prefix_rfl, by simp⟩
  | cons x s ih =>
      obtain ⟨part, parts, hsplit, hprefix, hparts⟩ := ih
      have hlater : ∀ l ∈ part :: parts, l <:+: x :: s ∧ ∀ y ∈ l, p y = false :=
        fun l hl => ⟨(hparts l hl).1.trans (List.suffix_cons x s).isInfix, (hparts l hl).2⟩
      rw [List.splitOnP_cons_eq_if_modifyHead, hsplit]
      cases hx : p x with
      | true =>
          refine ⟨[], part :: parts, rfl, List.nil_prefix, ?_⟩
          exact List.forall_mem_cons.2 ⟨⟨List.nil_infix, nofun⟩, hlater⟩
      | false =>
          have hlonger : x :: part <+: x :: s := List.cons_prefix_cons.2 ⟨rfl, hprefix⟩
          refine ⟨x :: part, parts, rfl, hlonger, List.forall_mem_cons.2 ⟨⟨hlonger.isInfix, ?_⟩,
            fun l hl => hlater l (List.mem_cons_of_mem _ hl)⟩⟩
          exact List.forall_mem_cons.2 ⟨hx, (hparts part List.mem_cons_self).2⟩

lemma of_mem_splitOnP {s l : List α} (h : l ∈ s.splitOnP p) :
    l <:+: s ∧ ∀ x ∈ l, p x = false := by
  obtain ⟨part, parts, hsplit, -, hparts⟩ := exists_splitOnP p s
  exact hparts l (hsplit ▸ h)

end SplitOnP

/-! ## Runs -/

/-- The parts of a text between its blanks. -/
def runs (text : List Char) : List (List Char) := (text.splitOnP isBlank).filter (· ≠ [])

/-- The text trimmed, and with one space for each run of blanks inside. -/
def squeezed (text : List Char) : String := joinPhrase ((runs text).map String.ofList)

/-- A part of a text that is not empty and that no blank divides. -/
structure Unbroken (part : List Char) : Prop where
  ne_nil : part ≠ []
  no_blank : ∀ c ∈ part, isBlank c = false

section Runs

variable {c : Char} {part y : List Char}

@[simp] lemma runs_nil : runs [] = [] := by simp [runs, List.splitOnP_nil]

/-- **A blank ends a run.** -/
lemma runs_append_blank (hc : isBlank c = true) (x y : List Char) :
    runs (x ++ c :: y) = runs x ++ runs y := by
  rw [runs, List.splitOnP_append_cons x y hc, List.filter_append]
  rfl

lemma runs_cons_blank (hc : isBlank c = true) (y : List Char) : runs (c :: y) = runs y := by
  rw [← List.nil_append (c :: y), runs_append_blank hc, runs_nil, List.nil_append]

lemma runs_blanks_append (h : ∀ c ∈ part, isBlank c = true) (y : List Char) :
    runs (part ++ y) = runs y := by
  induction part with
  | nil => rfl
  | cons c part ih =>
      rw [List.forall_mem_cons] at h
      rw [List.cons_append, runs_cons_blank h.1, ih h.2]

lemma Unbroken.runs_eq (h : Unbroken part) : runs part = [part] := by
  rw [runs, List.splitOnP_eq_singleton h.no_blank]
  simp [h.ne_nil]

/-- An unbroken part with a blank or nothing behind it is a run. -/
lemma Unbroken.runs_append (h : Unbroken part) (hy : ∀ c ∈ y.head?, isBlank c = true) :
    runs (part ++ y) = part :: runs y := by
  cases y with
  | nil => rw [List.append_nil, h.runs_eq, runs_nil]
  | cons c y =>
      have hc := hy c rfl
      rw [runs_append_blank hc, h.runs_eq, runs_cons_blank hc, List.singleton_append]

lemma unbroken_of_mem_runs {text : List Char} (h : part ∈ runs text) : Unbroken part := by
  obtain ⟨hmem, hne⟩ := List.mem_filter.1 h
  exact ⟨by simpa using hne, (of_mem_splitOnP hmem).2⟩

/-- One more character in front of a run does not make another run. -/
lemma length_runs_cons {d : Char} (hc : isBlank c = false) (hd : isBlank d = false)
    (y : List Char) : (runs (c :: d :: y)).length = (runs (d :: y)).length := by
  obtain ⟨first, rest, hsplit⟩ := List.exists_cons_of_ne_nil (List.splitOnP_ne_nil isBlank y)
  simp [runs, List.splitOnP_cons_eq_if_modifyHead, hc, hd, hsplit]

/-- Neither does an unbroken part. -/
lemma length_runs_append {d : Char} (h : ∀ c ∈ part, isBlank c = false) (hd : isBlank d = false)
    (y : List Char) : (runs (part ++ d :: y)).length = (runs (d :: y)).length := by
  induction part with
  | nil => rfl
  | cons c part ih =>
      obtain ⟨hc, hpart⟩ := List.forall_mem_cons.1 h
      cases part with
      | nil => exact length_runs_cons hc hd y
      | cons e part =>
          rw [← ih hpart]
          exact length_runs_cons hc (hpart e List.mem_cons_self) _

end Runs

/-! ## Words joined with spaces -/

section Joined

variable {ws : List String} (h : ∀ w ∈ ws, Unbroken w.toList)

include h

/-- Unbroken words can be read back from the phrase that they make. -/
lemma runs_joinPhrase : runs (joinPhrase ws).toList = ws.map String.toList := by
  induction ws with
  | nil => exact runs_nil
  | cons w ws ih =>
      obtain ⟨hw, hws⟩ := List.forall_mem_cons.1 h
      cases ws with
      | nil =>
          rw [joinPhrase, String.intercalate_singleton, hw.runs_eq]
          rfl
      | cons w' ws =>
          have htext : (joinPhrase (w :: w' :: ws)).toList
              = w.toList ++ ' ' :: (joinPhrase (w' :: ws)).toList := by
            rw [joinPhrase, String.intercalate_cons_cons, String.toList_append,
              String.toList_append, List.append_assoc]
            rfl
          rw [htext, runs_append_blank (by decide), hw.runs_eq, ih hws]
          rfl

/-- Words make a text, up to white space, exactly if they are its runs. -/
lemma joinPhrase_eq_squeezed_iff {text : List Char} :
    joinPhrase ws = squeezed text ↔ runs text = ws.map String.toList := by
  have hback : ∀ parts : List (List Char), (parts.map String.ofList).map String.toList = parts := by
    intro parts
    simp
  constructor
  · intro heq
    have hunbroken : ∀ w ∈ (runs text).map String.ofList, Unbroken w.toList :=
      List.forall_mem_map.2 fun part hpart => by
        rw [String.toList_ofList]
        exact unbroken_of_mem_runs hpart
    rw [← runs_joinPhrase h, heq, squeezed, runs_joinPhrase hunbroken, hback]
  · intro heq
    rw [squeezed, heq]
    simp

end Joined

/-- A phrase ends with the phrase of its last words. -/
lemma exists_joinPhrase_of_suffix {last ws : List String} (h : last <:+ ws) :
    ∃ before, joinPhrase ws = before ++ joinPhrase last := by
  obtain ⟨first, rfl⟩ := h
  by_cases hfirst : first = []
  · exact ⟨"", by rw [hfirst, List.nil_append, String.empty_append]⟩
  by_cases hlast : last = []
  · refine ⟨joinPhrase first, ?_⟩
    rw [hlast, List.append_nil]
    exact String.append_empty.symm
  · exact ⟨_, String.intercalate_append_of_ne_nil hfirst hlast⟩

/-! ## Texts put together from pieces -/

section Pieces

variable {α : Type*} {blank : α → Bool} {text : α → List Char} {xs : List α}

/-- The text of each piece is not empty, and it consists of blanks or has none. -/
def Pieces (blank : α → Bool) (text : α → List Char) (xs : List α) : Prop :=
  ∀ x ∈ xs, text x ≠ [] ∧ ∀ c ∈ text x, isBlank c = blank x

/-- A text begins with the kind of its first piece. -/
lemma exists_head_of_pieces {x : α} (h : Pieces blank text (x :: xs)) :
    ∃ c y, (x :: xs).flatMap text = c :: y ∧ isBlank c = blank x := by
  obtain ⟨hne, hx⟩ := h x List.mem_cons_self
  obtain ⟨c, rest, htext⟩ := List.exists_cons_of_ne_nil hne
  refine ⟨c, rest ++ xs.flatMap text, ?_, hx c (htext ▸ List.mem_cons_self)⟩
  rw [List.flatMap_cons, htext, List.cons_append]

/-- There are at most as many runs as words. -/
lemma length_runs_flatMap_le (h : Pieces blank text xs) :
    (runs (xs.flatMap text)).length ≤ (xs.filter (!blank ·)).length := by
  induction xs with
  | nil => simp
  | cons x xs ih =>
      obtain ⟨⟨hne, hx⟩, hxs⟩ := List.forall_mem_cons.1 h
      have hle := ih hxs
      rw [List.flatMap_cons]
      cases hblank : blank x with
      | true =>
          rw [runs_blanks_append fun c hc => (hx c hc).trans hblank,
            List.filter_cons_of_neg (by simp [hblank])]
          exact hle
      | false =>
          have hunbroken : Unbroken (text x) := ⟨hne, fun c hc => (hx c hc).trans hblank⟩
          rw [List.filter_cons_of_pos (by simp [hblank]), List.length_cons]
          cases hrest : xs.flatMap text with
          | nil =>
              rw [List.append_nil, hunbroken.runs_eq]
              exact Nat.succ_le_succ (Nat.zero_le _)
          | cons c y =>
              rw [hrest] at hle
              cases hc : isBlank c with
              | true =>
                  rw [hunbroken.runs_append (by simpa using hc)]
                  exact Nat.succ_le_succ hle
              | false =>
                  rw [length_runs_append hunbroken.no_blank hc]
                  omega

/-- **Words and runs.**  The words among the pieces are the runs of the text exactly if no two of
them touch. -/
theorem runs_flatMap_iff (h : Pieces blank text xs) :
    runs (xs.flatMap text) = (xs.filter (!blank ·)).map text ↔
      xs.IsChain fun x y => blank x = true ∨ blank y = true := by
  induction xs with
  | nil => simp
  | cons x xs ih =>
      obtain ⟨⟨hne, hx⟩, hxs⟩ := List.forall_mem_cons.1 h
      rw [List.flatMap_cons, List.isChain_cons]
      cases hblank : blank x with
      | true =>
          rw [runs_blanks_append fun c hc => (hx c hc).trans hblank,
            List.filter_cons_of_neg (by simp [hblank]), ih hxs]
          simp
      | false =>
          have hunbroken : Unbroken (text x) := ⟨hne, fun c hc => (hx c hc).trans hblank⟩
          rw [List.filter_cons_of_pos (by simp [hblank]), List.map_cons]
          by_cases hnext : ∀ y ∈ xs.head?, blank y = true
          · have hrest : ∀ c ∈ (xs.flatMap text).head?, isBlank c = true := by
              cases xs with
              | nil => simp
              | cons y ys =>
                  obtain ⟨c, rest, hhead, hc⟩ := exists_head_of_pieces hxs
                  rw [hhead]
                  simpa [hc] using hnext
            rw [hunbroken.runs_append hrest, List.cons.injEq, ih hxs]
            exact ⟨fun h => ⟨fun y hy => .inr (hnext y hy), h.2⟩, fun h => ⟨rfl, h.2⟩⟩
          · -- the word goes on with the next one, so the runs are too few
            obtain ⟨y, hy, hword⟩ : ∃ y ∈ xs.head?, blank y = false := by simpa using hnext
            obtain ⟨ys, rfl⟩ := List.head?_eq_some_iff.1 hy
            obtain ⟨c, rest, hhead, hc⟩ := exists_head_of_pieces hxs
            refine iff_of_false (fun heq => ?_) fun hchain => hnext (by simpa using hchain.1)
            have hlength := congrArg List.length heq
            have hle := length_runs_flatMap_le hxs
            rw [hhead] at hlength hle
            rw [length_runs_append hunbroken.no_blank (hc.trans hword), List.length_cons,
              List.length_map] at hlength
            omega

end Pieces

end ArchLang
