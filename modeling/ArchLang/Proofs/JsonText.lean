import ArchLang.Json
import Mathlib.Logic.Function.Basic
import Mathlib.Tactic.Common

/-!
# The text of a JSON value

A JSON text says by itself where it ends, so nothing that stands behind it can be taken for a part
of it.  This is what makes the text of a whole document unambiguous, with or without line breaks:
its parts can be told apart from the left.

* `PrefixFree write` — no text that `write` gives goes on as another one; `PrefixFreeAt` says it of
  one value.  A writer of this kind is injective (`PrefixFree.injective`).
* `unescapeFirst` — the character that an escaped text begins with; it undoes `Json.escapeChar`, so
  strings with their quotes are prefix-free (`prefixFree_quoted`).
* `commaJoined`, `closedList` — values with commas between them, up to a closing mark.  If the
  values are prefix-free, so are the lists (`closedList_prefixFree`).
* `Lays` — what the two layouts have in common; `Json.induction` goes from the children of a value
  to the value.
* **`render_injective`** — different values have different texts, in both layouts.
-/

namespace ArchLang

/-! ## Texts that say where they end -/

section PrefixFree

variable {α : Type}

/-- No other value has a text that goes on from the one of `a` or ends inside it. -/
def PrefixFreeAt (write : α → List Char) (a : α) : Prop :=
  ∀ (b : α) (r s : List Char), write a ++ r = write b ++ s → a = b ∧ r = s

/-- Every text says where it ends. -/
def PrefixFree (write : α → List Char) : Prop := ∀ a, PrefixFreeAt write a

lemma PrefixFree.injective {write : α → List Char} (h : PrefixFree write) :
    Function.Injective write := by
  intro a b hab
  exact (h a b [] [] (by rw [hab])).1

/-! ## Lists -/

/-- Texts with commas between them. -/
def commaJoined (write : α → List Char) : List α → List Char
  | [] => []
  | [a] => write a
  | a :: rest => write a ++ ',' :: commaJoined write rest

lemma commaJoined_cons_cons (write : α → List Char) (a b : α) (rest : List α) :
    commaJoined write (a :: b :: rest) = write a ++ ',' :: commaJoined write (b :: rest) := rfl

/-- Where no comma stands behind a list, it says where it ends if its elements do. -/
lemma commaJoined_prefixFree {write : α → List Char} {a b : α} {as bs : List α} {r s : List Char}
    (has : ∀ x ∈ a :: as, PrefixFreeAt write x) (hr : r.head? ≠ some ',')
    (hs : s.head? ≠ some ',')
    (h : commaJoined write (a :: as) ++ r = commaJoined write (b :: bs) ++ s) :
    a :: as = b :: bs ∧ r = s := by
  induction as generalizing a b bs with
  | nil =>
      cases bs with
      | nil =>
          obtain ⟨rfl, hrs⟩ := has a (List.mem_singleton_self a) b r s h
          exact ⟨rfl, hrs⟩
      | cons b' bs =>
          rw [commaJoined_cons_cons, List.append_assoc] at h
          obtain ⟨-, rfl⟩ := has a (List.mem_singleton_self a) b r _ h
          exact absurd rfl hr
  | cons a' as ih =>
      rw [commaJoined_cons_cons, List.append_assoc] at h
      cases bs with
      | nil =>
          obtain ⟨-, rfl⟩ := has a List.mem_cons_self b _ s h
          exact absurd rfl hs
      | cons b' bs =>
          rw [commaJoined_cons_cons, List.append_assoc] at h
          obtain ⟨rfl, hrest⟩ := has a List.mem_cons_self b _ _ h
          have htail : ∀ x ∈ a' :: as, PrefixFreeAt write x := fun x hx =>
            has x (List.mem_cons_of_mem _ hx)
          obtain ⟨hlists, hrs⟩ := ih htail (List.cons.inj hrest).2
          exact ⟨by rw [hlists], hrs⟩

/-- A list up to its closing mark.  In front of the mark stands what `gap` says, unless the list is
empty. -/
def closedList (write : α → List Char) (gap : List Char) (close : Char) : List α → List Char
  | [] => [close]
  | a :: rest => commaJoined write (a :: rest) ++ gap ++ [close]

/-- A list that is closed says where it ends, if an element cannot be taken for the closing mark nor
what stands behind an element for a comma. -/
lemma closedList_prefixFree {write : α → List Char} {gap : List Char} {close : Char}
    {as bs : List α} {r s : List Char} (has : ∀ x ∈ as, PrefixFreeAt write x)
    (hgap : ∀ r, (gap ++ close :: r).head? ≠ some ',')
    (hclose : ∀ a r s, write a ++ r ≠ close :: s)
    (h : closedList write gap close as ++ r = closedList write gap close bs ++ s) :
    as = bs ∧ r = s := by
  have hfirst : ∀ b bs t, closedList write gap close (b :: bs) ++ t ≠ close :: r ∧
      closedList write gap close (b :: bs) ++ t ≠ close :: s := by
    intro b bs t
    cases bs <;> simp [closedList, commaJoined, hclose]
  cases as with
  | nil =>
      cases bs with
      | nil => exact ⟨rfl, (List.cons.inj h).2⟩
      | cons b bs => exact absurd h.symm (hfirst b bs s).1
  | cons a as =>
      cases bs with
      | nil => exact absurd h (hfirst a as r).2
      | cons b bs =>
          simp only [closedList, List.append_assoc, List.singleton_append] at h
          obtain ⟨hlists, hrest⟩ := commaJoined_prefixFree has (hgap r) (hgap s) h
          exact ⟨hlists, (List.cons.inj (List.append_cancel_left hrest)).2⟩

end PrefixFree

/-! ## Strings -/

namespace Json

/-- The value of a hexadecimal digit in lower case. -/
def hexValue (c : Char) : ℕ := if c.toNat < 58 then c.toNat - 48 else c.toNat - 87

lemma hexValue_hexDigit : ∀ n < 16, hexValue (hexDigit n) = n := by decide

/-- The character that an escaped text begins with, and what stands behind it. -/
def unescapeFirst : List Char → Option (Char × List Char)
  | '\\' :: 'n' :: rest => some ('\n', rest)
  | '\\' :: 'r' :: rest => some ('\r', rest)
  | '\\' :: 't' :: rest => some ('\t', rest)
  | '\\' :: 'b' :: rest => some ('\x08', rest)
  | '\\' :: 'f' :: rest => some ('\x0c', rest)
  | '\\' :: 'u' :: _ :: _ :: high :: low :: rest =>
    some (Char.ofNat (16 * hexValue high + hexValue low), rest)
  | '\\' :: c :: rest => some (c, rest)
  | c :: rest => some (c, rest)
  | [] => none

/-- A character is read back from its escape. -/
lemma unescapeFirst_escapeChar (c : Char) (rest : List Char) :
    unescapeFirst (escapeChar c ++ rest) = some (c, rest) := by
  rw [escapeChar]
  split_ifs with hquote hslash hline hreturn htab hback hform hcontrol
  · rw [hquote]; rfl
  · rw [hslash]; rfl
  · rw [hline]; rfl
  · rw [hreturn]; rfl
  · rw [htab]; rfl
  · rw [hback]; rfl
  · rw [hform]; rfl
  · have hhigh : hexValue (hexDigit (c.toNat / 16)) = c.toNat / 16 :=
      hexValue_hexDigit _ (by omega)
    have hlow : hexValue (hexDigit (c.toNat % 16)) = c.toNat % 16 :=
      hexValue_hexDigit _ (by omega)
    have hvalue : 16 * (c.toNat / 16) + c.toNat % 16 = c.toNat := by omega
    simp only [List.cons_append, List.nil_append, unescapeFirst, hhigh, hlow, hvalue,
      Char.ofNat_toNat]
  · simp only [List.cons_append, List.nil_append]
    rw [unescapeFirst.eq_def]
    split <;> simp_all

lemma prefixFree_escapeChar : PrefixFree escapeChar := by
  intro c d r s h
  have hread := unescapeFirst_escapeChar c r
  rw [h, unescapeFirst_escapeChar] at hread
  simp_all

/-- No escape begins with the quote that ends a string. -/
lemma escapeChar_append_ne_quote {c : Char} {r s : List Char} : ¬ escapeChar c ++ r = '"' :: s := by
  rw [escapeChar]
  split_ifs <;> simp_all

lemma escape_quote {cs ds r s : List Char} (h : escape cs ++ '"' :: r = escape ds ++ '"' :: s) :
    cs = ds ∧ r = s := by
  induction cs generalizing ds with
  | nil =>
      cases ds with
      | nil => exact ⟨rfl, (List.cons.inj h).2⟩
      | cons d ds =>
          rw [escape, escape, List.flatMap_cons, List.append_assoc] at h
          exact absurd h.symm escapeChar_append_ne_quote
  | cons c cs ih =>
      rw [escape, List.flatMap_cons, List.append_assoc] at h
      cases ds with
      | nil => exact absurd h escapeChar_append_ne_quote
      | cons d ds =>
          rw [escape, List.flatMap_cons, List.append_assoc] at h
          obtain ⟨rfl, hrest⟩ := prefixFree_escapeChar c d _ _ h
          obtain ⟨rfl, hrs⟩ := ih hrest
          exact ⟨rfl, hrs⟩

/-- A string ends at its second quote. -/
lemma prefixFree_quoted : PrefixFree quoted := by
  intro t u r s h
  simp only [quoted, List.cons_append, List.append_assoc, List.nil_append, List.cons.injEq,
    true_and] at h
  obtain ⟨htexts, hrs⟩ := escape_quote h
  exact ⟨String.toList_inj.1 htexts, hrs⟩

/-! ## Values -/

/-- The values inside a value, one level down. -/
def children : Json → List Json
  | null => []
  | str _ => []
  | arr es => es
  | obj ms => ms.map Prod.snd

lemma sizeOf_lt_of_mem_children {v w : Json} (h : w ∈ v.children) : sizeOf w < sizeOf v := by
  cases v with
  | null => exact absurd h List.not_mem_nil
  | str t => exact absurd h List.not_mem_nil
  | arr es =>
      have hlt : sizeOf w < sizeOf es := List.sizeOf_lt_of_mem h
      simp only [Json.arr.sizeOf_spec]
      omega
  | obj ms =>
      obtain ⟨⟨k, w⟩, hm, rfl⟩ := List.mem_map.1 h
      have hlt := List.sizeOf_lt_of_mem hm
      simp only [Json.obj.sizeOf_spec, Prod.mk.sizeOf_spec] at hlt ⊢
      omega

/-- What holds of a value if it holds of its children, holds of every value. -/
theorem induction {P : Json → Prop} (step : ∀ v, (∀ w ∈ v.children, P w) → P v) (v : Json) : P v :=
  step v fun w _ => induction step w
termination_by sizeOf v
decreasing_by exact sizeOf_lt_of_mem_children ‹_›

/-- A member without blanks. -/
def compactMember (m : String × Json) : List Char := quoted m.1 ++ ':' :: compact m.2

/-- An element on a line of its own. -/
def indentedElement (depth : ℕ) (v : Json) : List Char := lineBreak depth ++ indented depth v

/-- A member on a line of its own. -/
def indentedMember (depth : ℕ) (m : String × Json) : List Char :=
  lineBreak depth ++ quoted m.1 ++ ':' :: ' ' :: indented depth m.2

/-- How a layout writes a value: an array or object is a list in brackets, written with `element`
and `member`, and `gap` stands in front of the closing bracket. -/
structure Lays (write element : Json → List Char) (member : String × Json → List Char)
    (gap : List Char) : Prop where
  null : write null = ['n', 'u', 'l', 'l']
  str : ∀ t, write (str t) = quoted t
  arr : ∀ es, write (arr es) = '[' :: closedList element gap ']' es
  obj : ∀ ms, write (obj ms) = '{' :: closedList member gap '}' ms

lemma compactElements_eq (es : List Json) : compactElements es = commaJoined compact es := by
  induction es with
  | nil => rfl
  | cons e es ih => cases es <;> simp_all [compactElements, commaJoined]

lemma compactMembers_eq (ms : List (String × Json)) :
    compactMembers ms = commaJoined compactMember ms := by
  induction ms with
  | nil => rfl
  | cons m ms ih => cases ms <;> simp_all [compactMembers, commaJoined, compactMember]

lemma indentedElements_eq (depth : ℕ) (es : List Json) :
    indentedElements depth es = commaJoined (indentedElement depth) es := by
  induction es with
  | nil => rfl
  | cons e es ih => cases es <;> simp_all [indentedElements, commaJoined, indentedElement]

lemma indentedMembers_eq (depth : ℕ) (ms : List (String × Json)) :
    indentedMembers depth ms = commaJoined (indentedMember depth) ms := by
  induction ms with
  | nil => rfl
  | cons m ms ih => cases ms <;> simp_all [indentedMembers, commaJoined, indentedMember]

lemma lays_compact : Lays compact compact compactMember [] where
  null := by rw [compact]
  str t := by rw [compact]
  arr es := by cases es <;> simp [compact, compactElements_eq, closedList, commaJoined]
  obj ms := by cases ms <;> simp [compact, compactMembers_eq, closedList, commaJoined]

lemma lays_indented (depth : ℕ) : Lays (indented depth) (indentedElement (depth + 1))
    (indentedMember (depth + 1)) (lineBreak depth) where
  null := by rw [indented]
  str t := by rw [indented]
  arr es := by cases es <;> simp [indented, indentedElements_eq, closedList]
  obj ms := by cases ms <;> simp [indented, indentedMembers_eq, closedList]

section Lays

variable {write element : Json → List Char} {member : String × Json → List Char}
  {gap : List Char} (h : Lays write element member gap)

include h

/-- No value begins with a closing bracket. -/
lemma Lays.head_ne_close (v : Json) (r s : List Char) : write v ++ r ≠ ']' :: s := by
  cases v <;> simp [h.null, h.str, h.arr, h.obj, quoted]

/-- A value says where it ends if its children do, as elements and as members. -/
lemma Lays.prefixFreeAt {inner : Json → List Char}
    (hgap : ∀ close r, close ≠ ',' → (gap ++ close :: r).head? ≠ some ',')
    (hopen : ∀ w r s, element w ++ r ≠ ']' :: s) (hopen' : ∀ m r s, member m ++ r ≠ '}' :: s)
    (helement : ∀ w, PrefixFreeAt inner w → PrefixFreeAt element w)
    (hmember : ∀ m, PrefixFreeAt inner m.2 → PrefixFreeAt member m) {v : Json}
    (hv : ∀ w ∈ v.children, PrefixFreeAt inner w) : PrefixFreeAt write v := by
  intro w r s hvw
  cases v with
  | null => cases w <;> simp_all [h.null, h.str, h.arr, h.obj, quoted]
  | str t =>
      cases w with
      | str u =>
          rw [h.str, h.str] at hvw
          obtain ⟨rfl, hrs⟩ := prefixFree_quoted t u r s hvw
          exact ⟨rfl, hrs⟩
      | null | arr | obj => simp [h.null, h.str, h.arr, h.obj, quoted] at hvw
  | arr es =>
      cases w with
      | arr fs =>
          rw [h.arr, h.arr] at hvw
          have hes : ∀ e ∈ es, PrefixFreeAt element e := fun e he => helement e (hv e he)
          obtain ⟨rfl, hrs⟩ := closedList_prefixFree hes (fun r => hgap ']' r (by decide)) hopen
            (List.cons.inj hvw).2
          exact ⟨rfl, hrs⟩
      | null | str | obj => simp [h.null, h.str, h.arr, h.obj, quoted] at hvw
  | obj ms =>
      cases w with
      | obj ns =>
          rw [h.obj, h.obj] at hvw
          have hms : ∀ m ∈ ms, PrefixFreeAt member m := fun m hm =>
            hmember m (hv m.2 (List.mem_map_of_mem hm))
          obtain ⟨rfl, hrs⟩ := closedList_prefixFree hms (fun r => hgap '}' r (by decide)) hopen'
            (List.cons.inj hvw).2
          exact ⟨rfl, hrs⟩
      | null | str | arr => simp [h.null, h.str, h.arr, h.obj, quoted] at hvw

end Lays

/-- A member says where it ends if its value does. -/
lemma prefixFreeAt_compactMember {m : String × Json} (h : PrefixFreeAt compact m.2) :
    PrefixFreeAt compactMember m := by
  intro n r s hmn
  simp only [compactMember, List.append_assoc] at hmn
  obtain ⟨hkeys, hrest⟩ := prefixFree_quoted _ _ _ _ hmn
  obtain ⟨hvalues, hrs⟩ := h _ _ _ (List.cons.inj hrest).2
  exact ⟨Prod.ext hkeys hvalues, hrs⟩

lemma prefixFreeAt_indentedElement {depth : ℕ} {v : Json} (h : PrefixFreeAt (indented depth) v) :
    PrefixFreeAt (indentedElement depth) v := by
  intro w r s hvw
  simp only [indentedElement, List.append_assoc] at hvw
  exact h _ _ _ (List.append_cancel_left hvw)

lemma prefixFreeAt_indentedMember {depth : ℕ} {m : String × Json}
    (h : PrefixFreeAt (indented depth) m.2) : PrefixFreeAt (indentedMember depth) m := by
  intro n r s hmn
  simp only [indentedMember, List.append_assoc] at hmn
  obtain ⟨hkeys, hrest⟩ := prefixFree_quoted _ _ _ _ (List.append_cancel_left hmn)
  simp only [List.cons_append, List.cons.injEq, true_and] at hrest
  obtain ⟨hvalues, hrs⟩ := h _ _ _ hrest
  exact ⟨Prod.ext hkeys hvalues, hrs⟩

/-- A text without blanks says where it ends. -/
theorem prefixFree_compact : PrefixFree compact := by
  intro v
  induction v using Json.induction with
  | step v ih =>
      refine lays_compact.prefixFreeAt ?_ lays_compact.head_ne_close ?_ (fun _ h => h)
        (fun _ h => prefixFreeAt_compactMember h) ih
      · simp
      · simp [compactMember, quoted]

/-- So does a text with one element or member a line, at every depth. -/
theorem prefixFree_indented (depth : ℕ) : PrefixFree (indented depth) := by
  intro v
  induction v using Json.induction generalizing depth with
  | step v ih =>
      refine (lays_indented depth).prefixFreeAt ?_ ?_ ?_
        (fun _ h => prefixFreeAt_indentedElement h) (fun _ h => prefixFreeAt_indentedMember h)
        fun w hw => ih w hw (depth + 1)
      · simp [lineBreak]
      · simp [indentedElement, lineBreak]
      · simp [indentedMember, lineBreak]

/-- **The text tells the value**, in both layouts. -/
theorem render_injective (pretty : Bool) : Function.Injective (render pretty) := by
  intro v w h
  have htexts := String.ofList_injective h
  cases pretty with
  | true => exact (prefixFree_indented 0).injective htexts
  | false => exact prefixFree_compact.injective htexts

end Json

end ArchLang
