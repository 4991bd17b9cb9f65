import ArchLang.Proofs.Writing
import Mathlib.Tactic.Common

/-!
# Keywords by their literals

The scanner reads a word as far as it goes and then asks whether it is spelled like a keyword.
Keywords can also be found without words: try the literals one after another, take the first that
the text begins with, and look whether a word could go on behind it.  If it could, there is no
keyword; the literals that are left are not tried any more, so a plural has to stand before its
singular.

This file closes the gap between the two.

* `literalAt?`, `keywordAt?` — the literals in order, and the character behind them.
* `Ordered ks` — no literal begins a later one.  Then the check behind the first one that fits
  refuses no text that another one would have accepted (`keywordAt?_eq_some_iff`).
* `scan_keyword_iff` — the scanner finds a keyword exactly where the literals do.
* **`scan_eq_wordByLiterals`** — a word is the keyword that the literals find there, or else an
  identifier.
-/

namespace ArchLang

/-! ## The literals in order -/

/-- A character with which a word could go on. -/
def continuesWord (c : Char) : Bool := isNameChar c || c == '-'

namespace Keyword

/-- The first keyword with whose literal the text begins, and the text behind it. -/
def literalAt? (ks : List Keyword) (text : List Char) : Option (Keyword × List Char) :=
  ks.findSome? fun k => (text.dropPrefix? k.spelling.toList).map fun rest => (k, rest)

/-- The same, if no word could go on there.  Nothing else is tried when one could. -/
def keywordAt? (ks : List Keyword) (text : List Char) : Option (Keyword × List Char) :=
  (literalAt? ks text).filter fun found => !found.2.head?.any continuesWord

/-- No literal begins a later one. -/
def Ordered (ks : List Keyword) : Prop :=
  ks.Pairwise fun k l => ¬ k.spelling.toList <+: l.spelling.toList

/-- The keywords stand in such an order: plurals come first. -/
lemma ordered_all : Ordered all := by
  unfold Ordered
  decide

lemma mem_all (k : Keyword) : k ∈ all := by
  cases k <;> decide

lemma dropPrefix?_eq_some_iff {text literal rest : List Char} :
    text.dropPrefix? literal = some rest ↔ text = literal ++ rest := by
  simp [List.dropPrefix?_eq_some_iff]

lemma continuesWord_of_mem_spelling {k : Keyword} {c : Char} (hc : c ∈ k.spelling.toList) :
    continuesWord c = true := by
  have hall : k.spelling.toList.all continuesWord = true := by cases k <;> decide
  exact List.all_eq_true.1 hall c hc

/-- If no word could go on behind a literal, no longer one fits: all that do begin this one. -/
lemma prefix_of_stops {k l : Keyword} {rest : List Char} (hrest : Stops continuesWord rest)
    (hl : l.spelling.toList <+: k.spelling.toList ++ rest) :
    l.spelling.toList <+: k.spelling.toList := by
  rcases List.prefix_or_prefix_of_prefix hl (List.prefix_append _ rest) with hshort | ⟨more, hmore⟩
  · exact hshort
  · rw [← hmore, List.prefix_append_right_inj] at hl
    cases more with
    | nil =>
        have hsame : k.spelling.toList = l.spelling.toList := by rw [← hmore, List.append_nil]
        exact hsame ▸ List.prefix_rfl
    | cons c more =>
        -- the longer literal would go on with a character that ends the shorter one
        obtain ⟨behind, rfl⟩ := hl
        have hc : continuesWord c = true :=
          continuesWord_of_mem_spelling (k := l) (by rw [← hmore]; simp)
        have hstop : continuesWord c = false := hrest c rfl
        rw [hc] at hstop
        cases hstop

/-- A literal is taken if no word could go on behind it, since none of those before it fits. -/
lemma literalAt?_of_stops {ks : List Keyword} (hks : Ordered ks) {k : Keyword} (hk : k ∈ ks)
    {rest : List Char} (hrest : Stops continuesWord rest) :
    literalAt? ks (k.spelling.toList ++ rest) = some (k, rest) := by
  obtain ⟨before, behind, rfl⟩ := List.append_of_mem hk
  refine List.findSome?_eq_some_iff.2 ⟨before, k, behind, rfl, ?_, fun l hl => ?_⟩
  · rw [dropPrefix?_eq_some_iff.2 rfl, Option.map_some]
  · rw [Option.map_eq_none_iff, Option.eq_none_iff_forall_ne_some]
    intro rest' hfits
    have hprefix := prefix_of_stops hrest ⟨rest', (dropPrefix?_eq_some_iff.1 hfits).symm⟩
    exact (List.pairwise_append.1 hks).2.2 l hl k List.mem_cons_self hprefix

/-- **The order of the literals.**  If no literal begins a later one, a keyword is found exactly
where its literal stands and no word could go on behind it. -/
theorem keywordAt?_eq_some_iff {ks : List Keyword} (hks : Ordered ks) {text : List Char}
    {k : Keyword} {rest : List Char} :
    keywordAt? ks text = some (k, rest) ↔
      k ∈ ks ∧ text = k.spelling.toList ++ rest ∧ Stops continuesWord rest := by
  have hstops : (!rest.head?.any continuesWord) = true ↔ Stops continuesWord rest := by
    cases rest <;> simp [Stops]
  rw [keywordAt?, Option.filter_eq_some_iff, hstops]
  constructor
  · rintro ⟨hliteral, hrest⟩
    obtain ⟨l, hl, hfits⟩ := List.exists_of_findSome?_eq_some hliteral
    obtain ⟨rest', hdrop, hsame⟩ := Option.map_eq_some_iff.1 hfits
    cases hsame
    exact ⟨hl, dropPrefix?_eq_some_iff.1 hdrop, hrest⟩
  · rintro ⟨hk, rfl, hrest⟩
    exact ⟨literalAt?_of_stops hks hk hrest, hrest⟩

-- a singular before its plural hides it
example : keywordAt? [.actor, .actors] "actors".toList = none := by decide

end Keyword

/-! ## What the scanner finds -/

lemma stops_continuesWord_iff {rest : List Char} :
    Stops continuesWord rest ↔ Stops isNameChar rest ∧ rest.head? ≠ some '-' := by
  cases rest with
  | nil => simp [Stops]
  | cons c rest => simp [Stops, continuesWord]

/-- The scanner reads a keyword where its literal stands and no word could go on behind it. -/
lemma scan_of_stops {k : Keyword} {c : Char} {cs rest : List Char}
    (htext : c :: cs = k.spelling.toList ++ rest) (hrest : Stops continuesWord rest) :
    scan c cs = .token (.keyword k) k.spelling.toList rest := by
  obtain ⟨hstops, hhyphen⟩ := stops_continuesWord_iff.1 hrest
  have hends : WordEnds rest := ⟨hstops, fun h => absurd (congrArg List.head? h) hhyphen⟩
  obtain ⟨d, ds, hspelling, hscan⟩ := exists_scan_written (t := .keyword k) trivial
  obtain ⟨l, hl, hagain⟩ := scan_again hscan ⟨hends, hhyphen⟩
  cases hl
  have hspelling : k.spelling.toList = d :: ds := hspelling
  rw [hspelling, List.cons_append] at htext
  cases htext
  rwa [hspelling]

/-- The scanner finds a keyword exactly where the literals do. -/
theorem scan_keyword_iff {c : Char} {cs lexeme rest : List Char} {k : Keyword} :
    scan c cs = .token (.keyword k) lexeme rest ↔
      lexeme = k.spelling.toList ∧ Keyword.keywordAt? Keyword.all (c :: cs) = some (k, rest) := by
  rw [Keyword.keywordAt?_eq_some_iff Keyword.ordered_all]
  constructor
  · intro h
    have htext := text_of_scan h
    generalize ht : Token.keyword k = t at h
    cases scan_eq_token_iff.1 h with
    | word cs hname =>
        obtain ⟨hword, hhyphen⟩ := wordToken_eq_keyword_iff.1 ht.symm
        refine ⟨hword, k.mem_all, hword ▸ htext, stops_continuesWord_iff.2 ⟨?_, hhyphen⟩⟩
        exact (wordEnds_wordTail cs).stops
    | number _ hscan =>
        obtain ⟨_, rfl⟩ | ⟨_, rfl⟩ := number_or_percentage_of_numberScan hscan <;> cases ht
    | comment | literal | arrow | newline | blank | mark => cases ht
  · rintro ⟨rfl, -, htext, hrest⟩
    exact scan_of_stops htext hrest

/-- What stands at the front of a text that begins like a word: the keyword that the literals find
there, or else an identifier, as long as it can be. -/
def wordByLiterals (c : Char) (cs : List Char) : Scan :=
  match Keyword.keywordAt? Keyword.all (c :: cs) with
  | some (k, rest) => .token (.keyword k) k.spelling.toList rest
  | none =>
    let tail := scanWordTail cs
    .token (.identifier (String.ofList (c :: tail.1))) (c :: tail.1) tail.2

/-- **Words by literals.**  To read a word and to ask whether it is a keyword comes to the same as
to try the literals of the keywords first and to read an identifier where none is accepted. -/
theorem scan_eq_wordByLiterals {c : Char} (hname : isNameStart c = true) (cs : List Char) :
    scan c cs = wordByLiterals c cs := by
  have hscan := scan_eq_token_iff.2 (Front.word cs hname)
  unfold wordByLiterals
  cases hfound : Keyword.keywordAt? Keyword.all (c :: cs) with
  | some found => exact scan_keyword_iff.2 ⟨rfl, hfound⟩
  | none =>
      generalize ht : wordToken (c :: (scanWordTail cs).1) (scanWordTail cs).2 = t at hscan
      obtain ⟨k, rfl⟩ | rfl := keyword_or_identifier_of_wordToken ht
      · -- the literals would have found the keyword
        rw [(scan_keyword_iff.1 hscan).2] at hfound
        cases hfound
      · exact hscan

end ArchLang
