import ArchLang.Proofs.LineByLine
import ArchLang.Proofs.Respacing
import ArchLang.Proofs.TrailingComma
import ArchLang.Proofs.Unplacing
import ArchLang.Proofs.Writing
import Mathlib.Logic.Relation

/-!
# Comments, blanks and line ends

Whoever edits a source without touching its words expects the same model.  This file proves it for
four kinds of edits, made anywhere and any number of times: a comment is dropped, blanks are
replaced by other blanks, a carriage return is put in front of a line end, a line end is doubled.

The pieces of text behind an edit need not stay what they were.  Blanks that are put in front of
other blanks become one token with them, and a comment takes in the carriage return at the end of
its line.  What stays are the tokens that count and the gaps in front of them as far as they matter
(`Proofs.Spacing`).

* `Retouch t piece piece'` — what may be made of the piece of a source that spells the token `t`.
* `Retouched source source'` — some pieces of the source were retouched.
* `StandsFor cs' cs us` — the text `cs'` may take the place of the text `cs` with the tokens `us`:
  it has the same spacing, ends the token in front of it as `cs` does, and lets a line end where
  `cs` does.  It is carried from the back of the source to the front (`StandsFor.retouch`).
* **`ofSource_retouched`** — retouched sources have the same model or are rejected under the same
  codes.
-/

namespace ArchLang

open ArchLang.Parser ArchLang.Grammar

/-! ## Edits -/

/-- What may be made of the piece of text that spells a token. -/
inductive Retouch : Token → List Char → List Char → Prop where
  | kept (t : Token) (piece : List Char) : Retouch t piece piece
  | dropped (text : String) (piece : List Char) : Retouch (.lineComment text) piece []
  | blanks (piece : List Char) {run : List Char} : run ≠ [] →
      (∀ c ∈ run, isBlank c ∧ c ≠ '\n') → Retouch .whitespace piece run
  | returned (piece : List Char) : Retouch .newline piece ('\r' :: piece)
  | doubled (piece : List Char) : Retouch .newline piece (piece ++ piece)

/-- A blank that does not end the line. -/
def isLineBlank (c : Char) : Bool := isBlank c && c ≠ '\n'

lemma isLineBlank_iff {c : Char} : isLineBlank c = true ↔ isBlank c ∧ c ≠ '\n' := by
  simp [isLineBlank]

/-- Whether a piece may become another one. -/
def Token.allows (piece piece' : List Char) : Token → Bool
  | .lineComment _ => piece' = []
  | .whitespace => piece' ≠ [] && piece'.all isLineBlank
  | .newline => piece' = '\r' :: piece || piece' = piece ++ piece
  | _ => false

lemma retouch_iff {t : Token} {piece piece' : List Char} :
    Retouch t piece piece' ↔ piece' = piece ∨ t.allows piece piece' = true := by
  constructor
  · intro h
    cases h with
    | kept => exact .inl rfl
    | dropped => exact .inr rfl
    | blanks _ hne hrun => exact .inr (by simpa [Token.allows, hne, isLineBlank_iff] using hrun)
    | returned => exact .inr (by simp [Token.allows])
    | doubled => exact .inr (by simp [Token.allows])
  · rintro (rfl | h)
    · exact .kept t _
    · cases t with
      | lineComment text =>
          obtain rfl : piece' = [] := by simpa [Token.allows] using h
          exact .dropped text piece
      | whitespace =>
          obtain ⟨hne, hrun⟩ : piece' ≠ [] ∧ ∀ c ∈ piece', isLineBlank c = true := by
            simpa [Token.allows] using h
          exact .blanks piece hne fun c hc => isLineBlank_iff.1 (hrun c hc)
      | newline =>
          obtain rfl | rfl : piece' = '\r' :: piece ∨ piece' = piece ++ piece := by
            simpa [Token.allows] using h
          · exact .returned piece
          · exact .doubled piece
      | _ => cases h

instance (t : Token) (piece piece' : List Char) : Decidable (Retouch t piece piece') :=
  decidable_of_iff _ retouch_iff.symm

/-- The source with some of its pieces retouched. -/
def Retouched (source source' : String) : Prop :=
  ∃ ts pieces, tokensOf source = .ok ts ∧
    List.Forall₂ (fun t piece => Retouch t.value (t.span.slice source).toList piece) ts pieces ∧
    source'.toList = pieces.flatten

/-- The codes of all findings. -/
def Rejection.codes (e : Rejection) : List (Option DiagnosticCode) := e.diagnostics.map (·.code)

/-! ## Spacings of texts -/

/-- The tokens without places. -/
def placeless (us : List Token) : Tokens := us.map fun t => ⟨t, .origin⟩

lemma unplaced_eq_placeless (ts : Tokens) : unplaced ts = placeless (ts.map (·.value)) := by
  rw [placeless, List.map_map]
  rfl

section Spacing

variable {sp : Space} {t : Token} {us us' : List Token}

lemma spacing_placeless_cons (ht : t.isTrivia = true) :
    spacing sp (placeless (t :: us)) = spacing (sp.push t) (placeless us) :=
  spacing_cons_of_trivia ht

lemma spacing_placeless_congr (h : ∀ sp, spacing sp (placeless us') = spacing sp (placeless us)) :
    spacing sp (placeless (t :: us')) = spacing sp (placeless (t :: us)) := by
  cases ht : t.isTrivia with
  | true => rw [spacing_placeless_cons ht, spacing_placeless_cons ht, h]
  | false =>
      have hcons : ∀ us, spacing sp (placeless (t :: us))
          = (sp, ⟨t, .origin⟩) :: spacing .none (placeless us) := fun us => spacing_cons ht
      rw [hcons, hcons, h]

/-- White space adds nothing to trivia in front of it. -/
lemma push_whitespace (sp : Space) (t : Token) : (sp.push t).push .whitespace = sp.push t := by
  cases sp <;> cases t <;> rfl

/-- The text of a comment does not matter. -/
lemma push_lineComment (sp : Space) (text text' : String) :
    sp.push (.lineComment text) = sp.push (.lineComment text') := by cases sp <;> rfl

lemma push_newline (sp : Space) : sp.push .newline = .broken := by cases sp <;> rfl

/-- In front of a line end nothing matters. -/
lemma spacing_newline (sp : Space) (us : List Token) :
    spacing sp (placeless (.newline :: us)) = spacing .broken (placeless us) := by
  rw [spacing_placeless_cons rfl, push_newline]

end Spacing

/-! ## Runs of blanks -/

/-- There are only blanks up to the next line end. -/
def BlankLine (cs : List Char) : Prop := ∀ c ∈ cs.takeWhile (· ≠ '\n'), isBlank c = true

section Blanks

variable {cs run : List Char}

lemma blankLine_newline (cs : List Char) : BlankLine ('\n' :: cs) := by simp [BlankLine]

lemma blankLine_append (hrun : ∀ c ∈ run, isBlank c ∧ c ≠ '\n') :
    BlankLine (run ++ cs) ↔ BlankLine cs := by
  have hline : ∀ c ∈ run, decide (c ≠ '\n') = true := fun c hc => decide_eq_true (hrun c hc).2
  rw [BlankLine, List.takeWhile_append_of_pos hline]
  constructor
  · exact fun h c hc => h c (List.mem_append_right run hc)
  · intro h c hc
    rcases List.mem_append.1 hc with hc | hc
    · exact (hrun c hc).1
    · exact h c hc

lemma not_blankLine_cons {c : Char} (hc : isBlank c = false) (cs : List Char) :
    ¬ BlankLine (c :: cs) := by
  intro h
  have hne : c ≠ '\n' := by
    rintro rfl
    exact absurd hc (by decide)
  rw [h c (by simp [hne])] at hc
  cases hc

lemma BlankLine.blankNext (h : BlankLine cs) : BlankNext cs := by
  intro c hc
  obtain ⟨cs, rfl⟩ := List.head?_eq_some_iff.1 hc
  by_contra hblank
  exact not_blankLine_cons (by simpa using hblank) cs h

lemma blankNext_append (hne : run ≠ []) (hrun : ∀ c ∈ run, isBlank c ∧ c ≠ '\n') :
    BlankNext (run ++ cs) := by
  obtain ⟨c, run, rfl⟩ := List.exists_cons_of_ne_nil hne
  intro d hd
  obtain rfl : c = d := by simpa using hd
  exact (hrun c List.mem_cons_self).1

/-- On a line of blanks, the blanks go as far as the line. -/
lemma BlankLine.dropWhile_eq (h : BlankLine cs) :
    cs.dropWhile (· ≠ '\n') = cs.dropWhile isLineBlank := by
  induction cs with
  | nil => rfl
  | cons c cs ih =>
      by_cases hc : c = '\n'
      · subst hc
        rfl
      · have hblank : isBlank c = true := h c (by simp [hc])
        have hrest : BlankLine cs := by
          rwa [← List.singleton_append, blankLine_append (by simp [hblank, hc])] at h
        rw [List.dropWhile_cons_of_pos (by simpa using hc),
          List.dropWhile_cons_of_pos (isLineBlank_iff.2 ⟨hblank, hc⟩), ih hrest]

end Blanks

/-! ## Edited texts and their tokens -/

lemma lexesTo_of_lexed {offset : ℕ} {cs : List Char} {ts : Tokens} (h : Lexed offset cs ts) :
    LexesTo cs (ts.map (·.value)) := fun offset' => h.exists_shifted offset'

/-- Blanks in front of a text are its first token. -/
lemma exists_lexesTo_dropWhile {cs : List Char} {us : List Token} (h : LexesTo cs us) :
    ∃ us', LexesTo (cs.dropWhile isLineBlank) us' ∧ (us = us' ∨ us = .whitespace :: us') := by
  cases cs with
  | nil => exact ⟨us, h, .inl rfl⟩
  | cons c cs =>
      cases hc : isLineBlank c with
      | false => exact ⟨us, by rwa [List.dropWhile_cons_of_neg (by simp [hc])], .inl rfl⟩
      | true =>
          obtain ⟨hblank, hline⟩ := isLineBlank_iff.1 hc
          obtain ⟨ts, hlexed, rfl⟩ := h 0
          cases hlexed with
          | cons hscan hrest =>
              rw [scan_eq_token_iff.2 (.blank cs hblank hline)] at hscan
              cases hscan
              rw [List.dropWhile_cons_of_pos hc]
              exact ⟨_, lexesTo_of_lexed hrest, .inr rfl⟩

/-- Blanks in front of a text are white space, be it a token of its own or a part of one. -/
lemma lexesTo_blanks {run cs : List Char} {us : List Token} (hne : run ≠ [])
    (hrun : ∀ c ∈ run, isBlank c ∧ c ≠ '\n') (h : LexesTo cs us) :
    ∃ us', LexesTo (run ++ cs) us' ∧
      ∀ sp, spacing sp (placeless us') = spacing sp (placeless (.whitespace :: us)) := by
  obtain ⟨c, run, rfl⟩ := List.exists_cons_of_ne_nil hne
  rw [List.forall_mem_cons] at hrun
  obtain ⟨⟨hblank, hline⟩, hrun⟩ := hrun
  obtain ⟨us', hus', hus⟩ := exists_lexesTo_dropWhile h
  have hscan := scan_eq_token_iff.2 (Front.blank (run ++ cs) hblank hline)
  have hdrop : (run ++ cs).dropWhile (fun d => isBlank d && d ≠ '\n')
      = cs.dropWhile isLineBlank :=
    List.dropWhile_append_of_pos fun d hd => isLineBlank_iff.2 (hrun d hd)
  rw [hdrop] at hscan
  refine ⟨.whitespace :: us', lexesTo_cons hscan hus', fun sp => ?_⟩
  rcases hus with rfl | rfl
  · rfl
  · rw [spacing_placeless_cons rfl, spacing_placeless_cons rfl, spacing_placeless_cons rfl,
      push_whitespace]

/-- A comment takes in the blanks that end its line. -/
lemma lexesTo_comment {content cs : List Char} {us : List Token} (text : String)
    (hcontent : '\n' ∉ content) (hline : BlankLine cs) (h : LexesTo cs us) :
    ∃ us', LexesTo ('/' :: '/' :: content ++ cs) us' ∧
      ∀ sp, spacing sp (placeless us') = spacing sp (placeless (.lineComment text :: us)) := by
  obtain ⟨us', hus', hus⟩ := exists_lexesTo_dropWhile h
  have hscan := scan_eq_token_iff.2 (Front.comment (content ++ cs))
  have hdrop : (content ++ cs).dropWhile (· ≠ '\n') = cs.dropWhile isLineBlank := by
    rw [List.dropWhile_append_of_pos fun c hc => decide_eq_true (ne_of_mem_of_not_mem hc hcontent),
      hline.dropWhile_eq]
  rw [hdrop] at hscan
  refine ⟨_, lexesTo_cons hscan hus', fun sp => ?_⟩
  rw [spacing_placeless_cons rfl, spacing_placeless_cons rfl, push_lineComment sp _ text]
  rcases hus with rfl | rfl
  · rfl
  · rw [spacing_placeless_cons rfl, push_whitespace]

/-- A text that may take the place of another one with the tokens `us`. -/
structure StandsFor (cs' cs : List Char) (us : List Token) : Prop where
  lexesTo : ∃ us', LexesTo cs' us' ∧
    ∀ sp, spacing sp (placeless us') = spacing sp (placeless us)
  closes : ∀ {t : Token}, t.isTrivia = false → Closes t cs → Closes t cs'
  blankLine : BlankLine cs → BlankLine cs'

/-- What ends a token that counts may be replaced by blanks, unless it is a hyphen. -/
lemma closes_of_blankNext {t : Token} {cs cs' : List Char} (ht : t.isTrivia = false)
    (h : Closes t cs) (hcs : cs.head? ≠ some '-') (h' : BlankNext cs') : Closes t cs' := by
  cases t with
  | keyword k => exact ⟨h'.wordEnds, h'.ne (by decide)⟩
  | identifier name => exact ⟨h'.wordEnds, fun hkeyword => absurd (h.2 hkeyword) hcs⟩
  | number digits =>
      exact ⟨⟨fun c hc => not_isDigit_of_isBlank (h' c hc), h'.ne (by decide)⟩, h'.ne (by decide)⟩
  | lineComment | whitespace | newline => cases ht
  | mark | stringLiteral | percentage => trivial

lemma standsFor_nil : StandsFor [] [] [] := ⟨⟨[], lexesTo_nil, fun _ => rfl⟩, fun _ h => h, id⟩

/-- A token that counts does not begin with a blank. -/
lemma not_isBlank_of_scan {c : Char} {cs lexeme rest : List Char} {t : Token}
    (hscan : scan c cs = .token t lexeme rest) (ht : t.isTrivia = false) : isBlank c = false := by
  by_contra hblank
  by_cases hc : c = '\n'
  · rw [hc, scan_newline] at hscan
    cases hscan
    cases ht
  · rw [scan_eq_token_iff.2 (.blank cs (by simpa using hblank) hc)] at hscan
    cases hscan
    cases ht

namespace StandsFor

variable {c : Char} {cs lexeme rest rest' run : List Char} {t : Token} {us : List Token}
  (h : StandsFor rest' rest us)

include h

/-- A token that counts is read again. -/
lemma kept (hscan : scan c cs = .token t lexeme rest) (hpoint : rest.head? ≠ some '.')
    (ht : t.isTrivia = false) : StandsFor (lexeme ++ rest') (c :: cs) (t :: us) := by
  obtain ⟨us', hus', hspacing⟩ := h.lexesTo
  obtain ⟨l, rfl, hagain⟩ := scan_again hscan (h.closes ht (closes_of_scan hscan hpoint))
  have hfront : SameFront (c :: cs) (c :: l ++ rest') := by
    have hopens := opens_of_scan hscan []
    rw [List.append_nil] at hopens
    rw [text_of_scan hscan]
    exact hopens.sameFront rest rest'
  refine ⟨⟨_, lexesTo_cons hagain hus', fun _ => spacing_placeless_congr hspacing⟩,
    fun _ hcloses => hcloses.congr hfront,
    fun hline => absurd hline (not_blankLine_cons (not_isBlank_of_scan hscan ht) cs)⟩

/-- A comment is read again, with the blanks that end its line. -/
lemma comment (text : String) {content : List Char} (hcontent : '\n' ∉ content)
    (hrest : BlankLine rest) : StandsFor ('/' :: '/' :: content ++ rest')
      ('/' :: '/' :: content ++ rest) (.lineComment text :: us) := by
  obtain ⟨us', hus', hspacing⟩ := h.lexesTo
  obtain ⟨us'', hus'', hspacing'⟩ := lexesTo_comment text hcontent (h.blankLine hrest) hus'
  exact ⟨⟨us'', hus'', fun sp => (hspacing' sp).trans (spacing_placeless_congr hspacing)⟩,
    fun _ hcloses => hcloses.congr ⟨rfl, fun hhyphen => nomatch hhyphen⟩,
    fun hline => absurd hline (not_blankLine_cons (by decide) _)⟩

/-- A comment may be missing, for behind it the line ends. -/
lemma dropped {text : String} {content : List Char} (hrest : BlankLine rest)
    (hus : us = [] ∨ ∃ us', us = .newline :: us') :
    StandsFor rest' ('/' :: content ++ rest) (.lineComment text :: us) := by
  obtain ⟨us', hus', hspacing⟩ := h.lexesTo
  -- only a comment on the last line is without a line end, and there nothing counts behind it
  refine ⟨⟨us', hus', fun sp => ?_⟩,
    fun ht hcloses => closes_of_blankNext ht hcloses (by simp) (h.blankLine hrest).blankNext,
    fun hline => absurd hline (not_blankLine_cons (by decide) _)⟩
  rw [hspacing, spacing_placeless_cons rfl]
  rcases hus with rfl | ⟨us, rfl⟩
  · rfl
  · rw [spacing_newline, spacing_newline]

/-- Blanks may be any blanks. -/
lemma blanks (hne : lexeme ≠ []) (hlexeme : ∀ d ∈ lexeme, isBlank d ∧ d ≠ '\n') (hrun : run ≠ [])
    (hblank : ∀ d ∈ run, isBlank d ∧ d ≠ '\n') :
    StandsFor (run ++ rest') (lexeme ++ rest) (.whitespace :: us) := by
  obtain ⟨us', hus', hspacing⟩ := h.lexesTo
  obtain ⟨us'', hus'', hspacing'⟩ := lexesTo_blanks hrun hblank hus'
  refine ⟨⟨us'', hus'', fun sp => (hspacing' sp).trans (spacing_placeless_congr hspacing)⟩,
    fun ht hcloses => ?_, fun hline => ?_⟩
  · exact closes_of_blankNext ht hcloses ((blankNext_append hne hlexeme).ne (by decide))
      (blankNext_append hrun hblank)
  · rw [blankLine_append hblank]
    exact h.blankLine ((blankLine_append hlexeme).1 hline)

lemma newline : StandsFor ('\n' :: rest') ('\n' :: rest) (.newline :: us) := by
  obtain ⟨us', hus', hspacing⟩ := h.lexesTo
  exact ⟨⟨_, lexesTo_cons (scan_newline rest') hus', fun _ => spacing_placeless_congr hspacing⟩,
    fun _ hcloses => hcloses.congr ⟨rfl, fun hhyphen => nomatch hhyphen⟩,
    fun _ => blankLine_newline rest'⟩

/-- A carriage return in front of a line end is a blank. -/
lemma returned : StandsFor ('\r' :: '\n' :: rest') ('\n' :: rest) (.newline :: us) := by
  obtain ⟨us', hus', hspacing⟩ := h.lexesTo
  have hreturn : ∀ d ∈ ['\r'], isBlank d ∧ d ≠ '\n' := List.forall_mem_singleton.2 (by decide)
  obtain ⟨us'', hus'', hspacing'⟩ := lexesTo_blanks (List.cons_ne_nil _ _) hreturn
    (lexesTo_cons (scan_newline rest') hus')
  refine ⟨⟨us'', hus'', fun sp => ?_⟩, fun ht hcloses => ?_, fun _ => ?_⟩
  · rw [hspacing', spacing_placeless_cons rfl, spacing_newline, spacing_newline, hspacing]
  · exact closes_of_blankNext ht hcloses (by simp) (blankNext_append (List.cons_ne_nil _ _) hreturn)
  · exact (blankLine_append hreturn).2 (blankLine_newline rest')

/-- One line end is as good as two. -/
lemma doubled : StandsFor ('\n' :: '\n' :: rest') ('\n' :: rest) (.newline :: us) := by
  obtain ⟨us', hus', hspacing⟩ := h.lexesTo
  refine ⟨⟨_, lexesTo_cons (scan_newline _) (lexesTo_cons (scan_newline rest') hus'), fun sp => ?_⟩,
    fun _ hcloses => hcloses.congr ⟨rfl, fun hhyphen => nomatch hhyphen⟩,
    fun _ => blankLine_newline _⟩
  rw [spacing_newline, spacing_newline, spacing_newline, hspacing]

end StandsFor

/-- Behind a comment the text or its line ends. -/
lemma lineEnd_of_comment {c : Char} {cs lexeme rest : List Char} {text : String}
    (hscan : scan c cs = .token (.lineComment text) lexeme rest) :
    rest = [] ∨ ∃ w, rest = '\n' :: w := by
  have hcloses : Closes (.lineComment text) rest := by
    have hfront := scan_eq_token_iff.1 hscan
    generalize ht : Token.lineComment text = t at hfront
    cases hfront with
    | comment cs => exact stops_dropWhile _ _
    | word cs hname =>
        obtain ⟨_, h⟩ | h := keyword_or_identifier_of_wordToken ht.symm <;> cases h
    | number hdigit hnumber =>
        obtain ⟨_, rfl⟩ | ⟨_, rfl⟩ := number_or_percentage_of_numberScan hnumber <;> cases ht
    | literal | arrow | newline | blank | mark => cases ht
  cases rest with
  | nil => exact .inl rfl
  | cons d w =>
      obtain rfl : d = '\n' := by simpa using hcloses d rfl
      exact .inr ⟨w, rfl⟩

lemma blankLine_of_lineEnd {rest : List Char} (h : rest = [] ∨ ∃ w, rest = '\n' :: w) :
    BlankLine rest := by
  rcases h with rfl | ⟨w, rfl⟩
  · exact fun c hc => nomatch hc
  · exact blankLine_newline w

lemma newline_of_lineEnd {offset : ℕ} {rest : List Char} {ts : Tokens}
    (hrest : Lexed offset rest ts) (h : rest = [] ∨ ∃ w, rest = '\n' :: w) :
    ts.map (·.value) = [] ∨ ∃ us, ts.map (·.value) = .newline :: us := by
  rcases h with rfl | ⟨w, rfl⟩
  · cases hrest
    exact .inl rfl
  · cases hrest with
    | cons hscan hw =>
        rw [scan_newline] at hscan
        cases hscan
        exact .inr ⟨_, rfl⟩

/-- **One piece.**  The pieces of a text may be retouched one after the other, from the back. -/
lemma StandsFor.retouch {offset : ℕ} {c : Char} {cs lexeme rest rest' piece : List Char} {t : Token}
    {ts : Tokens} (hscan : scan c cs = .token t lexeme rest) (hrest : Lexed offset rest ts)
    (h : StandsFor rest' rest (ts.map (·.value))) (hpiece : Retouch t lexeme piece) :
    StandsFor (piece ++ rest') (c :: cs) (t :: ts.map (·.value)) := by
  have hspelled := spelled_of_scan hscan
  cases ht : t.isTrivia with
  | false =>
      cases hpiece with
      | kept => exact h.kept hscan hrest.head_ne_point ht
      | _ => cases ht
  | true =>
      rw [text_of_scan hscan]
      cases hspelled with
      | newline =>
          cases hpiece with
          | kept => exact h.newline
          | returned => exact h.returned
          | doubled => exact h.doubled
      | whitespace hne hblank =>
          cases hpiece with
          | kept => exact h.blanks hne hblank hne hblank
          | blanks _ hrun hblank' => exact h.blanks hne hblank hrun hblank'
      | lineComment text hfree =>
          have hend := lineEnd_of_comment hscan
          cases hpiece with
          | kept => exact h.comment text hfree (blankLine_of_lineEnd hend)
          | dropped => exact h.dropped (blankLine_of_lineEnd hend) (newline_of_lineEnd hrest hend)
      | _ => cases ht

lemma Lexed.standsFor {before cs : List Char} {ts : Tokens} {pieces : List (List Char)}
    (h : Lexed (byteLength before) cs ts)
    (hpieces : List.Forall₂ (fun t piece =>
      Retouch t.value (t.span.slice (String.ofList (before ++ cs))).toList piece) ts pieces) :
    StandsFor pieces.flatten cs (ts.map (·.value)) := by
  generalize hoffset : byteLength before = offset at h
  -- what stands behind a piece is settled first, for it decides where the piece ends
  induction h generalizing before pieces with
  | nil =>
      cases hpieces
      exact standsFor_nil
  | @cons offset c cs lexeme rest t ts hscan hrest ih =>
      subst hoffset
      have htext : before ++ (c :: cs) = before ++ lexeme ++ rest := by
        rw [List.append_assoc, text_of_scan hscan]
      rw [htext] at hpieces
      cases hpieces with
      | cons hpiece hpieces =>
          rw [slice_between, String.toList_ofList] at hpiece
          rw [List.flatten_cons]
          exact StandsFor.retouch hscan hrest (ih hpieces (byteLength_append before lexeme)) hpiece

/-- The tokens that count stay, and the gaps in front of them stay as far as they matter. -/
lemma Retouched.exists_tokens {source source' : String} (h : Retouched source source') :
    ∃ ts ts', tokensOf source = .ok ts ∧ tokensOf source' = .ok ts' ∧
      spacing .none (unplaced ts') = spacing .none (unplaced ts) := by
  obtain ⟨ts, pieces, htokens, hpieces, hsource'⟩ := h
  have hlexed : Lexed (byteLength []) source.toList ts := tokensOf_eq_ok_iff.1 htokens
  have hstands : StandsFor pieces.flatten source.toList (ts.map (·.value)) := by
    refine hlexed.standsFor ?_
    rwa [List.nil_append, String.ofList_toList]
  obtain ⟨us', hus', hspacing⟩ := hstands.lexesTo
  obtain ⟨ts', hlexed', rfl⟩ := hus' 0
  refine ⟨ts, ts', htokens, tokensOf_eq_ok_iff.2 (hsource' ▸ hlexed'), ?_⟩
  rw [unplaced_eq_placeless, unplaced_eq_placeless, hspacing]

lemma reading_unplaced (ts : Tokens) : reading (unplaced ts) = (reading ts).map unplaced := by
  unfold reading declarationsOfTokens
  rw [declarations_unplaced]
  cases declarations ts with
  | done ds r => rfl
  | failed e => exact congrArg Except.error (Failure.code_eq _ e blank_unplaced _ _)

lemma Retouched.reading_eq {source source' : String} (h : Retouched source source') :
    ∃ ts ts', tokensOf source = .ok ts ∧ tokensOf source' = .ok ts' ∧
      (reading ts').map unplaced = (reading ts).map unplaced := by
  obtain ⟨ts, ts', hts, hts', hspacing⟩ := h.exists_tokens
  refine ⟨ts, ts', hts, hts', ?_⟩
  rw [← reading_unplaced, ← reading_unplaced]
  refine reading_of_respaced (respaced_of_spacing ?_)
  rw [hspacing]
  exact sameSpacing_refl _ _

/-! ## Sources -/

/-- What becomes of a source that has tokens depends on what is read from them, up to places. -/
lemma ofSource_of_tokens {source : String} {ts : Tokens} (h : tokensOf source = .ok ts)
    (policies : Policies) : (Model.ofSource policies source).mapError Rejection.codes
      = (((reading ts).map unplaced).map fun ds =>
          Model.ofDeclarations policies (ds.map (·.value))).mapError fun code => [code] := by
  unfold Model.ofSource reading
  rw [declarationsOf_of_tokens h]
  cases declarationsOfTokens ts with
  | error d => rfl
  | ok ds =>
      have hvalues : (unplaced ds).map (·.value) = unplaced (ds.map (·.value)) :=
        map_value_located ds
      change Except.ok _ = Except.ok (Model.ofDeclarations policies ((unplaced ds).map (·.value)))
      rw [hvalues, ofDeclarations_unplaced]

/-- **Comments, blanks and line ends carry no meaning.**  Retouch a source anywhere, and any number
of times: the model stays the same, or the source stays rejected under the same codes. -/
theorem ofSource_retouched {source source' : String}
    (h : Relation.ReflTransGen Retouched source source') (policies : Policies) :
    (Model.ofSource policies source').mapError Rejection.codes
      = (Model.ofSource policies source).mapError Rejection.codes := by
  induction h with
  | refl => rfl
  | tail _ hstep ih =>
      obtain ⟨ts, ts', hts, hts', hreading⟩ := hstep.reading_eq
      rw [← ih, ofSource_of_tokens hts', ofSource_of_tokens hts, hreading]

/-- A use case with a comment. -/
def commentedLines : String := "use_case U \x7b // pay\n  when A pays\n\x7d"

/-- Its tokens. -/
def commentedTokens : Tokens :=
  [⟨.keyword .useCase, .between 0 8⟩, ⟨.whitespace, .between 8 9⟩, ⟨.identifier "U", .between 9 10⟩,
    ⟨.whitespace, .between 10 11⟩, ⟨.mark .leftBrace, .between 11 12⟩,
    ⟨.whitespace, .between 12 13⟩, ⟨.lineComment " pay", .between 13 19⟩,
    ⟨.newline, .between 19 20⟩, ⟨.whitespace, .between 20 22⟩, ⟨.keyword .when, .between 22 26⟩,
    ⟨.whitespace, .between 26 27⟩, ⟨.identifier "A", .between 27 28⟩,
    ⟨.whitespace, .between 28 29⟩, ⟨.identifier "pays", .between 29 33⟩,
    ⟨.newline, .between 33 34⟩, ⟨.mark .rightBrace, .between 34 35⟩]

/-- The comment is dropped, the line ends are retouched, and there is a tab in place of blanks. -/
theorem ofSource_retouched_commentedLines :
    Retouched commentedLines "use_case U \x7b \r\n\twhen A pays\n\n\x7d" ∧
      (Model.ofSource {} commentedLines).isOk = true ∧
      (Model.ofSource {} "use_case U \x7b \r\n\twhen A pays\n\n\x7d").mapError Rejection.codes
        = (Model.ofSource {} commentedLines).mapError Rejection.codes := by
  have hstep : Retouched commentedLines "use_case U \x7b \r\n\twhen A pays\n\n\x7d" :=
    ⟨commentedTokens, ["use_case".toList, [' '], ['U'], [' '], ['\x7b'], [' '], [], ['\r', '\n'],
      ['\t'], "when".toList, [' '], ['A'], [' '], "pays".toList, ['\n', '\n'], ['\x7d']],
      by decide +kernel, by decide +kernel, by decide +kernel⟩
  exact ⟨hstep, by decide +kernel, ofSource_retouched (.single hstep) {}⟩

end ArchLang
