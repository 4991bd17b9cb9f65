import ArchLang.Proofs.FormlessLines
import ArchLang.Proofs.Listing
import ArchLang.Proofs.Retouching
import ArchLang.Proofs.Runs
import ArchLang.Proofs.Wording
import Mathlib.Data.List.Chain
import Mathlib.Data.List.Forall2
import Mathlib.Tactic.FinCases

/-!
# Lines as they are written

The record of a line holds its words, and a phrase shows them with one space between any two.  The
author wrote a text.  Up to white space the two are the same, unless two words touch in the text:
then the phrase has a space that nobody wrote.  Names and reserved words go on for as long as they
can, so no word can touch them from behind.  Numbers and percentages stop at the first letter, and
there is no white space between the two words of `2nd`.

* `rawLines` — the lines of a body with their trivia; `LineRecord.told` is the part that the record
  tells.
* `lineText source line` — what stands in the source there, without comments.
* `Kept source line record` — the words of the record, joined with spaces, are that text.
* `Apart line` — every number and every percentage has trivia behind it, or nothing.
* `Follows`, `Lexed.follows` — what can stand behind a comment or a word, by the turns of the lexer.
* **`asWritten_of_declarationsOf`** — a line without quotes is kept exactly if it is apart.
* **`kept_not_always`** — `2nd` becomes `2 nd`.
-/

namespace ArchLang

open ArchLang.Grammar

/-! ## What a line tells -/

/-- The lines among some tokens as they stand, but for those in which no token counts. -/
def rawLines (s : Tokens) : List Tokens :=
  (s.splitOnP fun t => t.value = .newline).filter (significant · ≠ [])

lemma linesOf_eq_map_rawLines (s : Tokens) : linesOf s = (rawLines s).map significant := by
  rw [linesOf, rawLines, List.filter_map]
  rfl

/-- The words of the phrase, if the trigger has one. -/
def Trigger.phrase : Trigger (List String) → List String
  | .external _ _ phrase => phrase
  | _ => []

/-- The words of the phrase, if the action has one. -/
def Action.phrase : Action (List String) → List String
  | .internal _ _ _ phrase | .asks _ _ _ phrase | .returns _ _ phrase => phrase
  | .notifies .. => []

namespace LineRecord

/-- The words of a record, in the order of its line. -/
def words : LineRecord → List String
  | .trigger t => t.words
  | .action a => a.words

/-- The words of the phrase of a record. -/
def phrase : LineRecord → List String
  | .trigger t => t.phrase
  | .action a => a.phrase

/-- The part of a line that its record tells: what stands behind the `when` of a trigger, all of an
action line. -/
def told : LineRecord → Tokens → Tokens
  | .trigger _, line => (line.dropWhile fun t => t.value.isTrivia).tail
  | .action _, line => line

lemma told_within (record : LineRecord) (line : Tokens) : record.told line <:+: line := by
  cases record with
  | trigger => exact ((List.tail_suffix _).trans (List.dropWhile_suffix _)).isInfix
  | action => exact List.infix_rfl

lemma phrase_suffix_words (record : LineRecord) : record.phrase <:+ record.words := by
  cases record with
  | trigger t =>
      cases t with
      | external actor verb phrase => exact ⟨[actor, verb], rfl⟩
      | event | listens => exact List.nil_suffix
  | action a =>
      cases a with
      | internal domain verb connector phrase =>
          exact ⟨domain :: verb :: connector.toList, rfl⟩
      | asks domain target connector phrase =>
          exact ⟨domain :: "asks" :: target :: connector.toList, rfl⟩
      | notifies => exact List.nil_suffix
      | returns domain target phrase =>
          cases target with
          | none => exact ⟨[domain, "returns"], rfl⟩
          | some target => exact ⟨[domain, "returns", "to", target], rfl⟩

end LineRecord

/-- What a line tells are the words of its record. -/
lemma words_of_isLineOf {line : Tokens} {record : LineRecord}
    (h : IsLineOf (significant line) record) :
    (significant (record.told line)).map Token.display = record.words := by
  generalize hsig : significant line = words at h
  cases h with
  | trigger hwords =>
      rcases exists_blank_append line with hblank | ⟨g, x, w, rfl, hg, hx⟩
      · rw [significant, filter_of_blank hblank] at hsig
        cases hsig
      · have hrest : significant (g ++ x :: w) = x.value :: significant w := by
          rw [← significant_cons hx, significant, List.filter_append, filter_of_blank hg]
          rfl
        rw [hrest] at hsig
        obtain ⟨-, rfl⟩ := List.cons.inj hsig
        rwa [LineRecord.told, dropWhile_trivia_append hg hx]
  | action hwhen hwords => rwa [LineRecord.told, hsig]

/-! ## What stands behind a token -/

namespace Token

/-- A number or a percentage. -/
def isNumeric : Token → Bool
  | number _ | percentage _ => true
  | _ => false

/-- A comment. -/
def isComment : Token → Bool
  | lineComment _ => true
  | _ => false

/-- A string literal. -/
def isLiteral : Token → Bool
  | stringLiteral _ => true
  | _ => false

end Token

/-- One token can stand directly behind another: a comment ends with its line, and two plain words
touch only if the first is a number or a percentage. -/
structure Follows (t t' : Located Token) : Prop where
  comment : t.value.isComment = true → t'.value = .newline
  word : ∀ text text', wordOf t.value = some (.plain text) → wordOf t'.value = some (.plain text') →
    t.value.isNumeric = true

/-- A plain word begins with a character that a word may go on with. -/
lemma isNameChar_of_scan {c : Char} {cs lexeme rest : List Char} {t : Token}
    (h : scan c cs = .token t lexeme rest) {text : String}
    (hword : wordOf t = some (.plain text)) : isNameChar c = true := by
  cases scan_eq_token_iff.1 h with
  | word cs hname => exact isNameChar_of_isNameStart hname
  | number hdigit _ => exact isNameChar_of_isDigit hdigit
  | comment | literal | arrow | newline | blank | mark => cases hword

/-- A plain word that is no number has come to its end. -/
lemma stops_of_scan {c : Char} {cs lexeme rest : List Char} {t : Token}
    (h : scan c cs = .token t lexeme rest) {text : String} (hword : wordOf t = some (.plain text))
    (hnumeric : t.isNumeric = false) : Stops isNameChar rest := by
  cases scan_eq_token_iff.1 h with
  | word cs hname => exact (wordEnds_wordTail cs).stops
  | number hdigit hscan =>
      obtain ⟨_, rfl⟩ | ⟨_, rfl⟩ := number_or_percentage_of_numberScan hscan <;> cases hnumeric
  | comment | literal | arrow | newline | blank | mark => cases hword

lemma follows_of_scan {c c' : Char} {cs cs' lexeme lexeme' rest : List Char}
    {t t' : Located Token} (h : scan c cs = .token t.value lexeme (c' :: cs'))
    (h' : scan c' cs' = .token t'.value lexeme' rest) : Follows t t' where
  comment := by
    intro hcomment
    cases ht : t.value with
    | lineComment text =>
        rw [ht] at h
        rcases lineEnd_of_comment h with hnil | ⟨w, hw⟩
        · cases hnil
        · cases hw
          rw [scan_newline] at h'
          exact (Scan.token.inj h').1.symm
    | _ => rw [ht] at hcomment; cases hcomment
  word := by
    intro text text' hword hword'
    by_contra hnumeric
    have hstops := stops_of_scan h hword (by simpa using hnumeric) c' rfl
    rw [isNameChar_of_scan h' hword'] at hstops
    cases hstops

/-- **Neighbours.**  Each token of a text can stand behind the one before. -/
lemma Lexed.follows {offset : ℕ} {cs : List Char} {ts : Tokens} (h : Lexed offset cs ts) :
    ts.IsChain Follows := by
  induction h with
  | nil => exact .nil
  | cons hscan hrest ih =>
      cases hrest with
      | nil => exact .singleton _
      | cons hscan' _ => exact .cons_cons (follows_of_scan hscan hscan') ih

/-! ## Lines of plain words -/

/-- On one line, every token that counts is a plain word. -/
def PlainLine (u : Tokens) : Prop :=
  ∀ t ∈ u, t.value ≠ .newline ∧
    (t.value.isTrivia = false → ∃ text, wordOf t.value = some (.plain text))

/-- The tokens of a line but its comment. -/
def uncommented (u : Tokens) : Tokens := u.filter fun t => !t.value.isComment

/-- What stands in the source at some tokens, without comments. -/
def lineText (source : String) (u : Tokens) : List Char :=
  (uncommented u).flatMap fun t => (t.span.slice source).toList

/-- Every number and every percentage has trivia behind it, or nothing. -/
def Apart (u : Tokens) : Prop :=
  u.IsChain fun t t' => t.value.isNumeric = true → t'.value.isTrivia = true

lemma isTrivia_of_isComment {t : Token} (h : t.isComment = true) : t.isTrivia = true := by
  cases t <;> first | rfl | cases h

lemma not_isTrivia_of_isNumeric {t : Token} (h : t.isNumeric = true) : t.isTrivia = false := by
  cases t <;> first | rfl | cases h

/-- On a line of plain words none touch exactly if its numbers and percentages stand apart. -/
lemma isChain_uncommented_iff {u : Tokens} (hfollows : u.IsChain Follows) (hu : PlainLine u) :
    (uncommented u).IsChain (fun t t' => t.value.isTrivia = true ∨ t'.value.isTrivia = true) ↔
      Apart u := by
  induction u with
  | nil => exact iff_of_true .nil .nil
  | cons t u ih =>
      cases u with
      | nil =>
          refine iff_of_true ?_ (.singleton t)
          cases ht : t.value.isComment <;> simp [uncommented, ht]
      | cons t' v =>
          obtain ⟨hnext, hchain⟩ := List.isChain_cons_cons.1 hfollows
          obtain ⟨⟨-, hword⟩, hrest⟩ := List.forall_mem_cons.1 hu
          obtain ⟨⟨hline, hword'⟩, hv⟩ := List.forall_mem_cons.1 hrest
          have ht : ¬ t.value.isComment = true := fun h => hline (hnext.comment h)
          have hkept : uncommented (t :: t' :: v) = t :: uncommented (t' :: v) :=
            List.filter_cons_of_pos (by simpa using ht)
          rw [hkept, Apart, List.isChain_cons_cons]
          by_cases ht' : t'.value.isComment = true
          · -- a comment is the last token of its line
            obtain rfl : v = [] := by
              cases v with
              | nil => rfl
              | cons t'' v =>
                  have hend := (List.isChain_cons_cons.1 hchain).1.comment ht'
                  exact absurd hend (hv t'' List.mem_cons_self).1
            have hlast : uncommented [t'] = [] := by simp [uncommented, ht']
            rw [hlast]
            exact iff_of_true (.singleton t) ⟨fun _ => isTrivia_of_isComment ht', .singleton t'⟩
          · have hkept' : uncommented (t' :: v) = t' :: uncommented v :=
              List.filter_cons_of_pos (by simpa using ht')
            rw [← Apart, ← ih hchain hrest, hkept', List.isChain_cons_cons]
            refine and_congr_left fun _ => ⟨?_, fun happart => ?_⟩
            · rintro (htrivia | htrivia) hnumeric
              · rw [not_isTrivia_of_isNumeric hnumeric] at htrivia
                cases htrivia
              · exact htrivia
            · by_contra hwords
              obtain ⟨hcounts, hcounts'⟩ := not_or.1 hwords
              obtain ⟨text, htext⟩ := hword (by simpa using hcounts)
              obtain ⟨text', htext'⟩ := hword' (by simpa using hcounts')
              exact hcounts' (happart (hnext.word _ _ htext htext'))

/-! ## The text of a line -/

lemma not_isBlank_of_isPlainChar {c : Char} (h : isPlainChar c = true) : isBlank c = false := by
  by_contra hblank
  have hblank : isBlank c = true := by simpa using hblank
  rw [isPlainChar, not_isNameChar_of_isBlank hblank, Bool.false_or, decide_eq_true_eq] at h
  fin_cases h <;> cases hblank

/-- A word that is not quoted is plain. -/
lemma exists_plain_of_wordOf {t : Token} (hliteral : t.isLiteral = false)
    (h : (wordOf t).isSome = true) : ∃ text, wordOf t = some (.plain text) := by
  cases t with
  | stringLiteral => cases hliteral
  | keyword | percentage | number | identifier => exact ⟨_, rfl⟩
  | mark | lineComment | whitespace | newline => cases h

section Source

variable {source : String} {ts u : Tokens} (hts : tokensOf source = .ok ts)

include hts

lemma slice_ne_nil {t : Located Token} (ht : t ∈ ts) : (t.span.slice source).toList ≠ [] := by
  intro hnil
  have hsize := ((tokens_tile_source hts).2.2 t ht).1
  have hlt := (inOrder_of_tokensOf hts).2 t ht
  rw [← byteLength_toList, hnil, byteLength_nil, Span.length] at hsize
  omega

/-- A plain word stands in the source as it is shown. -/
lemma slice_of_plain {t : Located Token} (ht : t ∈ ts) {text : String}
    (hword : wordOf t.value = some (.plain text)) :
    (t.span.slice source).toList = t.value.display.toList ∧
      ∀ c ∈ (t.span.slice source).toList, isBlank c = false := by
  have hspelled := ((tokens_tile_source hts).2.2 t ht).2.1
  have htext := eq_toList_of_plain hspelled hword
  refine ⟨by rw [htext, display_of_wordOf hword]; rfl, fun c hc => ?_⟩
  rw [htext] at hc
  exact not_isBlank_of_isPlainChar ((tokensOf_eq_ok_iff.1 hts).plain ⟨t, ht, hword⟩ c hc)

lemma slice_of_whitespace {t : Located Token} (ht : t ∈ ts) (hvalue : t.value = .whitespace) :
    ∀ c ∈ (t.span.slice source).toList, isBlank c = true := by
  have hspelled := ((tokens_tile_source hts).2.2 t ht).2.1
  rw [hvalue] at hspelled
  cases hspelled with
  | whitespace _ hblanks => exact fun c hc => (hblanks c hc).1

lemma pieces_uncommented (hsub : u ⊆ ts) (hu : PlainLine u) :
    Pieces (fun t : Located Token => t.value.isTrivia) (fun t => (t.span.slice source).toList)
      (uncommented u) := by
  intro t ht
  obtain ⟨hmem, hcomment⟩ := List.mem_filter.1 ht
  obtain ⟨hline, hword⟩ := hu t hmem
  refine ⟨slice_ne_nil hts (hsub hmem), ?_⟩
  change ∀ c ∈ (t.span.slice source).toList, isBlank c = t.value.isTrivia
  cases htrivia : t.value.isTrivia with
  | true =>
      refine slice_of_whitespace hts (hsub hmem) ?_
      cases ht : t.value <;> simp_all [Token.isTrivia, Token.isComment]
  | false =>
      obtain ⟨text, htext⟩ := hword htrivia
      exact (slice_of_plain hts (hsub hmem) htext).2

/-- **One line.**  The plain words of a line, joined with spaces, are its text exactly if its
numbers and percentages stand apart. -/
lemma joinPhrase_eq_squeezed_lineText_iff (hwithin : u <:+: ts) (hu : PlainLine u) :
    joinPhrase ((significant u).map Token.display) = squeezed (lineText source u) ↔ Apart u := by
  have hsub : u ⊆ ts := hwithin.subset
  have hcounts : (uncommented u).filter (fun t => !t.value.isTrivia)
      = u.filter fun t => !t.value.isTrivia := by
    rw [uncommented, List.filter_filter]
    refine List.filter_congr fun t _ => ?_
    cases hcomment : t.value.isComment with
    | true => rw [isTrivia_of_isComment hcomment]; rfl
    | false => rw [Bool.not_false, Bool.and_true]
  have hslices : ((significant u).map Token.display).map String.toList
      = ((uncommented u).filter fun t => !t.value.isTrivia).map
        fun t => (t.span.slice source).toList := by
    rw [hcounts, significant, List.map_map, List.map_map]
    refine List.map_congr_left fun t ht => ?_
    obtain ⟨hmem, htrivia⟩ := List.mem_filter.1 ht
    obtain ⟨text, htext⟩ := (hu t hmem).2 (by simpa using htrivia)
    exact (slice_of_plain hts (hsub hmem) htext).1.symm
  have hunbroken : ∀ w ∈ (significant u).map Token.display, Unbroken w.toList := by
    rw [significant, List.map_map]
    refine List.forall_mem_map.2 fun t ht => ?_
    obtain ⟨hmem, htrivia⟩ := List.mem_filter.1 ht
    obtain ⟨text, htext⟩ := (hu t hmem).2 (by simpa using htrivia)
    obtain ⟨hslice, hblank⟩ := slice_of_plain hts (hsub hmem) htext
    rw [Function.comp_apply, ← hslice]
    exact ⟨slice_ne_nil hts (hsub hmem), hblank⟩
  have hfollows := List.IsChain.infix (tokensOf_eq_ok_iff.1 hts).follows hwithin
  rw [joinPhrase_eq_squeezed_iff hunbroken, hslices, lineText,
    runs_flatMap_iff (pieces_uncommented hts hsub hu), isChain_uncommented_iff hfollows hu]

end Source

/-! ## Lines and records -/

/-- There is no string literal in the line. -/
def Unquoted (line : Tokens) : Prop := ∀ t ∈ line, t.value.isLiteral = false

/-- The words of the record, joined with spaces, are what the line tells, up to white space. -/
def Kept (source : String) (line : Tokens) (record : LineRecord) : Prop :=
  joinPhrase record.words = squeezed (lineText source (record.told line))

/-- How the record of a line keeps its text. -/
structure AsWritten (source : String) (line : Tokens) (record : LineRecord) : Prop where
  isLine : IsLineOf (significant line) record
  /-- a line without quotes is kept exactly if it is apart -/
  kept_iff : Unquoted line → (Kept source line record ↔ Apart (record.told line))
  /-- and then the text ends with the phrase as it is shown -/
  phrase : Unquoted line → Apart (record.told line) →
    ∃ before, squeezed (lineText source (record.told line)) = before ++ joinPhrase record.phrase

/-- The records of a use case keep the text of the lines of its body. -/
def BodyAsWritten (source : String) (body : Tokens) (u : UseCaseDecl) : Prop :=
  List.Forall₂ (AsWritten source) (rawLines body) u.records

lemma wordOf_of_isFormOf {line : List Token} {record : LineRecord} (h : IsFormOf line record) :
    ∀ t ∈ line, (wordOf t).isSome = true := by
  have hsome : ∀ {ts : List Token} {ws : List Word}, ts.map wordOf = ws.map some →
      ∀ t ∈ ts, (wordOf t).isSome = true := by
    intro ts ws hwords t ht
    obtain ⟨w, -, hw⟩ := List.mem_map.1 (hwords ▸ List.mem_map_of_mem ht)
    rw [← hw, Option.isSome_some]
  cases h with
  | trigger hwords => exact List.forall_mem_cons.2 ⟨rfl, hsome hwords⟩
  | action _ hwords => exact hsome hwords

lemma plainLine_of_isFormOf {line : Tokens} {record : LineRecord}
    (hline : ∀ t ∈ line, t.value ≠ .newline) (h : IsFormOf (significant line) record)
    (hunquoted : Unquoted line) : PlainLine line := by
  intro t ht
  refine ⟨hline t ht, fun htrivia => exists_plain_of_wordOf (hunquoted t ht) ?_⟩
  refine wordOf_of_isFormOf h t.value (List.mem_map_of_mem (List.mem_filter.2 ⟨ht, ?_⟩))
  rw [htrivia]
  rfl

lemma asWritten_of_isFormOf {source : String} {ts line : Tokens} {record : LineRecord}
    (hts : tokensOf source = .ok ts) (hwithin : line <:+: ts)
    (hline : ∀ t ∈ line, t.value ≠ .newline) (h : IsFormOf (significant line) record) :
    AsWritten source line record := by
  have hwords := words_of_isLineOf (isLineOf_of_isFormOf h)
  have hkept : Unquoted line → (Kept source line record ↔ Apart (record.told line)) := by
    intro hunquoted
    have htold := record.told_within line
    have hplain : PlainLine (record.told line) := fun t ht =>
      plainLine_of_isFormOf hline h hunquoted t (htold.subset ht)
    rw [Kept, ← hwords]
    exact joinPhrase_eq_squeezed_lineText_iff hts (htold.trans hwithin) hplain
  refine ⟨isLineOf_of_isFormOf h, hkept, fun hunquoted happart => ?_⟩
  rw [← (hkept hunquoted).2 happart]
  exact exists_joinPhrase_of_suffix record.phrase_suffix_words

/-! ## Whole programs -/

/-- The body of a use case lies in the source. -/
lemma within_of_mem_bodiesFrom {region : Region} {ts body : Tokens}
    (h : body ∈ bodiesFrom region ts) : body <:+: ts := by
  induction ts generalizing region with
  | nil => cases h
  | cons t s ih =>
      have hlater : ∀ {region}, body ∈ bodiesFrom region s → body <:+: t :: s :=
        fun h => (ih h).trans (List.suffix_cons t s).isInfix
      unfold bodiesFrom at h
      split at h
      · cases region with
        | outside | inside => exact hlater h
        | heading =>
            rcases List.mem_cons.1 h with rfl | h
            · exact (List.takeWhile_prefix _).isInfix.trans (List.suffix_cons t s).isInfix
            · exact hlater h
      · exact hlater h

lemma bodyAsWritten_of_formsOf {source : String} {ts body : Tokens} {u : UseCaseDecl}
    (hts : tokensOf source = .ok ts) (hwithin : body <:+: ts) (h : FormsOf body u) :
    BodyAsWritten source body u := by
  have hlines : ∀ line ∈ rawLines body, line <:+: ts ∧ ∀ t ∈ line, t.value ≠ .newline := by
    intro line hmem
    obtain ⟨hpart, hline⟩ := of_mem_splitOnP (List.mem_of_mem_filter hmem)
    exact ⟨hpart.trans hwithin, fun t ht => by simpa using hline t ht⟩
  rw [FormsOf, linesOf_eq_map_rawLines, List.forall₂_map_left_iff] at h
  have hforms := (List.forall₂_and_left _ _).2 ⟨hlines, h⟩
  refine hforms.imp fun line record hboth => ?_
  obtain ⟨⟨hpart, hline⟩, hform⟩ := hboth
  exact asWritten_of_isFormOf hts hpart hline hform

/-- **Lines are kept as they are written**, up to white space and comments, exactly where no word
touches a number or a percentage before it; and then no phrase has a space that the author did not
write. -/
theorem asWritten_of_declarationsOf {source : String} {ds : List (Located Declaration)}
    (h : declarationsOf source = .ok ds) :
    ∃ ts, tokensOf source = .ok ts ∧ List.Forall₂ (BodyAsWritten source) (useCaseBodies ts)
      ((ds.map (·.value)).flatMap Declaration.useCaseDecls) := by
  obtain ⟨ts, hts, hread⟩ := declarationsOf_eq_ok.1 h
  have hforms := formsOf_of_declarations (declarationsOfTokens_eq_ok.1 hread)
  have hbodies : ∀ body ∈ useCaseBodies ts, body <:+: ts := fun _ => within_of_mem_bodiesFrom
  have hall := (List.forall₂_and_left _ _).2 ⟨hbodies, hforms⟩
  refine ⟨ts, hts, ?_⟩
  rw [List.flatMap_map]
  exact hall.imp fun _ _ ⟨hwithin, hform⟩ => bodyAsWritten_of_formsOf hts hwithin hform

/-- A line with `2nd` in it, and one with a percentage that stands apart. -/
def hall : String :=
  "use_case Hall \x7b\n  when Ann opens the 2nd door\n  Hall  waits 10% // now\n\x7d"

def hallTrigger : Tokens :=
  [⟨.whitespace, .between 16 18⟩, ⟨.keyword .when, .between 18 22⟩, ⟨.whitespace, .between 22 23⟩,
    ⟨.identifier "Ann", .between 23 26⟩, ⟨.whitespace, .between 26 27⟩,
    ⟨.identifier "opens", .between 27 32⟩, ⟨.whitespace, .between 32 33⟩,
    ⟨.identifier "the", .between 33 36⟩, ⟨.whitespace, .between 36 37⟩,
    ⟨.number "2", .between 37 38⟩, ⟨.identifier "nd", .between 38 40⟩,
    ⟨.whitespace, .between 40 41⟩, ⟨.identifier "door", .between 41 45⟩]

def hallAction : Tokens :=
  [⟨.whitespace, .between 46 48⟩, ⟨.identifier "Hall", .between 48 52⟩,
    ⟨.whitespace, .between 52 54⟩, ⟨.identifier "waits", .between 54 59⟩,
    ⟨.whitespace, .between 59 60⟩, ⟨.percentage "10", .between 60 63⟩,
    ⟨.whitespace, .between 63 64⟩, ⟨.lineComment " now", .between 64 70⟩]

def hallTokens : Tokens :=
  [⟨.keyword .useCase, .between 0 8⟩, ⟨.whitespace, .between 8 9⟩,
      ⟨.identifier "Hall", .between 9 13⟩, ⟨.whitespace, .between 13 14⟩,
      ⟨.mark .leftBrace, .between 14 15⟩, ⟨.newline, .between 15 16⟩] ++ hallTrigger ++
    [⟨.newline, .between 45 46⟩] ++ hallAction ++
    [⟨.newline, .between 70 71⟩, ⟨.mark .rightBrace, .between 71 72⟩]

def hallUseCase : UseCaseDecl :=
  ⟨⟨"Hall", .between 9 13⟩,
    [⟨⟨.external "Ann" "opens" ["the", "2", "nd", "door"], .between 18 45⟩,
      [⟨.internal "Hall" "waits" none ["10%"], .between 48 63⟩]⟩]⟩

/-- The records of the two lines. -/
def hallOpens : LineRecord := .trigger (.external "Ann" "opens" ["the", "2", "nd", "door"])

def hallWaits : LineRecord := .action (.internal "Hall" "waits" none ["10%"])

lemma tokensOf_hall : tokensOf hall = .ok hallTokens := by decide +kernel

lemma declarationsOf_hall :
    declarationsOf hall = .ok [⟨.useCase hallUseCase, .between 0 72⟩] := by decide +kernel

/-- What holds of the lines of the hall and its records, holds of these two. -/
lemma forall₂_hall {R : Tokens → LineRecord → Prop}
    (h : List.Forall₂ (fun body u => List.Forall₂ R (rawLines body) u.records)
      (useCaseBodies hallTokens) [hallUseCase]) :
    R hallTrigger hallOpens ∧ R hallAction hallWaits := by
  have hlines : (useCaseBodies hallTokens).map rawLines = [[hallTrigger, hallAction]] := by
    decide +kernel
  obtain ⟨body, hbody, hlines⟩ := List.map_eq_singleton_iff.1 hlines
  rw [hbody, List.forall₂_cons, hlines] at h
  obtain ⟨htrigger, haction⟩ := List.forall₂_cons.1 h.1
  exact ⟨htrigger, (List.forall₂_cons.1 haction).1⟩

/-- Only the second line is kept. -/
theorem asWritten_of_declarationsOf_hall :
    declarationsOf hall = .ok [⟨.useCase hallUseCase, .between 0 72⟩] ∧
      (∃ ts, tokensOf hall = .ok ts ∧
        List.Forall₂ (BodyAsWritten hall) (useCaseBodies ts) [hallUseCase]) ∧
      ¬ Kept hall hallTrigger hallOpens ∧ Kept hall hallAction hallWaits := by
  have hwritten := asWritten_of_declarationsOf declarationsOf_hall
  obtain ⟨ts, hts, hbodies⟩ := hwritten
  obtain rfl : hallTokens = ts := Except.ok.inj (tokensOf_hall.symm.trans hts)
  obtain ⟨htrigger, haction⟩ := forall₂_hall hbodies
  have hunquoted : Unquoted hallTrigger ∧ Unquoted hallAction := by
    unfold Unquoted
    decide
  have happart : ¬ Apart (hallOpens.told hallTrigger) ∧ Apart (hallWaits.told hallAction) := by
    unfold Apart
    decide
  exact ⟨declarationsOf_hall, ⟨hallTokens, hts, hbodies⟩,
    fun hkept => happart.1 ((htrigger.kept_iff hunquoted.1).1 hkept),
    (haction.kept_iff hunquoted.2).2 happart.2⟩

/-- A line without quotes is not always kept. -/
theorem kept_not_always :
    ¬ ∀ source ds, declarationsOf source = .ok ds → ∃ ts, tokensOf source = .ok ts ∧
      List.Forall₂ (fun body u => List.Forall₂
          (fun line record => Unquoted line → Kept source line record) (rawLines body) u.records)
        (useCaseBodies ts) ((ds.map (·.value)).flatMap Declaration.useCaseDecls) := by
  intro h
  obtain ⟨ts, hts, hbodies⟩ := h hall _ declarationsOf_hall
  obtain rfl : hallTokens = ts := Except.ok.inj (tokensOf_hall.symm.trans hts)
  have hunquoted : Unquoted hallTrigger := by
    unfold Unquoted
    decide
  have hkept := (forall₂_hall hbodies).1 hunquoted
  revert hkept
  unfold Kept
  decide +kernel

end ArchLang
