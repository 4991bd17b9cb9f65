import ArchLang.Token.Lexer
import Mathlib.Data.List.Basic
import Mathlib.Data.List.Forall2
import Mathlib.Data.List.TakeWhile
import Mathlib.Data.String.Basic
import Mathlib.Tactic.Common

/-!
# Tokens and their spelling

A text without lexical faults is cut into tokens and nothing is left over.  This file says so in
terms of the text alone: each token covers some characters of the text, the covered pieces follow
one another from the first byte to the last, and a piece says what its token holds.

* `Front c cs t lexeme rest` — what `scan` can read at the front of `c :: cs`, one case for each
  kind of token.  With `scan_eq_token_iff` no later proof has to open `scan`.
* `Lexed offset cs ts` — the loop of the lexer as a relation: `ts` are the tokens of `cs`, a text
  that begins at the byte `offset`, and there are no faults (`tokensOf_eq_ok_iff`).
* `Spelled t cs` — the characters `cs` are a spelling of the token `t`; `Decodes` is the part of it
  about escapes in string literals.
* `Span.slice` and `Tiles start spans stop` — what a span cuts out of a source, and spans that
  follow one another from `start` to `stop`, none of them empty.
* **`tokens_tile_source`** — the tokens of a source tile it, each piece spells its token and can
  spell no other token of the same kind.
-/

namespace ArchLang

/-! ## The token at the front -/

/-- The tokens that can stand at the front of a text `c :: cs`, kind by kind, each with the
characters it is made of and those behind it. -/
inductive Front : Char → List Char → Token → List Char → List Char → Prop where
  | comment (cs : List Char) :
      Front '/' ('/' :: cs) (.lineComment (String.ofList (cs.takeWhile (· ≠ '\n'))))
        ('/' :: '/' :: cs.takeWhile (· ≠ '\n')) (cs.dropWhile (· ≠ '\n'))
  | literal {cs text lexeme rest : List Char} : scanBody cs = .closed text lexeme rest →
      Front '"' cs (.stringLiteral (String.ofList text)) ('"' :: lexeme) rest
  | arrow (cs : List Char) : Front '-' ('>' :: cs) (.mark .arrow) ['-', '>'] cs
  | word {c : Char} (cs : List Char) : isNameStart c = true →
      Front c cs (wordToken (c :: (scanWordTail cs).1) (scanWordTail cs).2)
        (c :: (scanWordTail cs).1) (scanWordTail cs).2
  | number {c : Char} {cs lexeme rest : List Char} {t : Token} : c.isDigit = true →
      numberScan (c :: cs.takeWhile Char.isDigit ++ (scanFraction (cs.dropWhile Char.isDigit)).1)
        (scanFraction (cs.dropWhile Char.isDigit)).2 = .token t lexeme rest →
      Front c cs t lexeme rest
  | newline (cs : List Char) : Front '\n' cs .newline ['\n'] cs
  | blank {c : Char} (cs : List Char) : isBlank c = true → c ≠ '\n' →
      Front c cs .whitespace (c :: cs.takeWhile fun d => isBlank d && d ≠ '\n')
        (cs.dropWhile fun d => isBlank d && d ≠ '\n')
  | mark {c : Char} {m : Mark} (cs : List Char) : Mark.ofChar? c = some m →
      Front c cs (.mark m) [c] cs

lemma isNameStart_iff {c : Char} : isNameStart c = true ↔
    (65 ≤ c.toNat ∧ c.toNat ≤ 90) ∨ (97 ≤ c.toNat ∧ c.toNat ≤ 122) ∨ c = '_' := by
  change (decide (c.val ≥ 65 ∧ c.val ≤ 90) || (decide (c.val ≥ 97) && decide (c.val ≤ 122))
    || c == '_') = true ↔ _
  simp [UInt32.le_iff_toNat_le, or_assoc]

lemma not_isNameStart_of_isDigit {c : Char} (h : c.isDigit = true) : isNameStart c = false := by
  obtain ⟨hle, hge⟩ : 48 ≤ c.toNat ∧ c.toNat ≤ 57 := Char.isDigit_iff_toNat.1 h
  rw [Bool.eq_false_iff, ne_eq, isNameStart_iff]
  rintro (hc | hc | rfl)
  · omega
  · omega
  · exact absurd hge (by decide)

section Blanks

variable {c : Char} (h : isBlank c = true)

include h

lemma not_isNameStart_of_isBlank : isNameStart c = false := by
  simp only [isBlank, Bool.or_eq_true, Bool.and_eq_true, decide_eq_true_eq, beq_iff_eq] at h
  rw [Bool.eq_false_iff, ne_eq, isNameStart_iff]
  rintro (hc | hc | rfl)
  · omega
  · omega
  · exact absurd h (by decide)

lemma not_isDigit_of_isBlank : c.isDigit = false := by
  simp only [isBlank, Bool.or_eq_true, Bool.and_eq_true, decide_eq_true_eq, beq_iff_eq] at h
  rw [Bool.eq_false_iff, ne_eq]
  intro hdigit
  obtain ⟨hle, hge⟩ : 48 ≤ c.toNat ∧ c.toNat ≤ 57 := Char.isDigit_iff_toNat.1 hdigit
  omega

end Blanks

section Scan

variable {c : Char} {cs lexeme rest : List Char} {t : Token}

lemma front_of_scan (h : scan c cs = .token t lexeme rest) : Front c cs t lexeme rest := by
  unfold scan at h
  split at h
  · next hc =>
    subst hc
    split at h <;> cases h
    exact .comment _
  split at h
  · next hc =>
    subst hc
    split at h <;> cases h
    next hbody => exact .literal hbody
  split at h
  · next hc =>
    subst hc
    split at h <;> cases h
    exact .arrow _
  split at h
  · next hname =>
    cases h
    exact .word cs hname
  split at h
  · next hdigit => exact .number hdigit h
  split at h
  · next hbreak =>
    cases h
    exact hbreak ▸ .newline cs
  split at h
  · next hbreak hblank =>
    cases h
    exact .blank cs hblank hbreak
  split at h <;> cases h
  next hm => exact .mark cs hm

lemma scan_of_front (h : Front c cs t lexeme rest) : scan c cs = .token t lexeme rest := by
  have hne : ∀ {kind : Char → Bool}, kind c = true → ∀ d, kind d = false → c ≠ d := by
    rintro kind hc d hd rfl
    rw [hd] at hc
    cases hc
  cases h with
  | comment cs => rfl
  | literal hbody => simp [scan, hbody]
  | arrow cs => rfl
  | word cs hname =>
      simp [scan, hne hname '/' rfl, hne hname '"' rfl, hne hname '-' rfl, hname]
  | number hdigit hscan =>
      simpa [scan, hne hdigit '/' rfl, hne hdigit '"' rfl, hne hdigit '-' rfl, hdigit,
        not_isNameStart_of_isDigit hdigit] using hscan
  | newline cs => rfl
  | blank cs hblank hbreak =>
      simp [scan, hne hblank '/' rfl, hne hblank '"' rfl, hne hblank '-' rfl, hblank, hbreak,
        not_isNameStart_of_isBlank hblank, not_isDigit_of_isBlank hblank]
  | mark cs hm =>
      unfold Mark.ofChar? at hm
      split at hm <;> cases hm <;> rfl

/-- The kinds exclude one another, so the order in which `scan` tries them does not matter. -/
theorem scan_eq_token_iff : scan c cs = .token t lexeme rest ↔ Front c cs t lexeme rest :=
  ⟨front_of_scan, scan_of_front⟩

lemma text_of_scan (h : scan c cs = .token t lexeme rest) : c :: cs = lexeme ++ rest := by
  have htext := lexeme_append_rest c cs
  rw [h] at htext
  exact htext.symm

end Scan

/-! ## The lexer without faults -/

/-- The tokens of a text that begins at the byte `offset` and has no faults. -/
inductive Lexed : ℕ → List Char → List (Located Token) → Prop where
  | nil (offset : ℕ) : Lexed offset [] []
  | cons {offset : ℕ} {c : Char} {cs lexeme rest : List Char} {t : Token}
      {ts : List (Located Token)} :
      scan c cs = .token t lexeme rest → Lexed (offset + byteLength lexeme) rest ts →
      Lexed offset (c :: cs) (⟨t, .between offset (offset + byteLength lexeme)⟩ :: ts)

lemma lexed_of_no_faults {offset : ℕ} {cs : List Char} (h : lexedFaults (lex offset cs) = []) :
    Lexed offset cs (lexedTokens (lex offset cs)) := by
  fun_induction lex offset cs with
  | case1 offset => exact .nil offset
  | case2 offset c cs position item behind ih =>
      cases hscan : scan c cs with
      | token t lexeme rest =>
          have hitem : item = .ok ⟨t, .between offset (offset + byteLength lexeme)⟩ := by
            simp only [item, position, hscan]
            rfl
          have hbehind : behind = offset + byteLength lexeme := by
            simp only [behind, position, hscan]
            rfl
          simp only [hitem, hbehind, hscan, Scan.next, lexedFaults] at h ih ⊢
          exact .cons hscan (ih h)
      | fault f lexeme rest =>
          have hitem : item = .error (f.diagnostic offset position) := by
            simp only [item, hscan]
          simp [hitem, lexedFaults] at h

lemma Lexed.lex_eq {offset : ℕ} {cs : List Char} {ts : List (Located Token)}
    (h : Lexed offset cs ts) : lex offset cs = ts.map .ok := by
  induction h with
  | nil offset => simp [lex]
  | cons hscan _ ih =>
      rw [lex]
      simp only [hscan, Scan.next, Scan.lexeme, ih, List.map_cons]

lemma lexedFaults_map_ok (ts : List (Located Token)) : lexedFaults (ts.map .ok) = [] := by
  induction ts with
  | nil => rfl
  | cons t ts ih => exact ih

lemma lexedTokens_map_ok (ts : List (Located Token)) : lexedTokens (ts.map .ok) = ts := by
  induction ts with
  | nil => rfl
  | cons t ts ih => exact congrArg (t :: ·) ih

/-- Every fault is an error. -/
lemma isError_of_mem_lexedFaults {offset : ℕ} {cs : List Char} :
    ∀ d ∈ lexedFaults (lex offset cs), d.isError = true := by
  fun_induction lex offset cs with
  | case1 => simp [lexedFaults]
  | case2 offset c cs position item behind ih =>
      cases hscan : scan c cs with
      | token t lexeme rest =>
          simp only [item, hscan, lexedFaults]
          simpa only [hscan] using ih
      | fault f lexeme rest =>
          simp only [item, hscan, lexedFaults, List.forall_mem_cons]
          simp only [hscan] at ih
          exact ⟨by cases f <;> rfl, ih⟩

/-- A source has tokens exactly if the lexer runs over it without faults. -/
theorem tokensOf_eq_ok_iff {source : String} {ts : List (Located Token)} :
    tokensOf source = .ok ts ↔ Lexed 0 source.toList ts := by
  constructor
  · intro h
    cases hfaults : lexedFaults (lex 0 source.toList) with
    | nil =>
        simp only [tokensOf, hfaults, Rejection.check, List.any_nil, Bool.false_eq_true,
          if_false, Except.ok.injEq] at h
        exact h ▸ lexed_of_no_faults hfaults
    | cons d ds =>
        have hd : d.isError = true := isError_of_mem_lexedFaults d (by rw [hfaults]; simp)
        simp [tokensOf, hfaults, Rejection.check, hd] at h
  · intro h
    simp [tokensOf, h.lex_eq, lexedFaults_map_ok, lexedTokens_map_ok, Rejection.check]

/-! ## Spellings -/

/-- The characters that a backslash may stand before, each with what the two stand for. -/
def escapes : List (Char × Char) :=
  [('n', '\n'), ('t', '\t'), ('r', '\r'), ('\\', '\\'), ('"', '"')]

/-- What stands between the quotes of a string literal, and the text it stands for. -/
inductive Decodes : List Char → List Char → Prop where
  | nil : Decodes [] []
  | plain {c : Char} {body text : List Char} :
      c ∉ ['"', '\\', '\n', '\r'] → Decodes body text → Decodes (c :: body) (c :: text)
  | escape {c d : Char} {body text : List Char} :
      (c, d) ∈ escapes → Decodes body text → Decodes ('\\' :: c :: body) (d :: text)

/-- The spellings of a token. -/
inductive Spelled : Token → List Char → Prop where
  | keyword (k : Keyword) : Spelled (.keyword k) k.spelling.toList
  | mark (m : Mark) : Spelled (.mark m) m.spelling.toList
  | identifier (name : String) : Spelled (.identifier name) name.toList
  | number (digits : String) : Spelled (.number digits) digits.toList
  | percentage (digits : String) : Spelled (.percentage digits) (digits.toList ++ ['%'])
  | lineComment (text : String) : '\n' ∉ text.toList →
      Spelled (.lineComment text) ('/' :: '/' :: text.toList)
  | stringLiteral {text : String} {body : List Char} : Decodes body text.toList →
      Spelled (.stringLiteral text) ('"' :: body ++ ['"'])
  | newline : Spelled .newline ['\n']
  | whitespace {blanks : List Char} : blanks ≠ [] → (∀ c ∈ blanks, isBlank c ∧ c ≠ '\n') →
      Spelled .whitespace blanks

/-- The body of a string literal stands for one text only. -/
lemma Decodes.unique {body text text' : List Char} (h : Decodes body text)
    (h' : Decodes body text') : text = text' := by
  induction h generalizing text' with
  | nil => cases h'; rfl
  | plain hc _ ih =>
      cases h' with
      | plain _ h' => rw [ih h']
      | escape _ h' => exact absurd hc (by simp)
  | @escape c d _ _ hcd _ ih =>
      cases h' with
      | plain hc _ => exact absurd hc (by simp)
      | @escape _ d' _ _ hcd' h' =>
          have hd : d = d' := by
            simp only [escapes, List.mem_cons, Prod.mk.injEq, List.not_mem_nil,
              or_false] at hcd hcd'
            rcases hcd with ⟨rfl, rfl⟩ | ⟨rfl, rfl⟩ | ⟨rfl, rfl⟩ | ⟨rfl, rfl⟩ | ⟨rfl, rfl⟩ <;>
              simp_all
          rw [hd, ih h']

/-- Whether two tokens are of one kind: two keywords, two marks, two names and so on. -/
def Token.sameKind : Token → Token → Bool
  | keyword _, keyword _ | mark _, mark _ | stringLiteral _, stringLiteral _
  | percentage _, percentage _ | number _, number _ | identifier _, identifier _
  | lineComment _, lineComment _ | whitespace, whitespace | newline, newline => true
  | _, _ => false

lemma Keyword.spelling_injective {k k' : Keyword} (h : k.spelling = k'.spelling) : k = k' := by
  have hsome : some k = some k' := by
    rw [← Keyword.ofSpelling?_spelling k, h, Keyword.ofSpelling?_spelling]
  exact Option.some.inj hsome

lemma Mark.spelling_injective {m m' : Mark} (h : m.spelling = m'.spelling) : m = m' := by
  revert h
  cases m <;> cases m' <;> decide

/-- A piece of text spells one token of a kind at most. -/
lemma Spelled.unique {t t' : Token} {cs : List Char} (h : Spelled t cs) (h' : Spelled t' cs)
    (hkind : t.sameKind t' = true) : t = t' := by
  have hchars : ∀ {s s' : String}, s.toList = s'.toList → s = s' := String.toList_inj.1
  generalize hcs : cs = cs' at h'
  cases h with
  | keyword k =>
      cases h' with
      | keyword k' => rw [Keyword.spelling_injective (hchars hcs)]
      | _ => exact absurd hkind (by simp [Token.sameKind])
  | mark m =>
      cases h' with
      | mark m' => rw [Mark.spelling_injective (hchars hcs)]
      | _ => exact absurd hkind (by simp [Token.sameKind])
  | identifier name =>
      cases h' with
      | identifier name' => rw [hchars hcs]
      | _ => exact absurd hkind (by simp [Token.sameKind])
  | number digits =>
      cases h' with
      | number digits' => rw [hchars hcs]
      | _ => exact absurd hkind (by simp [Token.sameKind])
  | percentage digits =>
      cases h' with
      | percentage digits' => rw [hchars (List.append_cancel_right hcs)]
      | _ => exact absurd hkind (by simp [Token.sameKind])
  | lineComment text _ =>
      cases h' with
      | lineComment text' _ =>
          rw [hchars (List.cons.inj (List.cons.inj hcs).2).2]
      | _ => exact absurd hkind (by simp [Token.sameKind])
  | stringLiteral hbody =>
      cases h' with
      | stringLiteral hbody' =>
          obtain rfl := List.append_cancel_right (List.cons.inj hcs).2
          rw [hchars (hbody.unique hbody')]
      | _ => exact absurd hkind (by simp [Token.sameKind])
  | newline =>
      cases h' with
      | newline => rfl
      | _ => exact absurd hkind (by simp [Token.sameKind])
  | whitespace =>
      cases h' with
      | whitespace => rfl
      | _ => exact absurd hkind (by simp [Token.sameKind])

/-! ## What the lexer reads is a spelling of what it gives -/

lemma mem_escapes_of_unescape? {c d : Char} (h : unescape? c = some d) : (c, d) ∈ escapes := by
  unfold unescape? at h
  split at h <;> simp_all [escapes, eq_comm]

/-- The last clauses of `scanBody` are for characters that are no backslash. -/
lemma ne_backslash {c : Char} {cs : List Char} (hnil : c = '\\' → cs = [] → False)
    (hcons : ∀ d ds, c = '\\' → cs = d :: ds → False) : c ≠ '\\' := by
  intro hc
  cases cs with
  | nil => exact hnil hc rfl
  | cons d ds => exact hcons d ds hc rfl

lemma scanBody_cons_of_ne {c : Char} (hc : c ≠ '\\') (cs : List Char) :
    scanBody (c :: cs) = if c = '"' then .closed [] ['"'] cs
      else if c = '\n' ∨ c = '\r' then .broken [] (c :: cs) else (scanBody cs).push c [c] := by
  rw [scanBody]
  · exact fun h => absurd h hc
  · exact fun d ds h => absurd h hc

lemma push_eq_closed {b : StringBody} {d : Char} {spelling text lexeme rest : List Char} :
    b.push d spelling = .closed text lexeme rest ↔
      ∃ text' l, b = .closed text' l rest ∧ text = d :: text' ∧ lexeme = spelling ++ l := by
  cases b <;> simp [StringBody.push, and_comm, and_assoc, eq_comm]

lemma push_eq_badEscape {b : StringBody} {d : Char} {spelling lexeme rest : List Char} :
    b.push d spelling = .badEscape lexeme rest ↔
      ∃ l, b = .badEscape l rest ∧ lexeme = spelling ++ l := by
  cases b <;> simp [StringBody.push, and_comm, eq_comm]

lemma decodes_of_scanBody {cs text lexeme rest : List Char}
    (h : scanBody cs = .closed text lexeme rest) :
    ∃ body, lexeme = body ++ ['"'] ∧ Decodes body text := by
  fun_induction scanBody cs generalizing text lexeme rest with
  | case1 => cases h
  | case2 => cases h
  | case3 c cs d hd ih =>
      obtain ⟨text', l, hbody, rfl, rfl⟩ := push_eq_closed.1 h
      obtain ⟨body, rfl, hdec⟩ := ih hbody
      exact ⟨'\\' :: c :: body, rfl, .escape (mem_escapes_of_unescape? hd) hdec⟩
  | case4 => cases h
  | case5 =>
      cases h
      exact ⟨[], rfl, .nil⟩
  | case6 => cases h
  | case7 c cs hnil hcons hquote hbreak ih =>
      obtain ⟨text', l, hbody, rfl, rfl⟩ := push_eq_closed.1 h
      obtain ⟨body, rfl, hdec⟩ := ih hbody
      have hc := ne_backslash hnil hcons
      have hplain : c ∉ ['"', '\\', '\n', '\r'] := by simp_all
      exact ⟨c :: body, rfl, .plain hplain hdec⟩

lemma keyword_or_identifier_of_wordToken {word rest : List Char} {t : Token}
    (h : wordToken word rest = t) :
    (∃ k, t = .keyword k) ∨ t = .identifier (String.ofList word) := by
  subst h
  unfold wordToken
  split
  · split
    · exact .inr rfl
    · exact .inl ⟨_, rfl⟩
  · exact .inr rfl

lemma wordToken_eq_keyword_iff {word rest : List Char} {k : Keyword} :
    wordToken word rest = .keyword k ↔ word = k.spelling.toList ∧ rest.head? ≠ some '-' := by
  constructor
  · intro h
    unfold wordToken at h
    split at h
    · next hspelled =>
      split at h
      · cases h
      · next hhyphen =>
        cases h
        have hword := Keyword.spelling_of_ofSpelling? hspelled
        exact ⟨by rw [hword, String.toList_ofList], hhyphen⟩
    · cases h
  · rintro ⟨rfl, hhyphen⟩
    rw [wordToken, String.ofList_toList, Keyword.ofSpelling?_spelling]
    exact if_neg hhyphen

lemma number_or_percentage_of_numberScan {digits cs lexeme rest : List Char} {t : Token}
    (h : numberScan digits cs = .token t lexeme rest) :
    (∃ text, t = .number text) ∨ ∃ text, t = .percentage text := by
  unfold numberScan at h
  split at h <;> cases h
  · exact .inr ⟨_, rfl⟩
  · exact .inl ⟨_, rfl⟩

lemma spelled_wordToken (word rest : List Char) : Spelled (wordToken word rest) word := by
  generalize ht : wordToken word rest = t
  obtain ⟨k, rfl⟩ | rfl := keyword_or_identifier_of_wordToken ht
  · rw [(wordToken_eq_keyword_iff.1 ht).1]
    exact .keyword k
  · have hname := Spelled.identifier (String.ofList word)
    rwa [String.toList_ofList] at hname

lemma spelled_numberScan {digits cs lexeme rest : List Char} {t : Token}
    (h : numberScan digits cs = .token t lexeme rest) : Spelled t lexeme := by
  have hdigits : (String.ofList digits).toList = digits := String.toList_ofList
  unfold numberScan at h
  split at h
  · cases h
    have hspelled := Spelled.percentage (String.ofList digits)
    rwa [hdigits] at hspelled
  · cases h
    have hspelled := Spelled.number (String.ofList digits)
    rwa [hdigits] at hspelled

lemma spelled_of_ofChar? {c : Char} {m : Mark} (h : Mark.ofChar? c = some m) :
    m.spelling.toList = [c] := by
  unfold Mark.ofChar? at h
  split at h <;> cases h <;> rfl

/-- A token is spelled by the characters that were read for it. -/
theorem spelled_of_scan {c : Char} {cs lexeme rest : List Char} {t : Token}
    (h : scan c cs = .token t lexeme rest) : Spelled t lexeme := by
  have hchars : ∀ cs : List Char, (String.ofList cs).toList = cs := fun _ => String.toList_ofList
  cases scan_eq_token_iff.1 h with
  | comment cs =>
      have hfree : '\n' ∉ (String.ofList (cs.takeWhile (· ≠ '\n'))).toList := by
        rw [hchars]
        intro hmem
        simpa using List.mem_takeWhile_imp hmem
      have hcomment := Spelled.lineComment _ hfree
      rwa [hchars] at hcomment
  | literal hbody =>
      obtain ⟨inner, rfl, hdec⟩ := decodes_of_scanBody hbody
      exact .stringLiteral (by rwa [hchars])
  | arrow cs => exact .mark .arrow
  | word cs hname => exact spelled_wordToken _ _
  | number hdigit hscan => exact spelled_numberScan hscan
  | newline cs => exact .newline
  | blank cs hblank hbreak =>
      refine .whitespace (List.cons_ne_nil _ _) fun d hd => ?_
      rcases List.mem_cons.1 hd with rfl | hd
      · exact ⟨hblank, hbreak⟩
      · simpa using List.mem_takeWhile_imp hd
  | @mark _ m cs hm =>
      have hmark := Spelled.mark m
      rwa [spelled_of_ofChar? hm] at hmark

/-! ## Slices of the source -/

/-- The part of a source that a span covers. -/
def Span.slice (source : String) (s : Span) : String :=
  String.Pos.Raw.extract source ⟨s.start⟩ ⟨s.stop⟩

/-- The spans follow one another from `start` to `stop`, none of them empty. -/
def Tiles (start : ℕ) : List Span → ℕ → Prop
  | [], stop => start = stop
  | s :: spans, stop => s.start = start ∧ s.start < s.stop ∧ Tiles s.stop spans stop

lemma utf8Len_eq_byteLength (cs : List Char) : String.utf8Len cs = byteLength cs := by
  induction cs with
  | nil => rfl
  | cons c cs ih => rw [String.utf8Len_cons, byteLength_cons, ih, Nat.add_comm]

lemma byteLength_toList (source : String) : byteLength source.toList = source.utf8ByteSize := by
  rw [← utf8Len_eq_byteLength, ← String.utf8ByteSize_ofList, String.ofList_toList]

lemma byteLength_pos {cs : List Char} (h : cs ≠ []) : 0 < byteLength cs := by
  cases cs with
  | nil => exact absurd rfl h
  | cons c cs =>
      have := c.utf8Size_pos
      rw [byteLength_cons]
      omega

/-- The span of a piece of text gives the piece. -/
lemma slice_between (before piece behind : List Char) :
    (Span.between (byteLength before) (byteLength before + byteLength piece)).slice
        (String.ofList (before ++ piece ++ behind))
      = String.ofList piece := by
  rw [Span.between_of_le (Nat.le_add_right _ _), Span.slice, ← utf8Len_eq_byteLength,
    ← utf8Len_eq_byteLength]
  exact String.extract_of_valid before piece behind

namespace Lexed

lemma tiles {offset : ℕ} {cs : List Char} {ts : List (Located Token)} (h : Lexed offset cs ts) :
    Tiles offset (ts.map (·.span)) (offset + byteLength cs) := by
  induction h with
  | nil offset => rfl
  | @cons offset c cs lexeme rest t ts hscan _ ih =>
      have hpos := byteLength_pos (lexeme_ne_nil hscan)
      rw [text_of_scan hscan, byteLength_append, ← Nat.add_assoc]
      rw [List.map_cons, Span.between_of_le (Nat.le_add_right _ _)]
      exact ⟨rfl, Nat.lt_add_of_pos_right hpos, ih⟩

/-- The slices of the tokens make up the text, and each spells its token. -/
lemma slices {before cs : List Char} {ts : List (Located Token)}
    (h : Lexed (byteLength before) cs ts) :
    (ts.flatMap fun t => (t.span.slice (String.ofList (before ++ cs))).toList) = cs ∧
    ∀ t ∈ ts, Spelled t.value (t.span.slice (String.ofList (before ++ cs))).toList ∧
      (t.span.slice (String.ofList (before ++ cs))).utf8ByteSize = t.span.length := by
  generalize hoffset : byteLength before = offset at h
  induction h generalizing before with
  | nil offset => simp
  | @cons offset c cs lexeme rest t ts hscan _ ih =>
      subst hoffset
      have htext : before ++ (c :: cs) = before ++ lexeme ++ rest := by
        rw [List.append_assoc, text_of_scan hscan]
      obtain ⟨hjoin, heach⟩ := ih (byteLength_append before lexeme)
      have hslice := slice_between before lexeme rest
      rw [htext]
      refine ⟨?_, ?_⟩
      · rw [List.flatMap_cons, hslice, hjoin, String.toList_ofList]
        exact (List.append_cancel_left (htext.trans (List.append_assoc _ _ _))).symm
      · rw [List.forall_mem_cons]
        refine ⟨?_, heach⟩
        rw [hslice, String.toList_ofList, String.utf8ByteSize_ofList, utf8Len_eq_byteLength,
          Span.between_of_le (Nat.le_add_right _ _)]
        exact ⟨spelled_of_scan hscan, (Nat.add_sub_cancel_left _ _).symm⟩

end Lexed

/-- **Tokens tile their source.**  The spans of the tokens follow one another from the first byte to
the last and none is empty.  The slices that they cut out make up the source, and each of them
spells the token and no other token of that kind. -/
theorem tokens_tile_source {source : String} {ts : List (Located Token)}
    (h : tokensOf source = .ok ts) :
    Tiles 0 (ts.map (·.span)) source.utf8ByteSize ∧
    String.join (ts.map fun t => t.span.slice source) = source ∧
    ∀ t ∈ ts, (t.span.slice source).utf8ByteSize = t.span.length ∧
      Spelled t.value (t.span.slice source).toList ∧
      ∀ t', t'.sameKind t.value = true → Spelled t' (t.span.slice source).toList →
        t' = t.value := by
  have hlexed := tokensOf_eq_ok_iff.1 h
  have hlexed' : Lexed (byteLength []) source.toList ts := hlexed
  obtain ⟨hjoin, heach⟩ := hlexed'.slices
  rw [List.nil_append, String.ofList_toList] at hjoin heach
  refine ⟨?_, ?_, fun t ht => ?_⟩
  · have htiles := hlexed.tiles
    rwa [byteLength_toList, Nat.zero_add] at htiles
  · rw [← String.toList_inj, String.toList_join, List.flatMap_map]
    exact hjoin
  · obtain ⟨hspelled, hsize⟩ := heach t ht
    exact ⟨hsize, hspelled, fun t' hkind ht' => ht'.unique hspelled hkind⟩

/-- A name with a letter of two bytes and an escape in it, and a comment behind it. -/
def quotedName : String := "arch \"é\\n\" 2.5% // x"

/-- Its tokens. -/
def quotedNameTokens : List (Located Token) :=
  [⟨.keyword .arch, .between 0 4⟩, ⟨.whitespace, .between 4 5⟩,
    ⟨.stringLiteral "é\n", .between 5 11⟩, ⟨.whitespace, .between 11 12⟩,
    ⟨.percentage "2.5", .between 12 16⟩, ⟨.whitespace, .between 16 17⟩,
    ⟨.lineComment " x", .between 17 21⟩]

/-- The escape takes two bytes of the source and the letter two more. -/
theorem tokens_tile_source_quotedName :
    tokensOf quotedName = .ok quotedNameTokens ∧
      Tiles 0 (quotedNameTokens.map (·.span)) 21 ∧
      String.join (quotedNameTokens.map fun t => t.span.slice quotedName) = quotedName ∧
      Spelled (.stringLiteral "é\n") ['"', 'é', '\\', 'n', '"'] := by
  have htokens : tokensOf quotedName = .ok quotedNameTokens := by decide +kernel
  have hsize : quotedName.utf8ByteSize = 21 := by decide
  have hslice : ((Span.between 5 11).slice quotedName).toList = ['"', 'é', '\\', 'n', '"'] := by
    decide
  obtain ⟨htiles, hjoin, heach⟩ := tokens_tile_source htokens
  rw [hsize] at htiles
  obtain ⟨_, hspelled, _⟩ := heach ⟨.stringLiteral "é\n", .between 5 11⟩ (by decide)
  rw [hslice] at hspelled
  exact ⟨htokens, htiles, hjoin, hspelled⟩

end ArchLang
