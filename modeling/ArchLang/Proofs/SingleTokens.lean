import ArchLang.Proofs.Faults
import ArchLang.Proofs.Writing

/-!
# One token

A text that is one token, alone or in front of another text.

**A token alone.**  Where a token was read, its characters were looked at and up to two behind them.
Cut out of the source, it is read again, since nothing stands behind it that could have changed it.
There is one exception: a word is no keyword when a hyphen follows, also when that hyphen belongs to
an arrow.  So `actor` in `actor->b` is an identifier, and alone it is a keyword.

**Literals and words.**  The other direction: what is written in the form of a string literal or of
a word is read as one, whatever stands behind a literal, and whatever does not go on with a word.

* `Token.alone t` — what the characters of the token are when nothing follows.
* **`tokensOf_slice`** — a token cut out of its source, and when it is another one there.
* `Quotes text body` — the ways to write a text between quotes.
* **`tokensOf_quoted`** — every text is read back from all of them.
* `WordForm w` — letters, digits and underscores in segments with hyphens between them.
* **`lex_wordForm`** — a word in front of any other character is read as a whole.
-/

namespace ArchLang

/-! ## A token alone -/

/-- What the characters of a token are when nothing stands behind them: an identifier that is
spelled like a reserved word is that word. -/
def Token.alone : Token → Token
  | identifier name => ((Keyword.ofSpelling? name).map keyword).getD (identifier name)
  | t => t

lemma alone_of_ne {t : Token} (h : ∀ name, t ≠ .identifier name) : t.alone = t := by
  cases t with
  | identifier name => exact absurd rfl (h name)
  | _ => rfl

lemma alone_eq_self_iff {t : Token} :
    t.alone = t ↔ ∀ k : Keyword, t ≠ .identifier k.spelling := by
  cases t with
  | identifier name =>
      cases hk : Keyword.ofSpelling? name with
      | none =>
          simp only [Token.alone, hk, Option.map_none, Option.getD_none, ne_eq,
            Token.identifier.injEq, true_iff]
          rintro k rfl
          rw [Keyword.ofSpelling?_spelling] at hk
          cases hk
      | some k =>
          have hname := Keyword.spelling_of_ofSpelling? hk
          simp only [Token.alone, hk, Option.map_some, Option.getD_some, ne_eq, reduceCtorEq,
            Token.identifier.injEq, false_iff, not_forall, not_not]
          exact ⟨k, hname.symm⟩
  | _ => simp [Token.alone]

lemma alone_wordToken (word rest : List Char) :
    (wordToken word rest).alone = wordToken word [] := by
  unfold wordToken
  cases hk : Keyword.ofSpelling? (String.ofList word) with
  | none => simp [Token.alone, hk]
  | some k => by_cases hrest : rest.head? = some '-' <;> simp [Token.alone, hk, hrest]

/-- The end of a text closes a token. -/
lemma closes_nil {t : Token} (h : ∀ name, t ≠ .identifier name) : Closes t [] := by
  have hstops (p : Char → Bool) : Stops p [] := nofun
  cases t with
  | identifier name => exact absurd rfl (h name)
  | keyword k => exact ⟨⟨hstops _, nofun⟩, nofun⟩
  | number digits => exact ⟨⟨hstops _, nofun⟩, nofun⟩
  | lineComment text => exact hstops _
  | whitespace => exact hstops _
  | mark | stringLiteral | percentage | newline => trivial

section Scan

variable {c : Char} {cs lexeme rest : List Char} {t : Token}

lemma scan_again_alone (h : scan c cs = .token t lexeme rest) (hne : ∀ name, t ≠ .identifier name) :
    ∃ l, lexeme = c :: l ∧ scan c l = .token t.alone lexeme [] := by
  obtain ⟨l, rfl, hagain⟩ := scan_again h (closes_nil hne)
  rw [List.append_nil] at hagain
  rw [alone_of_ne hne]
  exact ⟨l, rfl, hagain⟩

lemma ne_identifier_of_numberScan {digits : List Char}
    (h : numberScan digits cs = .token t lexeme rest) (name : String) : t ≠ .identifier name := by
  obtain ⟨_, rfl⟩ | ⟨_, rfl⟩ := number_or_percentage_of_numberScan h <;> exact nofun

/-- The characters of a token are scanned as the token that they are alone. -/
lemma scan_alone (h : scan c cs = .token t lexeme rest) :
    ∃ l, lexeme = c :: l ∧ scan c l = .token t.alone lexeme [] := by
  cases scan_eq_token_iff.1 h with
  | word cs hname =>
      rw [alone_wordToken]
      exact ⟨_, rfl, scan_word hname (isWordTail_scanWordTail cs)⟩
  | number _ hscan => exact scan_again_alone h (ne_identifier_of_numberScan hscan)
  | comment | literal | arrow | newline | blank | mark => exact scan_again_alone h nofun

/-- Behind the characters of a reserved word stands a hyphen exactly if they are an identifier. -/
lemma eq_identifier_iff_of_scan {k : Keyword}
    (h : scan c cs = .token t k.spelling.toList rest) :
    t = .identifier k.spelling ↔ rest.head? = some '-' := by
  have hstart : isNameStart c = true := by
    have htext := text_of_scan h
    cases k <;> cases (List.cons.inj htext).1 <;> rfl
  have hword := scan_eq_token_iff.2 (Front.word cs hstart)
  rw [h] at hword
  injection hword with htoken hlexeme hrest
  rw [← hlexeme, ← hrest, wordToken, String.ofList_toList, Keyword.ofSpelling?_spelling] at htoken
  rw [htoken]
  by_cases hhyphen : rest.head? = some '-' <;> simp [hhyphen]

end Scan

namespace Lexed

/-- The place of a token in the text. -/
lemma exists_scan {offset : ℕ} {cs : List Char} {u v : List (Located Token)} {t : Located Token}
    (h : Lexed offset cs (u ++ t :: v)) :
    ∃ before c more lexeme rest, cs = before ++ c :: more ∧
      scan c more = .token t.value lexeme rest ∧
      t.span = .between (offset + byteLength before)
        (offset + byteLength before + byteLength lexeme) ∧
      Lexed (offset + byteLength before + byteLength lexeme) rest v := by
  induction u generalizing offset cs with
  | nil =>
      cases h with
      | @cons _ c more lexeme rest _ _ hscan hrest =>
          exact ⟨[], c, more, lexeme, rest, rfl, hscan, rfl, hrest⟩
  | cons x u ih =>
      cases h with
      | @cons _ d ds lexeme rest _ _ hscan hrest =>
          obtain ⟨before, c, more, lexeme', rest', rfl, hscan', hspan, hrest'⟩ := ih hrest
          rw [Nat.add_assoc offset, ← byteLength_append] at hspan hrest'
          exact ⟨lexeme ++ before, c, more, lexeme', rest',
            by rw [text_of_scan hscan, List.append_assoc], hscan', hspan, hrest'⟩

/-- A text without faults begins with a hyphen exactly if its first token is an arrow. -/
lemma head_hyphen_iff {offset : ℕ} {cs : List Char} {ts : List (Located Token)}
    (h : Lexed offset cs ts) :
    cs.head? = some '-' ↔ ts.head?.map (·.value) = some (.mark .arrow) := by
  cases h with
  | nil => simp
  | @cons _ c cs lexeme rest t ts hscan _ =>
      simp only [List.head?_cons, Option.some.injEq, Option.map_some]
      constructor
      · rintro rfl
        exact (arrow_of_scan hscan).1
      · rintro rfl
        generalize ht : Token.mark .arrow = t at hscan
        cases scan_eq_token_iff.1 hscan with
        | arrow => rfl
        | word =>
            obtain ⟨_, h⟩ | h := keyword_or_identifier_of_wordToken ht.symm <;> cases h
        | number _ hscan =>
            obtain ⟨_, rfl⟩ | ⟨_, rfl⟩ := number_or_percentage_of_numberScan hscan <;> cases ht
        | mark _ hm =>
            cases ht
            unfold Mark.ofChar? at hm
            split at hm <;> cases hm
        | comment | literal | newline | blank => cases ht

end Lexed

/-- A token is one token when it is cut out of its source, and the same one unless it is an
identifier with the spelling of a keyword.  An identifier has such a spelling exactly if that is how
it is written and an arrow stands behind it. -/
theorem tokensOf_slice {source : String} {u v : List (Located Token)} {t : Located Token}
    (h : tokensOf source = .ok (u ++ t :: v)) :
    tokensOf (t.span.slice source) = .ok [⟨t.value.alone, .between 0 t.span.length⟩] ∧
    (t.value.alone = t.value ↔ ∀ k : Keyword, t.value ≠ .identifier k.spelling) ∧
    ∀ k : Keyword, t.value = .identifier k.spelling ↔
      t.span.slice source = k.spelling ∧ v.head?.map (·.value) = some (.mark .arrow) := by
  obtain ⟨before, c, more, lexeme, rest, htext, hscan, hspan, hrest⟩ :=
    (tokensOf_eq_ok_iff.1 h).exists_scan
  rw [Nat.zero_add] at hspan
  have hslice : t.span.slice source = String.ofList lexeme := by
    have hsource : source = String.ofList (before ++ lexeme ++ rest) := by
      rw [List.append_assoc, ← text_of_scan hscan, ← htext, String.ofList_toList]
    rw [hspan, hsource]
    exact slice_between before lexeme rest
  have hlength : t.span.length = byteLength lexeme := by
    rw [hspan, Span.between_of_le (Nat.le_add_right _ _)]
    exact Nat.add_sub_cancel_left _ _
  refine ⟨?_, alone_eq_self_iff, fun k => ?_⟩
  · obtain ⟨l, rfl, halone⟩ := scan_alone hscan
    have hlexed := Lexed.cons halone (.nil (0 + byteLength (c :: l)))
    rw [Nat.zero_add] at hlexed
    rw [hslice, hlength]
    exact tokensOf_eq_ok_iff.2 (by rwa [String.toList_ofList])
  · have hspelling : t.span.slice source = k.spelling ↔ lexeme = k.spelling.toList := by
      rw [hslice, ← String.toList_inj, String.toList_ofList]
    rw [hspelling, ← hrest.head_hyphen_iff]
    constructor
    · intro hname
      have hspelled := spelled_of_scan hscan
      rw [hname] at hspelled
      cases hspelled
      exact ⟨rfl, (eq_identifier_iff_of_scan hscan).1 hname⟩
    · rintro ⟨rfl, hhyphen⟩
      exact (eq_identifier_iff_of_scan hscan).2 hhyphen

/-- The name before the arrow is a keyword when it stands alone; the one behind it stays a name. -/
theorem tokensOf_slice_arrow :
    tokensOf "actor->b" = .ok [⟨.identifier "actor", .between 0 5⟩, ⟨.mark .arrow, .between 5 7⟩,
      ⟨.identifier "b", .between 7 8⟩] ∧
    tokensOf "actor" = .ok [⟨.keyword .actor, .between 0 5⟩] ∧
    tokensOf "b" = .ok [⟨.identifier "b", .between 0 1⟩] := by
  have h : tokensOf "actor->b" = .ok ([] ++ ⟨.identifier "actor", .between 0 5⟩ ::
      [⟨.mark .arrow, .between 5 7⟩, ⟨.identifier "b", .between 7 8⟩]) := by decide +kernel
  have h' : tokensOf "actor->b" = .ok ([⟨.identifier "actor", .between 0 5⟩,
      ⟨.mark .arrow, .between 5 7⟩] ++ ⟨.identifier "b", .between 7 8⟩ :: []) := h
  exact ⟨h, (tokensOf_slice h).1, (tokensOf_slice h').1⟩

/-- A token cut out of its source is not always the same token. -/
theorem slice_not_always_token :
    ¬ ∀ source ts, tokensOf source = .ok ts → ∀ t ∈ ts,
      tokensOf (t.span.slice source) = .ok [⟨t.value, .between 0 t.span.length⟩] := by
  intro hall
  have h : tokensOf "actor->" =
      .ok [⟨.identifier "actor", .between 0 5⟩, ⟨.mark .arrow, .between 5 7⟩] := by
    decide +kernel
  have halone : tokensOf "actor" = .ok [⟨.identifier "actor", .between 0 5⟩] :=
    hall _ _ h _ List.mem_cons_self
  have hkeyword : tokensOf "actor" = .ok [⟨.keyword .actor, .between 0 5⟩] := by decide +kernel
  rw [hkeyword] at halone
  cases halone

/-! ## Texts in quotes -/

/-- The ways to write a text between quotes: line feeds, carriage returns, backslashes and quotes
escaped, tabs raw or escaped, every other character as it is. -/
inductive Quotes : List Char → List Char → Prop where
  | nil : Quotes [] []
  | char (c : Char) {text body : List Char} : Quotes text body →
      Quotes (c :: text) (escaped c ++ body)
  | tab {text body : List Char} : Quotes text body → Quotes ('\t' :: text) ('\\' :: 't' :: body)

/-- A text between two quotes. -/
def betweenQuotes (body : List Char) : String := String.ofList ('"' :: (body ++ ['"']))

lemma exists_quotes (text : List Char) : ∃ body, Quotes text body := by
  induction text with
  | nil => exact ⟨[], .nil⟩
  | cons c text ih =>
      obtain ⟨body, hbody⟩ := ih
      exact ⟨_, .char c hbody⟩

/-- The closing quote ends the literal, whatever stands behind it. -/
lemma scanBody_quotes {text body : List Char} (h : Quotes text body) (rest : List Char) :
    scanBody (body ++ '"' :: rest) = .closed text (body ++ ['"']) rest := by
  induction h with
  | nil => rfl
  | char c _ ih => rw [List.append_assoc, scanBody_escaped, ih, StringBody.push, List.append_assoc]
  | tab _ ih =>
      have hescape : unescape? 't' = some '\t' := rfl
      simp only [List.cons_append, scanBody, hescape, ih, StringBody.push, List.nil_append]

/-- What is scanned first is the first token. -/
lemma head_of_tokensOf {source : String} {ts : List (Located Token)} {c : Char}
    {cs lexeme rest : List Char} {t : Token} (htext : source.toList = c :: cs)
    (hscan : scan c cs = .token t lexeme rest) (h : tokensOf source = .ok ts) :
    ts.head? = some ⟨t, .between 0 (byteLength lexeme)⟩ := by
  have hlexed := tokensOf_eq_ok_iff.1 h
  rw [htext] at hlexed
  cases hlexed with
  | cons hscan' _ =>
      rw [hscan] at hscan'
      cases hscan'
      rw [Nat.zero_add]
      rfl

/-- Every text can be written between quotes, and in whatever way that is done, it is read back as
one literal.  So it is in front of any other text. -/
theorem tokensOf_quoted (text : String) :
    (∃ body, Quotes text.toList body) ∧
    ∀ body, Quotes text.toList body →
      tokensOf (betweenQuotes body) =
        .ok [⟨.stringLiteral text, .between 0 (betweenQuotes body).utf8ByteSize⟩] ∧
      ∀ rest ts, tokensOf (betweenQuotes body ++ rest) = .ok ts →
        ts.head? = some ⟨.stringLiteral text, .between 0 (betweenQuotes body).utf8ByteSize⟩ := by
  refine ⟨exists_quotes _, fun body hbody => ?_⟩
  have hscan (rest : List Char) : scan '"' (body ++ '"' :: rest) =
      .token (.stringLiteral text) ('"' :: (body ++ ['"'])) rest := by
    have hliteral := Front.literal (scanBody_quotes hbody rest)
    rw [String.ofList_toList] at hliteral
    exact scan_eq_token_iff.2 hliteral
  have hsize : (betweenQuotes body).utf8ByteSize = byteLength ('"' :: (body ++ ['"'])) := by
    rw [← byteLength_toList, betweenQuotes, String.toList_ofList]
  rw [hsize]
  refine ⟨?_, fun rest ts h => ?_⟩
  · have hlexed := Lexed.cons (hscan []) (.nil (0 + byteLength ('"' :: (body ++ ['"']))))
    rw [Nat.zero_add] at hlexed
    exact tokensOf_eq_ok_iff.2 (by rwa [betweenQuotes, String.toList_ofList])
  · refine head_of_tokensOf ?_ (hscan rest.toList) h
    simp [betweenQuotes]

/-- Two tabs, one of them escaped, and a quote. -/
theorem tokensOf_quoted_tabs :
    tokensOf "\"\t\\t\\\"\"" = .ok [⟨.stringLiteral "\t\t\"", .between 0 7⟩] ∧
    ∀ ts, tokensOf "\"\t\\t\\\"\"x" = .ok ts →
      ts.head? = some ⟨.stringLiteral "\t\t\"", .between 0 7⟩ := by
  have hbody : Quotes ("\t\t\"").toList ['\t', '\\', 't', '\\', '"'] :=
    .char '\t' (.tab (.char '"' .nil))
  obtain ⟨hone, hfront⟩ := (tokensOf_quoted "\t\t\"").2 _ hbody
  exact ⟨hone, hfront "x"⟩

/-! ## Words -/

/-- A letter or an underscore, letters, digits and underscores, and any number of segments of these
with a hyphen before each. -/
inductive WordForm : List Char → Prop where
  | mk {c : Char} {word : List Char} {segments : List (List Char)} : isNameStart c = true →
      (∀ d ∈ word, isNameChar d = true) →
      (∀ s ∈ segments, s ≠ [] ∧ ∀ d ∈ s, isNameChar d = true) →
      WordForm (c :: (word ++ segments.flatMap ('-' :: ·)))

lemma isWordTail_segments {segments : List (List Char)}
    (h : ∀ s ∈ segments, s ≠ [] ∧ ∀ d ∈ s, isNameChar d = true) :
    isWordTail (segments.flatMap ('-' :: ·)) = true := by
  induction segments with
  | nil => rfl
  | cons s segments ih =>
      rw [List.forall_mem_cons] at h
      obtain ⟨⟨hne, hs⟩, hsegments⟩ := h
      obtain ⟨d, s, rfl⟩ := List.exists_cons_of_ne_nil hne
      rw [List.forall_mem_cons] at hs
      rw [List.flatMap_cons, List.cons_append, List.cons_append, isWordTail, hs.1, Bool.true_and]
      exact isWordTail_append hs.2 (ih hsegments)

/-- A word is read as a whole when what stands behind does not go on with it. -/
lemma scan_wordForm {w rest : List Char} (hw : WordForm w)
    (hrest : ∀ c ∈ rest.head?, isNameChar c = false ∧ c ≠ '-') :
    ∃ c cs, w = c :: cs ∧ scan c (cs ++ rest) = .token (wordToken w []) w rest := by
  have hhyphen : rest.head? ≠ some '-' := fun h => (hrest '-' h).2 rfl
  have hends : WordEnds rest :=
    ⟨fun c hc => (hrest c hc).1, fun h => absurd (congrArg List.head? h) hhyphen⟩
  cases hw with
  | @mk c word segments hc hword hsegments =>
      have htail := isWordTail_append hword (isWordTail_segments hsegments)
      generalize word ++ segments.flatMap ('-' :: ·) = tail at htail
      have hsame : wordToken (c :: tail) rest = wordToken (c :: tail) [] := by
        simp [wordToken, hhyphen]
      have hcloses := closes_wordToken hends (c :: tail)
      rw [hsame] at hcloses
      obtain ⟨l, hl, hscan⟩ := scan_again (scan_word hc htail) hcloses
      obtain rfl := (List.cons.inj hl).2
      exact ⟨c, tail, rfl, hscan⟩

/-- A word in front of a text that does not go on with it is the first token, as a whole: the
keyword that is spelled like it, or else an identifier. -/
theorem lex_wordForm {w rest : String} (hw : WordForm w.toList)
    (hrest : ∀ c ∈ rest.toList.head?, isNameChar c = false ∧ c ≠ '-') :
    ∃ t, (∀ k : Keyword, w = k.spelling → t = .keyword k) ∧
      ((∀ k : Keyword, w ≠ k.spelling) → t = .identifier w) ∧
      lex 0 (w ++ rest).toList =
        .ok ⟨t, .between 0 w.utf8ByteSize⟩ :: lex w.utf8ByteSize rest.toList ∧
      ∀ ts, tokensOf (w ++ rest) = .ok ts → ts.head? = some ⟨t, .between 0 w.utf8ByteSize⟩ := by
  obtain ⟨c, cs, hchars, hscan⟩ := scan_wordForm hw hrest
  have htext : (w ++ rest).toList = c :: (cs ++ rest.toList) := by
    rw [String.toList_append, hchars, List.cons_append]
  refine ⟨wordToken w.toList [], ?_, fun hfree => ?_, ?_, fun ts h => ?_⟩
  · rintro k rfl
    exact wordToken_eq_keyword_iff.2 ⟨rfl, nofun⟩
  · generalize ht : wordToken w.toList [] = t
    obtain ⟨k, rfl⟩ | rfl := keyword_or_identifier_of_wordToken ht
    · exact absurd (String.toList_inj.1 (wordToken_eq_keyword_iff.1 ht).1) (hfree k)
    · rw [String.ofList_toList]
  · rw [htext, lex_of_token hscan, byteLength_toList, Nat.zero_add]
  · rw [← byteLength_toList]
    exact head_of_tokensOf htext hscan h

/-- The keyword with a hyphen in it, and an identifier that a keyword begins. -/
theorem lex_wordForm_dataStores :
    (∃ rest, lex 0 "data-stores:".toList = .ok ⟨.keyword .dataStores, .between 0 11⟩ :: rest) ∧
    ∃ rest, lex 0 "service-re-2".toList =
      .ok ⟨.identifier "service-re-2", .between 0 12⟩ :: rest := by
  have hsegment {c : Char} {s : List Char} (h : (c :: s).all isNameChar = true) :
      c :: s ≠ [] ∧ ∀ d ∈ c :: s, isNameChar d = true :=
    ⟨List.cons_ne_nil c s, List.all_eq_true.1 h⟩
  have hkeyword : WordForm "data-stores".toList :=
    @WordForm.mk 'd' ['a', 't', 'a'] [['s', 't', 'o', 'r', 'e', 's']] (by decide)
      (List.all_eq_true.1 (by decide)) (List.forall_mem_singleton.2 (hsegment (by decide)))
  have hname : WordForm "service-re-2".toList :=
    @WordForm.mk 's' ['e', 'r', 'v', 'i', 'c', 'e'] [['r', 'e'], ['2']] (by decide)
      (List.all_eq_true.1 (by decide)) (List.forall_mem_cons.2
        ⟨hsegment (by decide), List.forall_mem_singleton.2 (hsegment (by decide))⟩)
  obtain ⟨t, hspelled, -, hlex, -⟩ := @lex_wordForm _ ":" hkeyword (by rintro c ⟨⟩; decide)
  obtain ⟨t', -, hfree, hlex', -⟩ := @lex_wordForm _ "" hname (by rintro c ⟨⟩)
  rw [hspelled .dataStores rfl] at hlex
  rw [hfree (by intro k; cases k <;> decide)] at hlex'
  exact ⟨⟨_, hlex⟩, ⟨_, hlex'⟩⟩

end ArchLang
