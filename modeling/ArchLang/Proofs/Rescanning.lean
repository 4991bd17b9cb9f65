import ArchLang.Proofs.Lexemes

/-!
# Scanning a token again

How far a token goes depends on the character behind it, and for a few tokens on two of them.  When
the text behind a token is replaced by another one, the token stays as it is if the new text closes
it.

* `Stops p rest` — the next character is not of a kind, so a run of such characters ends there.
* `WordEnds`, `NumberEnds` — a word or a number does not go on.
* `Closes t rest` — what stands behind the token `t` does not make it another one.  Both what stood
  there in the first place (`closes_of_scan`) and what has the same first characters does
  (`Closes.congr`).
* `scan_again` — a token is scanned again when what stands behind it closes it.
* **`Lexed.splice`** — a text may be replaced behind one of its tokens by another text that closes
  this token; the tokens before stay, since each of them sees the same front behind it.
-/

namespace ArchLang

/-! ## Where a run of characters ends -/

/-- What comes next is not of a kind. -/
def Stops (p : Char → Bool) (rest : List Char) : Prop := ∀ c ∈ rest.head?, p c = false

lemma stops_dropWhile (p : Char → Bool) (cs : List Char) : Stops p (cs.dropWhile p) := by
  intro c hc
  have hnot := List.head?_dropWhile_not p cs
  rw [Option.mem_def.1 hc] at hnot
  simpa using hnot

section Runs

variable {p : Char → Bool} {rest : List Char} (h : Stops p rest) (cs : List Char)

include h

lemma takeWhile_of_stops : rest.takeWhile p = [] := by
  cases rest with
  | nil => rfl
  | cons c rest => exact List.takeWhile_cons_of_neg (by simp [h c rfl])

lemma dropWhile_of_stops : rest.dropWhile p = rest := by
  cases rest with
  | nil => rfl
  | cons c rest => exact List.dropWhile_cons_of_neg (by simp [h c rfl])

/-- A run is read again when no character of its kind comes next. -/
lemma takeWhile_run : (cs.takeWhile p ++ rest).takeWhile p = cs.takeWhile p := by
  rw [List.takeWhile_append_of_pos fun c hc => List.mem_takeWhile_imp hc, takeWhile_of_stops h,
    List.append_nil]

lemma dropWhile_run : (cs.takeWhile p ++ rest).dropWhile p = rest := by
  rw [List.dropWhile_append_of_pos fun c hc => List.mem_takeWhile_imp hc, dropWhile_of_stops h]

end Runs

/-! ## Words -/

/-- A word does not go on. -/
structure WordEnds (rest : List Char) : Prop where
  stops : Stops isNameChar rest
  hyphen : ∀ {c cs}, rest = '-' :: c :: cs → isNameChar c = false

lemma scanSegments_of_wordEnds {rest : List Char} (h : WordEnds rest) :
    scanSegments rest = ([], rest) := by
  unfold scanSegments
  split
  · next c cs => simp [h.hyphen rfl]
  · rfl

/-- Segments begin with a hyphen. -/
lemma stops_segments {rest : List Char} (h : Stops isNameChar rest) (cs : List Char) :
    Stops isNameChar ((scanSegments cs).1 ++ rest) := by
  fun_cases scanSegments cs with
  | case1 c cs hc word tail =>
      intro d hd
      obtain rfl : '-' = d := by simpa using hd
      rfl
  | case2 => exact h
  | case3 => exact h

lemma scanSegments_again {rest : List Char} (h : WordEnds rest) (cs : List Char) :
    scanSegments ((scanSegments cs).1 ++ rest) = ((scanSegments cs).1, rest) := by
  fun_induction scanSegments cs with
  | case1 c cs hc word tail ih =>
      have hstops : Stops isNameChar (tail.1 ++ rest) := stops_segments h.stops _
      simp only [List.cons_append, List.append_assoc]
      rw [scanSegments, if_pos hc]
      simp only [word, takeWhile_run hstops, dropWhile_run hstops, tail, ih, List.cons_append]
  | case2 => exact scanSegments_of_wordEnds h
  | case3 => exact scanSegments_of_wordEnds h

lemma wordEnds_segments {cs : List Char} (h : Stops isNameChar cs) :
    WordEnds (scanSegments cs).2 := by
  fun_induction scanSegments cs with
  | case1 c cs hc word tail ih => exact ih (stops_dropWhile isNameChar cs)
  | case2 c cs hc =>
      refine ⟨fun d hd => ?_, fun {d ds} hds => ?_⟩
      · obtain rfl : '-' = d := by simpa using hd
        rfl
      · cases hds
        simpa using hc
  | case3 cs hcs => exact ⟨h, fun hds => absurd hds (hcs _ _)⟩

lemma scanWordTail_again {rest : List Char} (h : WordEnds rest) (cs : List Char) :
    scanWordTail ((scanWordTail cs).1 ++ rest) = ((scanWordTail cs).1, rest) := by
  have hstops := stops_segments h.stops (cs.dropWhile isNameChar)
  simp only [scanWordTail, List.append_assoc, takeWhile_run hstops, dropWhile_run hstops,
    scanSegments_again h]

lemma wordEnds_wordTail (cs : List Char) : WordEnds (scanWordTail cs).2 :=
  wordEnds_segments (stops_dropWhile isNameChar cs)

/-! ## Numbers -/

/-- A number does not go on. -/
structure NumberEnds (rest : List Char) : Prop where
  stops : Stops Char.isDigit rest
  point : rest.head? ≠ some '.'

lemma scanFraction_of_numberEnds {rest : List Char} (h : NumberEnds rest) :
    scanFraction rest = ([], rest) := by
  unfold scanFraction
  split
  · exact absurd rfl h.point
  · rfl

lemma scanFraction_again {rest : List Char} (h : NumberEnds rest) (cs : List Char) :
    scanFraction ((scanFraction cs).1 ++ rest) = ((scanFraction cs).1, rest) := by
  fun_cases scanFraction cs with
  | case1 c cs hc =>
      simp only [List.cons_append, scanFraction, if_pos hc, takeWhile_run h.stops,
        dropWhile_run h.stops]
  | case2 => exact scanFraction_of_numberEnds h
  | case3 => exact scanFraction_of_numberEnds h

/-- A fraction begins with a point. -/
lemma stops_fraction {rest : List Char} (h : Stops Char.isDigit rest) (cs : List Char) :
    Stops Char.isDigit ((scanFraction cs).1 ++ rest) := by
  fun_cases scanFraction cs with
  | case1 c cs hc =>
      intro d hd
      obtain rfl : '.' = d := by simpa using hd
      rfl
  | case2 => exact h
  | case3 => exact h

lemma stops_behind_fraction {cs : List Char} (h : Stops Char.isDigit cs) :
    Stops Char.isDigit (scanFraction cs).2 := by
  fun_cases scanFraction cs with
  | case1 c cs hc => exact stops_dropWhile Char.isDigit cs
  | case2 => exact h
  | case3 => exact h

/-! ## String literals -/

/-- A string literal ends with its closing quote. -/
lemma scanBody_again {cs text lexeme rest : List Char} (h : scanBody cs = .closed text lexeme rest)
    (rest' : List Char) : scanBody (lexeme ++ rest') = .closed text lexeme rest' := by
  fun_induction scanBody cs generalizing text lexeme rest with
  | case1 => cases h
  | case2 => cases h
  | case3 c cs d hd ih =>
      obtain ⟨text', l, hbody, rfl, rfl⟩ := push_eq_closed.1 h
      simp only [List.cons_append, List.nil_append, scanBody, hd, ih hbody]
      rfl
  | case4 => cases h
  | case5 =>
      cases h
      simp [scanBody]
  | case6 => cases h
  | case7 c cs hnil hcons hquote hbreak ih =>
      obtain ⟨text', l, hbody, rfl, rfl⟩ := push_eq_closed.1 h
      rw [List.cons_append, List.nil_append, List.cons_append,
        scanBody_cons_of_ne (ne_backslash hnil hcons), if_neg hquote, if_neg hbreak, ih hbody]
      rfl

/-! ## Tokens -/

/-- What stands behind a token does not make it another one. -/
def Closes : Token → List Char → Prop
  | .keyword _, rest => WordEnds rest ∧ rest.head? ≠ some '-'
  | .identifier name, rest =>
    WordEnds rest ∧ (Keyword.ofSpelling? name ≠ none → rest.head? = some '-')
  | .number _, rest => NumberEnds rest ∧ rest.head? ≠ some '%'
  | .lineComment _, rest => Stops (fun c => c ≠ '\n') rest
  | .whitespace, rest => Stops (fun c => isBlank c && c ≠ '\n') rest
  | _, _ => True

lemma wordToken_again {word rest rest' : List Char} (h : Closes (wordToken word rest) rest') :
    WordEnds rest' ∧ wordToken word rest' = wordToken word rest := by
  unfold wordToken at h ⊢
  cases hk : Keyword.ofSpelling? (String.ofList word) with
  | none =>
      rw [hk] at h
      exact ⟨h.1, rfl⟩
  | some k =>
      rw [hk] at h
      by_cases hrest : rest.head? = some '-'
      · simp only [hrest, if_true] at h ⊢
        exact ⟨h.1, if_pos (h.2 (by simp [hk]))⟩
      · simp only [hrest, if_false] at h ⊢
        exact ⟨h.1, if_neg h.2⟩

lemma numberScan_again {digits cs lexeme rest rest' : List Char} {t : Token}
    (h : numberScan digits cs = .token t lexeme rest) (hrest : Closes t rest') :
    ∃ tail, lexeme = digits ++ tail ∧ NumberEnds (tail ++ rest') ∧
      numberScan digits (tail ++ rest') = .token t lexeme rest' := by
  unfold numberScan at h
  split at h
  · cases h
    refine ⟨['%'], rfl, ⟨fun c hc => ?_, by simp⟩, rfl⟩
    obtain rfl : '%' = c := by simpa using hc
    rfl
  · cases h
    refine ⟨[], (List.append_nil digits).symm, hrest.1, ?_⟩
    rw [List.nil_append]
    unfold numberScan
    split
    · exact absurd rfl hrest.2
    · rfl

/-- A token is scanned again when what stands behind it closes it. -/
lemma scan_again {c : Char} {cs lexeme rest rest' : List Char} {t : Token}
    (h : scan c cs = .token t lexeme rest) (hrest : Closes t rest') :
    ∃ l, lexeme = c :: l ∧ scan c (l ++ rest') = .token t lexeme rest' := by
  simp only [scan_eq_token_iff] at h ⊢
  cases h with
  | comment cs =>
      have hagain := Front.comment (cs.takeWhile (· ≠ '\n') ++ rest')
      rw [takeWhile_run hrest, dropWhile_run hrest] at hagain
      exact ⟨_, rfl, hagain⟩
  | literal hbody => exact ⟨_, rfl, .literal (scanBody_again hbody rest')⟩
  | arrow cs => exact ⟨_, rfl, .arrow rest'⟩
  | word cs hname =>
      obtain ⟨hends, htoken⟩ := wordToken_again hrest
      have hagain := Front.word ((scanWordTail cs).1 ++ rest') hname
      rw [scanWordTail_again hends, htoken] at hagain
      exact ⟨_, rfl, hagain⟩
  | number hdigit hscan =>
      obtain ⟨tail, rfl, hends, hscan⟩ := numberScan_again hscan hrest
      have hstops := stops_fraction hends.stops (cs.dropWhile Char.isDigit)
      refine ⟨cs.takeWhile Char.isDigit ++ ((scanFraction (cs.dropWhile Char.isDigit)).1 ++ tail),
        by simp, .number hdigit ?_⟩
      simp only [List.append_assoc, takeWhile_run hstops, dropWhile_run hstops,
        scanFraction_again hends]
      simpa using hscan
  | newline cs => exact ⟨_, rfl, .newline rest'⟩
  | @blank _ cs hblank hbreak =>
      have hagain :=
        Front.blank ((cs.takeWhile fun d => isBlank d && d ≠ '\n') ++ rest') hblank hbreak
      rw [takeWhile_run hrest, dropWhile_run hrest] at hagain
      exact ⟨_, rfl, hagain⟩
  | mark cs hm => exact ⟨_, rfl, .mark rest' hm⟩

lemma closes_of_numberScan {digits cs lexeme rest : List Char} {t : Token}
    (h : numberScan digits cs = .token t lexeme rest) (hstops : Stops Char.isDigit cs)
    (hpoint : rest.head? ≠ some '.') : Closes t rest := by
  unfold numberScan at h
  split at h
  · cases h
    trivial
  · next hpercent =>
    cases h
    refine ⟨⟨hstops, hpoint⟩, fun hhead => ?_⟩
    obtain ⟨cs', hcs'⟩ := List.head?_eq_some_iff.1 hhead
    exact hpercent cs' hcs'

/-- A word goes as far as it can. -/
lemma closes_wordToken {cs : List Char} (h : WordEnds cs) (word : List Char) :
    Closes (wordToken word cs) cs := by
  unfold wordToken
  split
  · next k hk =>
    split
    · next hhyphen => exact ⟨h, fun _ => hhyphen⟩
    · next hhyphen => exact ⟨h, hhyphen⟩
  · next hk => exact ⟨h, fun hne => absurd hk hne⟩

/-- Where no point follows, a token is closed by what stands behind it. -/
lemma closes_of_scan {c : Char} {cs lexeme rest : List Char} {t : Token}
    (h : scan c cs = .token t lexeme rest) (hpoint : rest.head? ≠ some '.') : Closes t rest := by
  cases scan_eq_token_iff.1 h with
  | comment cs => exact stops_dropWhile _ _
  | word cs hname => exact closes_wordToken (wordEnds_wordTail cs) _
  | number hdigit hscan =>
      exact closes_of_numberScan hscan
        (stops_behind_fraction (stops_dropWhile Char.isDigit cs)) hpoint
  | blank cs hblank hbreak => exact stops_dropWhile _ _
  | literal => trivial
  | arrow => trivial
  | newline => trivial
  | mark => trivial

/-- Two texts that a scanner cannot tell apart from its place before them. -/
structure SameFront (rest rest' : List Char) : Prop where
  head : rest.head? = rest'.head?
  hyphen : rest.head? = some '-' → rest.tail.head? = rest'.tail.head?

lemma Stops.congr {p : Char → Bool} {rest rest' : List Char} (h : Stops p rest)
    (hhead : rest.head? = rest'.head?) : Stops p rest' := by
  rwa [Stops, ← hhead]

lemma WordEnds.congr {rest rest' : List Char} (h : WordEnds rest) (hfront : SameFront rest rest') :
    WordEnds rest' := by
  refine ⟨h.stops.congr hfront.head, fun {c cs} hrest' => ?_⟩
  subst hrest'
  obtain ⟨cs', rfl⟩ := List.head?_eq_some_iff.1 hfront.head
  obtain ⟨cs'', rfl⟩ := List.head?_eq_some_iff.1 (hfront.hyphen rfl)
  exact h.hyphen rfl

lemma Closes.congr {t : Token} {rest rest' : List Char} (h : Closes t rest)
    (hfront : SameFront rest rest') : Closes t rest' := by
  cases t with
  | keyword k => exact ⟨h.1.congr hfront, hfront.head ▸ h.2⟩
  | identifier name => exact ⟨h.1.congr hfront, hfront.head ▸ h.2⟩
  | number digits =>
      exact ⟨⟨h.1.stops.congr hfront.head, hfront.head ▸ h.1.point⟩, hfront.head ▸ h.2⟩
  | lineComment text => exact Stops.congr h hfront.head
  | whitespace => exact Stops.congr h hfront.head
  | _ => trivial

/-! ## Other text behind a token -/

/-- The front of a text, whatever stands behind it, is the front of a token. -/
structure Opens (before : List Char) : Prop where
  sameFront : ∀ rest rest', SameFront (before ++ rest) (before ++ rest')
  point : ∀ rest, (before ++ rest).head? ≠ some '.'

/-- A hyphen can only begin an arrow. -/
lemma arrow_of_scan {cs lexeme rest : List Char} {t : Token}
    (h : scan '-' cs = .token t lexeme rest) : t = .mark .arrow ∧ lexeme = ['-', '>'] := by
  unfold scan at h
  simp only [Char.reduceEq, if_false, if_true] at h
  split at h <;> cases h
  exact ⟨rfl, rfl⟩

lemma opens_of_scan {c : Char} {cs lexeme rest : List Char} {t : Token}
    (h : scan c cs = .token t lexeme rest) (more : List Char) : Opens (lexeme ++ more) := by
  obtain ⟨l, rfl⟩ : ∃ l, lexeme = c :: l := by
    cases lexeme with
    | nil => exact absurd rfl (lexeme_ne_nil h)
    | cons d l => exact ⟨l, by rw [(List.cons.inj (text_of_scan h)).1]⟩
  refine ⟨fun x y => ⟨rfl, fun hc => ?_⟩, fun x hc => ?_⟩
  · obtain rfl : c = '-' := by simpa using hc
    obtain ⟨-, hl⟩ := arrow_of_scan h
    cases hl
    rfl
  · obtain rfl : c = '.' := by simpa using hc
    have hfault : scan '.' cs = .fault .unexpectedCharacter [] ('.' :: cs) := rfl
    rw [hfault] at h
    cases h

lemma Lexed.head_ne_point {offset : ℕ} {cs : List Char} {ts : List (Located Token)}
    (h : Lexed offset cs ts) : cs.head? ≠ some '.' := by
  cases h with
  | nil => simp
  | @cons _ c cs lexeme rest t ts hscan hrest =>
      have hpoint := (opens_of_scan hscan []).point rest
      rwa [List.append_nil, ← text_of_scan hscan] at hpoint

/-- The text behind a token may be another one, if that closes the token too. -/
lemma Lexed.splice {offset : ℕ} {cs : List Char} {u post : List (Located Token)}
    {tok : Located Token} (h : Lexed offset cs (u ++ tok :: post)) :
    ∃ before behind, cs = before ++ behind ∧ tok.span.stop = offset + byteLength before ∧
      Opens before ∧ Closes tok.value behind ∧ Lexed tok.span.stop behind post ∧
      ∀ {behind' post'}, Closes tok.value behind' → Lexed tok.span.stop behind' post' →
        Lexed offset (before ++ behind') (u ++ tok :: post') := by
  induction u generalizing offset cs with
  | nil =>
      rw [List.nil_append] at h
      cases h with
      | @cons _ c cs lexeme rest t ts hscan hrest =>
          have hstop : (Span.between offset (offset + byteLength lexeme)).stop
              = offset + byteLength lexeme := Nat.max_eq_right (Nat.le_add_right _ _)
          refine ⟨lexeme, rest, text_of_scan hscan, hstop, ?_,
            closes_of_scan hscan hrest.head_ne_point, hstop.symm ▸ hrest,
            fun hclosed hlexed => ?_⟩
          · simpa using opens_of_scan hscan []
          · obtain ⟨l, rfl, hagain⟩ := scan_again hscan hclosed
            exact .cons hagain (hstop ▸ hlexed)
  | cons y u ih =>
      cases h with
      | @cons _ c cs lexeme rest t ts hscan hrest =>
          obtain ⟨before, behind, rfl, hstop, hopens, hcloses, hbehind, hsplice⟩ := ih hrest
          refine ⟨lexeme ++ before, behind,
            (text_of_scan hscan).trans (List.append_assoc _ _ _).symm,
            by rw [hstop, byteLength_append, Nat.add_assoc], opens_of_scan hscan before, hcloses,
            hbehind, fun {behind' post'} hclosed hlexed => ?_⟩
          have hfront := hopens.sameFront behind behind'
          have hagain := (closes_of_scan hscan (hopens.point behind)).congr hfront
          obtain ⟨l, rfl, hagain⟩ := scan_again hscan hagain
          rw [List.append_assoc]
          exact .cons hagain (hsplice hclosed hlexed)

/-- The same text at another place has the same tokens at other places. -/
lemma Lexed.exists_shifted {offset : ℕ} {cs : List Char} {ts : List (Located Token)}
    (h : Lexed offset cs ts) (offset' : ℕ) :
    ∃ ts', Lexed offset' cs ts' ∧ ts'.map (·.value) = ts.map (·.value) := by
  induction h generalizing offset' with
  | nil => exact ⟨[], .nil offset', rfl⟩
  | @cons offset c cs lexeme rest t ts hscan _ ih =>
      obtain ⟨ts', hlexed, hvalues⟩ := ih (offset' + byteLength lexeme)
      exact ⟨_, .cons hscan hlexed, congrArg (t :: ·) hvalues⟩

end ArchLang
