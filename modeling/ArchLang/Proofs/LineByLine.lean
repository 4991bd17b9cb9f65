import ArchLang.Proofs.Faults

/-!
# Line by line

No token and no fault reaches over a line end, so a text may be cut there and its parts read apart.
What makes this more than obvious is the way in which scanning goes on behind a fault: one character
is passed over, and where a literal breaks off at the end of its line that character is the line end
itself.  Then there is no token for it, but neither are there tokens of the whole text.

* `Scan.extend` — the same reading with more text behind it.  `scan_break` says that the front of a
  text is read the same when a line end and any text follow.
* `shift k` — tokens and diagnostics of a text, `k` bytes further on (`Lexed.shift`,
  `lexedFaults_shift`).
* `lexedFaults_break`, `Lexed.break` — the loop goes through the line end with nothing in its hands.
* **`tokensOf_line_by_line`** — the tokens of a text are those of its parts with the line end
  between them, or its faults are those of its parts.
-/

namespace ArchLang

/-! ## A line end behind a text -/

/-- The same reading with more text behind what is left. -/
def StringBody.extend (more : List Char) : StringBody → StringBody
  | .closed text lexeme rest => .closed text lexeme (rest ++ more)
  | .broken lexeme rest => .broken lexeme (rest ++ more)
  | .badEscape lexeme rest => .badEscape lexeme (rest ++ more)

/-- The same reading with more text behind what is left. -/
def Scan.extend (more : List Char) : Scan → Scan
  | .token t lexeme rest => .token t lexeme (rest ++ more)
  | .fault f lexeme rest => .fault f lexeme (rest ++ more)

section Break

variable (more : List Char)

lemma takeWhile_break {p : Char → Bool} (hp : p '\n' = false) (cs : List Char) :
    (cs ++ '\n' :: more).takeWhile p = cs.takeWhile p := by
  induction cs with
  | nil => simp [hp]
  | cons c cs ih => cases hc : p c <;> simp [hc, ih]

lemma dropWhile_break {p : Char → Bool} (hp : p '\n' = false) (cs : List Char) :
    (cs ++ '\n' :: more).dropWhile p = cs.dropWhile p ++ '\n' :: more := by
  induction cs with
  | nil => simp [hp]
  | cons c cs ih => cases hc : p c <;> simp [hc, ih]

lemma push_extend (d : Char) (spelling : List Char) (b : StringBody) :
    (b.extend more).push d spelling = (b.push d spelling).extend more := by
  cases b <;> rfl

/-- A literal that its line does not close breaks off at the line end as it does at the end of the
text. -/
lemma scanBody_break (cs : List Char) :
    scanBody (cs ++ '\n' :: more) = (scanBody cs).extend ('\n' :: more) := by
  fun_induction scanBody cs with
  | case1 => simp [scanBody, StringBody.extend]
  | case2 => simp [scanBody, unescape?, StringBody.extend]
  | case3 c cs d hd ih => simp [scanBody, hd, ih, push_extend]
  | case4 c cs hd => simp [scanBody, hd, StringBody.extend]
  | case5 cs => simp [scanBody, StringBody.extend]
  | case6 c cs hnil hcons hquote hbreak =>
      rw [List.cons_append, scanBody_cons_of_ne (ne_backslash hnil hcons), if_neg hquote,
        if_pos hbreak]
      rfl
  | case7 c cs hnil hcons hquote hbreak ih =>
      rw [List.cons_append, scanBody_cons_of_ne (ne_backslash hnil hcons), if_neg hquote,
        if_neg hbreak, ih, push_extend]

lemma scanSegments_break (cs : List Char) : scanSegments (cs ++ '\n' :: more)
    = ((scanSegments cs).1, (scanSegments cs).2 ++ '\n' :: more) := by
  fun_induction scanSegments cs with
  | case1 c cs hc word tail ih =>
      have hname : isNameChar '\n' = false := by decide
      rw [List.cons_append, List.cons_append, scanSegments, if_pos hc]
      simp only [word, tail, takeWhile_break more hname, dropWhile_break more hname, ih]
  | case2 c cs hc => simp [scanSegments, hc]
  | case3 cs hcs =>
      rcases cs with - | ⟨c, - | ⟨d, cs⟩⟩
      · simp [scanSegments]
      · by_cases hc : c = '-'
        · subst hc
          simp [scanSegments, isNameChar]
        · simp [scanSegments, hc]
      · have hc : c ≠ '-' := fun h => hcs d cs (by rw [h])
        simp [scanSegments, hc]

lemma scanWordTail_break (cs : List Char) : scanWordTail (cs ++ '\n' :: more)
    = ((scanWordTail cs).1, (scanWordTail cs).2 ++ '\n' :: more) := by
  have hname : isNameChar '\n' = false := by decide
  simp only [scanWordTail, takeWhile_break more hname, dropWhile_break more hname,
    scanSegments_break]

/-- A keyword is one whether its line or the text ends behind it. -/
lemma wordToken_break (word rest : List Char) :
    wordToken word (rest ++ '\n' :: more) = wordToken word rest := by
  cases rest with
  | nil => simp [wordToken]
  | cons c rest => rfl

lemma scanFraction_break (cs : List Char) : scanFraction (cs ++ '\n' :: more)
    = ((scanFraction cs).1, (scanFraction cs).2 ++ '\n' :: more) := by
  have hdigit : Char.isDigit '\n' = false := by decide
  rcases cs with - | ⟨c, - | ⟨d, cs⟩⟩
  · rfl
  · by_cases hc : c = '.'
    · subst hc
      simp [scanFraction, hdigit]
    · simp [scanFraction, hc]
  · by_cases hc : c = '.'
    · subst hc
      by_cases hd : d.isDigit
      · simp [scanFraction, hd, takeWhile_break more hdigit, dropWhile_break more hdigit]
      · simp [scanFraction, hd]
    · simp [scanFraction, hc]

lemma numberScan_break (digits rest : List Char) :
    numberScan digits (rest ++ '\n' :: more) = (numberScan digits rest).extend ('\n' :: more) := by
  rcases rest with - | ⟨c, rest⟩
  · simp [numberScan, Scan.extend]
  · by_cases hc : c = '%'
    · subst hc
      rfl
    · simp [numberScan, hc, Scan.extend]

/-- The front of a text is read the same when a line end follows the text. -/
theorem scan_break (c : Char) (cs : List Char) :
    scan c (cs ++ '\n' :: more) = (scan c cs).extend ('\n' :: more) := by
  have hdigit : Char.isDigit '\n' = false := by decide
  unfold scan
  split_ifs
  · rcases cs with - | ⟨d, cs⟩
    · simp [Scan.extend]
    · by_cases hd : d = '/'
      · subst hd
        simp [Scan.extend, takeWhile_break, dropWhile_break]
      · simp [hd, Scan.extend]
  · rw [scanBody_break]
    cases scanBody cs <;> rfl
  · rcases cs with - | ⟨d, cs⟩
    · simp [Scan.extend]
    · by_cases hd : d = '>'
      · subst hd
        rfl
      · simp [hd, Scan.extend]
  · simp only [scanWordTail_break, wordToken_break, Scan.extend]
  · simp only [takeWhile_break more hdigit, dropWhile_break more hdigit, scanFraction_break,
      numberScan_break]
  · rfl
  · simp [takeWhile_break, dropWhile_break, Scan.extend]
  · cases Mark.ofChar? c <;> rfl

end Break

/-! ## The same text further on -/

section Shift

variable (k : ℕ)

/-- The same place, `k` bytes further on. -/
def Span.shift (s : Span) : Span :=
  ⟨s.start + k, s.stop + k, Nat.add_le_add_right s.start_le_stop k⟩

/-- The same value, `k` bytes further on. -/
def Located.shift {α : Type} (x : Located α) : Located α := ⟨x.value, x.span.shift k⟩

/-- The same remark, `k` bytes further on. -/
def Label.shift (l : Label) : Label := { l with span := l.span.shift k }

/-- The same finding, `k` bytes further on. -/
def Diagnostic.shift (d : Diagnostic) : Diagnostic := { d with labels := d.labels.map (·.shift k) }

lemma between_shift (a b : ℕ) : Span.between (a + k) (b + k) = (Span.between a b).shift k := by
  simp only [Span.between, Span.shift, Span.mk.injEq, true_and]
  omega

/-- The label of a bad escape goes back by one byte, so there must be one. -/
lemma diagnostic_shift {f : Fault} (start : ℕ) {position : ℕ}
    (h : f = .invalidEscape → 0 < position) :
    f.diagnostic (start + k) (position + k) = (f.diagnostic start position).shift k := by
  cases f with
  | unterminatedString =>
      rw [Fault.diagnostic, between_shift]
      rfl
  | invalidEscape =>
      have hback : position + k - 1 = position - 1 + k := by
        have := h rfl
        omega
      rw [Fault.diagnostic, hback, between_shift]
      rfl
  | unexpectedCharacter =>
      rw [Fault.diagnostic, Nat.add_right_comm, between_shift]
      rfl

lemma Lexed.shift {offset : ℕ} {cs : List Char} {ts : List (Located Token)}
    (h : Lexed offset cs ts) : Lexed (offset + k) cs (ts.map (·.shift k)) := by
  induction h with
  | nil offset => exact .nil _
  | @cons offset c cs lexeme rest t ts hscan _ ih =>
      rw [Nat.add_right_comm] at ih
      have hcons := Lexed.cons hscan ih
      rwa [Nat.add_right_comm, between_shift] at hcons

lemma lexedFaults_shift (start : ℕ) (cs : List Char) :
    lexedFaults (lex (start + k) cs) = (lexedFaults (lex start cs)).map (·.shift k) := by
  induction start, cs using lex_induction with
  | nil start => simp [lex, lexedFaults]
  | token start c cs t lexeme rest hscan ih =>
      rw [lex_of_token hscan, lex_of_token hscan, lexedFaults, lexedFaults, Nat.add_right_comm, ih]
  | fault start c cs f lexeme rest hscan ih =>
      have hpos : f = .invalidEscape → 0 < start + byteLength lexeme := by
        rintro rfl
        have hread : lexeme ≠ [] := by
          cases faulty_of_scan hscan with
          | badEscape hbody => simp
        have := byteLength_pos hread
        omega
      have hstop : start + k + byteLength lexeme = start + byteLength lexeme + k :=
        Nat.add_right_comm start k _
      rw [lex_of_fault hscan, lex_of_fault hscan, lexedFaults, lexedFaults, List.map_cons, hstop,
        diagnostic_shift k start hpos, Nat.add_right_comm _ k, ih]

end Shift

/-! ## Through the line end -/

lemma scan_newline (more : List Char) : scan '\n' more = .token .newline ['\n'] more :=
  scan_eq_token_iff.2 (.newline more)

lemma Lexed.break {offset : ℕ} {cs more : List Char} {ts us : List (Located Token)}
    (h : Lexed offset cs ts) (hmore : Lexed (offset + byteLength cs + 1) more us) :
    Lexed offset (cs ++ '\n' :: more) (ts ++
      ⟨.newline, .between (offset + byteLength cs) (offset + byteLength cs + 1)⟩ :: us) := by
  induction h with
  | nil offset => exact .cons (scan_newline more) hmore
  | @cons offset c cs lexeme rest t ts hscan _ ih =>
      have hbreak : scan c (cs ++ '\n' :: more) = .token t lexeme (rest ++ '\n' :: more) := by
        rw [scan_break, hscan]
        rfl
      rw [text_of_scan hscan, byteLength_append, ← Nat.add_assoc] at hmore ⊢
      rw [← text_of_scan hscan]
      exact .cons hbreak (ih hmore)

lemma lexedFaults_break (more : List Char) (start : ℕ) (cs : List Char) :
    lexedFaults (lex start (cs ++ '\n' :: more))
      = lexedFaults (lex start cs) ++ lexedFaults (lex (start + byteLength cs + 1) more) := by
  induction start, cs using lex_induction with
  | nil start =>
      simp [lex_of_token (scan_newline more), lex, lexedFaults]
      rfl
  | token start c cs t lexeme rest hscan ih =>
      have hbreak : scan c (cs ++ '\n' :: more) = .token t lexeme (rest ++ '\n' :: more) := by
        rw [scan_break, hscan]
        rfl
      rw [List.cons_append, lex_of_token hbreak, lex_of_token hscan, lexedFaults, lexedFaults, ih,
        text_of_scan hscan, byteLength_append, ← Nat.add_assoc]
  | fault start c cs f lexeme rest hscan ih =>
      have hbreak : scan c (cs ++ '\n' :: more) = .fault f lexeme (rest ++ '\n' :: more) := by
        rw [scan_break, hscan]
        rfl
      rw [List.cons_append, lex_of_fault hbreak, lex_of_fault hscan, lexedFaults, lexedFaults,
        List.cons_append, text_of_fault hscan, byteLength_append, ← Nat.add_assoc]
      cases rest with
      | nil =>
          -- the line end is the character that the fault costs
          have hcost : byteLength (('\n' :: more).take 1) = 1 := rfl
          rw [List.nil_append, hcost]
          simp [lex, lexedFaults]
      | cons d rest =>
          have hcost : byteLength (((d :: rest) ++ '\n' :: more).take 1) = d.utf8Size := rfl
          have hcost' : byteLength ((d :: rest).take 1) = d.utf8Size := rfl
          rw [hcost'] at ih ⊢
          rw [hcost, byteLength_cons, ← Nat.add_assoc]
          exact congrArg (f.diagnostic start _ :: ·) ih

/-! ## Two lines -/

/-- The faults for which a source was refused. -/
def faultsOf {α : Type} : Except Rejection α → List Diagnostic
  | .ok _ => []
  | .error e => e.diagnostics

/-- What two texts are with a line end at the byte `size` between them: the tokens of both, or the
faults of both. -/
def acrossBreak (size : ℕ) : Except Rejection (List (Located Token)) →
    Except Rejection (List (Located Token)) → Except Rejection (List (Located Token))
  | .ok ts, .ok us =>
    .ok (ts ++ ⟨.newline, .between size (size + 1)⟩ :: us.map (·.shift (size + 1)))
  | first, second =>
    .error ⟨faultsOf first ++ (faultsOf second).map (·.shift (size + 1))⟩

lemma faultsOf_tokensOf (source : String) :
    faultsOf (tokensOf source) = lexedFaults (lex 0 source.toList) := by
  cases h : tokensOf source with
  | error e => exact (tokensOf_eq_error_iff.1 h).1
  | ok ts => rw [(tokensOf_eq_ok_iff.1 h).lex_eq, lexedFaults_map_ok, faultsOf]

/-- **Line by line.**  A text that a line end divides has tokens exactly if both parts have some:
those of the first part, the line end, and those of the second part further on.  Otherwise its
faults are those of the first part, followed by those of the second part further on. -/
theorem tokensOf_line_by_line (a b : String) :
    tokensOf (a ++ "\n" ++ b) = acrossBreak a.utf8ByteSize (tokensOf a) (tokensOf b) := by
  have htext : (a ++ "\n" ++ b).toList = a.toList ++ '\n' :: b.toList := by simp
  have hsize : 0 + byteLength a.toList = a.utf8ByteSize := by rw [byteLength_toList, Nat.zero_add]
  have hfaults : lexedFaults (lex 0 (a ++ "\n" ++ b).toList)
      = faultsOf (tokensOf a) ++ (faultsOf (tokensOf b)).map (·.shift (a.utf8ByteSize + 1)) := by
    rw [htext, lexedFaults_break, hsize, faultsOf_tokensOf, faultsOf_tokensOf,
      ← lexedFaults_shift, Nat.zero_add]
  cases ha : tokensOf a with
  | ok ts =>
      cases hb : tokensOf b with
      | ok us =>
          have hmore := (tokensOf_eq_ok_iff.1 hb).shift (a.utf8ByteSize + 1)
          rw [Nat.zero_add, ← hsize] at hmore
          have hlexed := (tokensOf_eq_ok_iff.1 ha).break hmore
          rw [hsize, ← htext] at hlexed
          exact tokensOf_eq_ok_iff.2 hlexed
      | error e =>
          have hne := (tokensOf_eq_error_iff.1 hb).2
          rw [ha, hb] at hfaults
          exact tokensOf_eq_error_iff.2 ⟨hfaults.symm, by simpa [faultsOf] using hne⟩
  | error e =>
      have hne := (tokensOf_eq_error_iff.1 ha).2
      rw [ha] at hfaults
      cases hb : tokensOf b with
      | ok us =>
          rw [hb] at hfaults
          exact tokensOf_eq_error_iff.2 ⟨hfaults.symm, by simpa [faultsOf] using hne⟩
      | error e' =>
          rw [hb] at hfaults
          exact tokensOf_eq_error_iff.2 ⟨hfaults.symm, by simp [faultsOf, hne]⟩

end ArchLang
