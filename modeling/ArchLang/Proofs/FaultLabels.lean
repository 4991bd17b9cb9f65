import ArchLang.Proofs.Faults

/-!
# What the labels of the lexer mark

The lexer goes over a text turn by turn and puts down a label for each fault.  `Faults` says which
faults there are; this file says where their labels lie.

**Turns.**  `Scan.taken` is what a turn uses up: the token, or what was read up to the fault and one
character more.  It is never empty, and it goes from the front of what was left to the next place
that the lexer looks at (`LooksAt`).

**Marks.**  `Marks text code span` has one case for each code.  A broken literal is marked from its
quote to the line end, a bad escape at its backslash and an unexpected character at its first byte,
each behind a place that the lexer looks at.

**Order.**  A label lies within the characters that its turn uses up (`span_of_fault`), and turns do
not overlap, so neither do labels.

* **`labels_of_faults`** — the diagnostics of a refused source, and the progress of the lexer over
  any source.
* **`label_of_invalidEscape`** — the label of a bad escape is its backslash, with the character
  behind it exactly if there is none.
-/

namespace ArchLang

/-! ## Turns of the lexer -/

/-- The characters that a turn uses up: the lexeme of a token, or what was read up to a fault and
one character more. -/
def Scan.taken : Scan → List Char
  | .token _ lexeme _ => lexeme
  | .fault _ lexeme rest => lexeme ++ rest.take 1

lemma taken_append_next (c : Char) (cs : List Char) :
    (scan c cs).taken ++ (scan c cs).next = c :: cs := by
  cases h : scan c cs with
  | token t lexeme rest => exact (text_of_scan h).symm
  | fault f lexeme rest =>
      rw [Scan.taken, Scan.next, List.append_assoc, ← List.drop_one, List.take_append_drop]
      exact (text_of_fault h).symm

/-- No turn stays where it is. -/
lemma taken_ne_nil (c : Char) (cs : List Char) : (scan c cs).taken ≠ [] := by
  intro hnil
  have hlen := congrArg List.length (taken_append_next c cs)
  rw [hnil, List.nil_append] at hlen
  exact absurd hlen (length_next_lt c cs).ne

/-- In the text `before ++ behind` the lexer looks at the place between the two. -/
inductive LooksAt : List Char → List Char → Prop where
  | front (text : List Char) : LooksAt [] text
  | turn {before cs : List Char} {c : Char} : LooksAt before (c :: cs) →
      LooksAt (before ++ (scan c cs).taken) (scan c cs).next

section Turn

variable {before cs lexeme rest : List Char} {c : Char}

lemma LooksAt.token {t : Token} (h : LooksAt before (c :: cs))
    (hscan : scan c cs = .token t lexeme rest) : LooksAt (before ++ lexeme) rest := by
  have hturn := h.turn
  rwa [hscan] at hturn

lemma LooksAt.fault {f : Fault} (h : LooksAt before (c :: cs))
    (hscan : scan c cs = .fault f lexeme rest) :
    LooksAt (before ++ (lexeme ++ rest.take 1)) rest.tail := by
  have hturn := h.turn
  rwa [hscan] at hturn

end Turn

/-- A turn puts down one item and goes on behind what it used up. -/
lemma lex_cons (start : ℕ) (c : Char) (cs : List Char) :
    ∃ item, lex start (c :: cs) =
      item :: lex (start + byteLength (scan c cs).taken) (scan c cs).next := by
  cases h : scan c cs with
  | token t lexeme rest => exact ⟨_, lex_of_token h start⟩
  | fault f lexeme rest =>
      rw [Scan.taken, byteLength_append, ← Nat.add_assoc]
      exact ⟨_, lex_of_fault h start⟩

/-- There are at most as many turns as there are characters. -/
lemma length_lex_le (start : ℕ) (cs : List Char) : (lex start cs).length ≤ cs.length := by
  induction start, cs using lex_induction with
  | nil start => simp [lex]
  | token start c cs t lexeme rest hscan ih =>
      have hlt := length_next_lt c cs
      rw [hscan, Scan.next] at hlt
      rw [lex_of_token hscan, List.length_cons]
      omega
  | fault start c cs f lexeme rest hscan ih =>
      have hlt := length_next_lt c cs
      rw [hscan, Scan.next] at hlt
      rw [lex_of_fault hscan, List.length_cons]
      omega

/-! ## Where no token begins -/

/-- No front part of the text is a token. -/
def NoTokenBegins (text : List Char) : Prop :=
  ∀ piece rest, text = piece ++ rest → ∀ t, tokensOf (String.ofList piece) ≠ .ok [t]

lemma exists_numberScan (digits cs : List Char) :
    ∃ t lexeme rest, numberScan digits cs = .token t lexeme rest := by
  unfold numberScan
  split
  · exact ⟨_, _, _, rfl⟩
  · exact ⟨_, _, _, rfl⟩

/-- What is no token in a text is none in a text that ends earlier. -/
lemma scan_ne_token_of_append {c : Char} {cs more lexeme rest : List Char}
    (h : scan c (cs ++ more) = .fault .unexpectedCharacter lexeme rest)
    (t : Token) (l r : List Char) : scan c cs ≠ .token t l r := by
  have hno : ∀ {t : Token} {l r : List Char}, ¬ Front c (cs ++ more) t l r := fun hfront => by
    rw [scan_eq_token_iff.2 hfront] at h
    cases h
  intro htoken
  cases scan_eq_token_iff.1 htoken with
  | comment cs => exact hno (.comment _)
  | literal =>
      cases faulty_of_scan h with
      | character => cases hbody : scanBody (cs ++ more) <;> simp [scan, hbody] at h
  | arrow cs => exact hno (.arrow _)
  | word _ hname => exact hno (.word _ hname)
  | number hdigit =>
      obtain ⟨t, l, r, hscan⟩ := exists_numberScan _ _
      exact hno (.number hdigit hscan)
  | newline => exact hno (.newline _)
  | blank _ hblank hbreak => exact hno (.blank _ hblank hbreak)
  | mark _ hm => exact hno (.mark _ hm)

lemma noTokenBegins_of_scan {c : Char} {cs lexeme rest : List Char}
    (h : scan c cs = .fault .unexpectedCharacter lexeme rest) : NoTokenBegins (c :: cs) := by
  rintro piece more htext t htokens
  rw [tokensOf_eq_ok_iff, String.toList_ofList] at htokens
  cases htokens with
  | cons hscan _ =>
      obtain ⟨rfl, rfl⟩ := List.cons.inj htext
      exact scan_ne_token_of_append h _ _ _ hscan

/-! ## What a label marks -/

/-- What the label under a code marks in a text. -/
inductive Marks (text : List Char) : DiagnosticCode → Span → Prop where
  /-- a literal from its quote to the line end or the end of the text, where it broke off -/
  | unterminated {before body behind decoded : List Char} :
      text = before ++ '"' :: body ++ behind → LooksAt before ('"' :: body ++ behind) →
      Decodes body decoded → (∀ c ∈ behind.head?, c = '\n' ∨ c = '\r') →
      Marks text .unterminatedString
        (.between (byteLength before) (byteLength (before ++ '"' :: body)))
  /-- a backslash inside a literal, in front of nothing that it could escape -/
  | invalidEscape {before body behind decoded : List Char} :
      text = before ++ '"' :: body ++ '\\' :: behind →
      LooksAt before ('"' :: body ++ '\\' :: behind) →
      Decodes body decoded → (∀ c ∈ behind.head?, unescape? c = none) →
      Marks text .invalidEscape
        (.between (byteLength (before ++ '"' :: body)) (byteLength (before ++ '"' :: body) + 1))
  /-- the first byte of a character at which no token begins -/
  | unexpected {before behind : List Char} {c : Char} :
      text = before ++ c :: behind → LooksAt before (c :: behind) → NoTokenBegins (c :: behind) →
      Marks text .unexpectedCharacter (.between (byteLength before) (byteLength before + 1))

/-- The diagnostic is an error with one label, which is primary and marks a fault. -/
structure Diagnostic.IsLexical (text : List Char) (d : Diagnostic) : Prop where
  severity : d.severity = .error
  marks : ∃ code l, d.code = some code ∧ d.labels = [l] ∧ l.isPrimary = true ∧
    Marks text code l.span

/-- A marked place is not empty and lies inside the text. -/
lemma Marks.inside {text : List Char} {code : DiagnosticCode} {span : Span}
    (h : Marks text code span) : span.start < span.stop ∧ span.stop ≤ byteLength text := by
  have hquote : Char.utf8Size '"' = 1 := rfl
  have hslash : Char.utf8Size '\\' = 1 := rfl
  cases h with
  | unterminated htext =>
      subst htext
      simp only [Span.between, byteLength_append, byteLength_cons]
      omega
  | invalidEscape htext =>
      subst htext
      simp only [Span.between, byteLength_append, byteLength_cons]
      omega
  | @unexpected _ _ c htext =>
      subst htext
      have hpos := c.utf8Size_pos
      simp only [Span.between, byteLength_append, byteLength_cons]
      omega

/-- The diagnostic of a turn is about what the turn found. -/
lemma isLexical_fault {before cs lexeme rest : List Char} {c : Char} {f : Fault}
    (h : scan c cs = .fault f lexeme rest) (hlooks : LooksAt before (c :: cs)) :
    (f.diagnostic (byteLength before) (byteLength before + byteLength lexeme)).IsLexical
      (before ++ c :: cs) := by
  have htext := text_of_fault h
  cases faulty_of_scan h with
  | broken hbody =>
      obtain ⟨⟨decoded, hdec⟩, hend⟩ := decodes_of_broken hbody
      rw [htext] at hlooks ⊢
      refine ⟨rfl, _, _, rfl, rfl, rfl, ?_⟩
      rw [← byteLength_append]
      exact .unterminated (by simp) hlooks hdec hend
  | @badEscape cs lexeme rest hbody =>
      obtain ⟨body, rfl, ⟨decoded, hdec⟩, hnext⟩ := decodes_of_badEscape hbody
      have hsplit : '"' :: cs = '"' :: body ++ '\\' :: rest := by simpa using htext
      have hlength : byteLength before + byteLength ('"' :: (body ++ ['\\'])) =
          byteLength (before ++ '"' :: body) + 1 := by
        rw [← List.cons_append, byteLength_append, byteLength_append, ← Nat.add_assoc]
        rfl
      rw [hsplit] at hlooks ⊢
      refine ⟨rfl, _, _, rfl, rfl, rfl, ?_⟩
      rw [hlength, Nat.add_sub_cancel]
      exact .invalidEscape (by simp) hlooks hdec hnext
  | character c cs =>
      exact ⟨rfl, _, _, rfl, rfl, rfl, .unexpected rfl hlooks (noTokenBegins_of_scan h)⟩

/-- Every fault of a text is marked where the lexer met it. -/
lemma isLexical_lexedFaults {start : ℕ} {before cs : List Char} (hstart : byteLength before = start)
    (hlooks : LooksAt before cs) :
    ∀ d ∈ lexedFaults (lex start cs), d.IsLexical (before ++ cs) := by
  induction start, cs using lex_induction generalizing before with
  | nil start => simp [lex, lexedFaults]
  | token start c cs t lexeme rest hscan ih =>
      rw [lex_of_token hscan, lexedFaults, text_of_scan hscan, ← List.append_assoc]
      exact ih (by rw [byteLength_append, hstart]) (hlooks.token hscan)
  | fault start c cs f lexeme rest hscan ih =>
      subst hstart
      rw [lex_of_fault hscan, lexedFaults, List.forall_mem_cons]
      refine ⟨isLexical_fault hscan hlooks, ?_⟩
      have htext : before ++ c :: cs = before ++ (lexeme ++ rest.take 1) ++ rest.tail := by
        rw [text_of_fault hscan, ← List.drop_one, List.append_assoc before, List.append_assoc,
          List.take_append_drop]
      rw [htext]
      exact ih (by simp only [byteLength_append, Nat.add_assoc]) (hlooks.fault hscan)

/-! ## The order of the labels -/

/-- One label lies wholly before the other. -/
def Label.Precedes (l l' : Label) : Prop :=
  l.span.start < l'.span.start ∧ l.span.stop ≤ l'.span.start

/-- The label of a fault lies within what its turn uses up. -/
lemma span_of_fault {c : Char} {cs lexeme rest : List Char} {f : Fault}
    (h : scan c cs = .fault f lexeme rest) (start : ℕ) :
    ∃ l, (f.diagnostic start (start + byteLength lexeme)).labels = [l] ∧
      start ≤ l.span.start ∧ l.span.start < l.span.stop ∧
      l.span.stop ≤ start + byteLength lexeme + byteLength (rest.take 1) := by
  cases faulty_of_scan h with
  | broken =>
      refine ⟨_, rfl, ?_⟩
      have hquote : Char.utf8Size '"' = 1 := rfl
      simp only [Span.between_of_le (Nat.le_add_right _ _), byteLength_cons]
      omega
  | badEscape hbody =>
      refine ⟨_, rfl, ?_⟩
      have hquote : Char.utf8Size '"' = 1 := rfl
      simp only [Span.between_of_le (Nat.sub_le _ _), byteLength_cons]
      omega
  | character c cs =>
      refine ⟨_, rfl, ?_⟩
      have hpos := c.utf8Size_pos
      simp only [Span.between_of_le (Nat.le_succ _), byteLength_nil, List.take_succ_cons,
        byteLength_cons, List.take_zero]
      omega

lemma le_start_of_mem_lexedFaults {start : ℕ} {cs : List Char} :
    ∀ d ∈ lexedFaults (lex start cs), ∀ l ∈ d.labels, start ≤ l.span.start := by
  induction start, cs using lex_induction with
  | nil start => simp [lex, lexedFaults]
  | token start c cs t lexeme rest hscan ih =>
      rw [lex_of_token hscan, lexedFaults]
      exact fun d hd l hl => (Nat.le_add_right _ _).trans (ih d hd l hl)
  | fault start c cs f lexeme rest hscan ih =>
      obtain ⟨l, hlabels, hstart, -, -⟩ := span_of_fault hscan start
      rw [lex_of_fault hscan, lexedFaults, List.forall_mem_cons, hlabels,
        List.forall_mem_singleton]
      exact ⟨hstart, fun d hd l hl => by have := ih d hd l hl; omega⟩

/-- The labels follow one another, since the turns do. -/
lemma pairwise_precedes (start : ℕ) (cs : List Char) :
    ((lexedFaults (lex start cs)).flatMap (·.labels)).Pairwise Label.Precedes := by
  induction start, cs using lex_induction with
  | nil start => simp [lex, lexedFaults]
  | token start c cs t lexeme rest hscan ih =>
      rw [lex_of_token hscan, lexedFaults]
      exact ih
  | fault start c cs f lexeme rest hscan ih =>
      obtain ⟨l, hlabels, -, hlt, hstop⟩ := span_of_fault hscan start
      rw [lex_of_fault hscan, lexedFaults, List.flatMap_cons, hlabels, List.singleton_append,
        List.pairwise_cons]
      refine ⟨fun l' hl' => ?_, ih⟩
      obtain ⟨d, hd, hl'⟩ := List.mem_flatMap.1 hl'
      have hbehind := le_start_of_mem_lexedFaults d hd l' hl'
      exact ⟨by omega, by omega⟩

/-! ## The diagnostics of a refused source -/

/-- A source without tokens has diagnostics.  Each of them is an error with one label, which is
primary, not empty, inside the source and where its code says; and each label lies wholly before the
next.  Over any source, every turn of the lexer uses up at least one character, so that there are no
more turns than characters. -/
theorem labels_of_faults (source : String) :
    (∀ e, tokensOf source = .error e →
      e.diagnostics ≠ [] ∧
      (∀ d ∈ e.diagnostics, d.severity = .error ∧ ∃ code l, d.code = some code ∧ d.labels = [l] ∧
        l.isPrimary = true ∧ l.span.start < l.span.stop ∧ l.span.stop ≤ source.utf8ByteSize ∧
        Marks source.toList code l.span) ∧
      (e.diagnostics.flatMap (·.labels)).Pairwise Label.Precedes) ∧
    (∀ before c cs, LooksAt before (c :: cs) →
      ∃ item taken rest, taken ≠ [] ∧ c :: cs = taken ++ rest ∧ LooksAt (before ++ taken) rest ∧
        lex (byteLength before) (c :: cs) = item :: lex (byteLength (before ++ taken)) rest) ∧
    (lex 0 source.toList).length ≤ source.length := by
  refine ⟨fun e h => ?_, fun before c cs hlooks => ?_, ?_⟩
  · obtain ⟨hfound, hne⟩ := tokensOf_eq_error_iff.1 h
    refine ⟨hne, fun d hd => ?_, hfound ▸ pairwise_precedes 0 _⟩
    obtain ⟨hseverity, code, l, hcode, hlabels, hprimary, hmarks⟩ :=
      isLexical_lexedFaults rfl (.front source.toList) d (hfound ▸ hd)
    rw [List.nil_append] at hmarks
    rw [← byteLength_toList]
    exact ⟨hseverity, code, l, hcode, hlabels, hprimary, hmarks.inside.1, hmarks.inside.2, hmarks⟩
  · obtain ⟨item, hitem⟩ := lex_cons (byteLength before) c cs
    refine ⟨item, _, _, taken_ne_nil c cs, (taken_append_next c cs).symm, hlooks.turn, ?_⟩
    rw [hitem, byteLength_append]
  · rw [← String.length_toList]
    exact length_lex_le 0 _

/-- All three faults in one line: an unexpected character, a bad escape, another unexpected
character and a literal that the end of the text breaks off. -/
theorem labels_of_faults_allCodes :
    ∃ e, tokensOf "$\"a\\q$\"b" = .error e ∧
      e.diagnostics.map (·.code) = [some .unexpectedCharacter, some .invalidEscape,
        some .unexpectedCharacter, some .unterminatedString] ∧
      (e.diagnostics.flatMap (·.labels)).map (fun l => (l.span.start, l.span.stop)) =
        [(0, 1), (3, 4), (5, 6), (6, 8)] ∧
      (e.diagnostics.flatMap (·.labels)).Pairwise Label.Precedes := by
  have h : tokensOf "$\"a\\q$\"b" = .error ⟨[Fault.diagnostic 0 0 .unexpectedCharacter,
      Fault.diagnostic 1 4 .invalidEscape, Fault.diagnostic 5 5 .unexpectedCharacter,
      Fault.diagnostic 6 8 .unterminatedString]⟩ := by decide +kernel
  exact ⟨_, h, rfl, rfl, ((labels_of_faults _).1 _ h).2.2⟩

/-! ## The label of a bad escape -/

/-- The span covers a backslash and the character behind it, or the backslash alone where the text
ends behind it. -/
def CoversEscape (text : List Char) (s : Span) : Prop :=
  ∃ before behind, text = before ++ '\\' :: behind ∧
    s = .between (byteLength before) (byteLength (before ++ '\\' :: behind.take 1))

/-- A byte cuts a text in one way. -/
lemma eq_of_append_eq {before behind before' behind' : List Char}
    (htext : before ++ behind = before' ++ behind')
    (hlength : byteLength before = byteLength before') : behind = behind' := by
  have hempty (cs : List Char) (h : byteLength cs = 0) : cs = [] := by
    by_contra hne
    exact absurd h (byteLength_pos hne).ne'
  rcases List.append_eq_append_iff.1 htext with ⟨more, rfl, rfl⟩ | ⟨more, rfl, rfl⟩
  · rw [byteLength_append] at hlength
    rw [hempty more (by omega), List.nil_append]
  · rw [byteLength_append] at hlength
    rw [hempty more (by omega), List.nil_append]

/-- A backslash alone is the escape only at the end of the text. -/
lemma coversEscape_iff (before behind : List Char) :
    CoversEscape (before ++ '\\' :: behind) (.between (byteLength before) (byteLength before + 1)) ↔
      behind = [] := by
  constructor
  · rintro ⟨before', behind', htext, hspan⟩
    obtain ⟨-, rfl⟩ := List.cons.inj (eq_of_append_eq htext (congrArg Span.start hspan))
    have hstop := congrArg Span.stop hspan
    cases behind with
    | nil => rfl
    | cons c behind =>
        have hslash : Char.utf8Size '\\' = 1 := rfl
        have hpos := c.utf8Size_pos
        have hstart : byteLength before = byteLength before' := congrArg Span.start hspan
        simp only [Span.between, byteLength_append, byteLength_cons, List.take_succ_cons] at hstop
        omega
  · rintro rfl
    exact ⟨before, [], rfl, by rw [List.take_nil, byteLength_append]; rfl⟩

lemma Marks.backslash {text : List Char} {span : Span} (h : Marks text .invalidEscape span) :
    ∃ before behind, text = before ++ '\\' :: behind ∧
      span = .between (byteLength before) (byteLength before + 1) := by
  cases h with
  | invalidEscape htext => exact ⟨_, _, htext, rfl⟩

/-- The label of a bad escape is its backslash.  That is the whole escape, the backslash and the
character behind it, only where the source ends behind the backslash. -/
theorem label_of_invalidEscape {source : String} {e : Rejection}
    (h : tokensOf source = .error e) :
    ∀ d ∈ e.diagnostics, d.code = some .invalidEscape →
      ∃ l, d.labels = [l] ∧ l.isPrimary = true ∧ l.span.slice source = "\\" ∧
        (CoversEscape source.toList l.span ↔ l.span.stop = source.utf8ByteSize) := by
  intro d hd hescape
  have hfound := (tokensOf_eq_error_iff.1 h).1
  obtain ⟨-, code, l, hcode, hlabels, hprimary, hmarks⟩ :=
    isLexical_lexedFaults rfl (.front source.toList) d (hfound ▸ hd)
  obtain rfl : code = .invalidEscape := Option.some.inj (hcode.symm.trans hescape)
  obtain ⟨before, behind, htext, hspan⟩ := hmarks.backslash
  rw [List.nil_append] at htext
  refine ⟨l, hlabels, hprimary, ?_, ?_⟩
  · have hslice := slice_between before ['\\'] behind
    rw [List.append_assoc, List.singleton_append, ← htext, String.ofList_toList] at hslice
    rw [hspan]
    exact hslice
  · have hstop : l.span.stop = byteLength before + 1 := by
      rw [hspan]
      exact Nat.max_eq_right (Nat.le_succ _)
    have hslash : Char.utf8Size '\\' = 1 := rfl
    rw [hstop, hspan, ← byteLength_toList, htext, coversEscape_iff, byteLength_append,
      byteLength_cons]
    constructor
    · rintro rfl
      rfl
    · intro hsize
      by_contra hne
      have hpos := byteLength_pos hne
      omega

/-- A bad escape in the middle of a line, and a backslash that ends the source. -/
theorem label_of_invalidEscape_twice :
    ∃ e l, tokensOf "\"\\q \"\\" = .error e ∧
      e.diagnostics.flatMap (·.labels) = [l, ⟨.between 5 6, "invalid escape sequence", true⟩] ∧
      ¬ CoversEscape ("\"\\q \"\\").toList l.span ∧
      CoversEscape ("\"\\q \"\\").toList (.between 5 6) := by
  have h : tokensOf "\"\\q \"\\" = .error ⟨[Fault.diagnostic 0 2 .invalidEscape,
      Fault.diagnostic 4 6 .invalidEscape]⟩ := by decide +kernel
  obtain ⟨l, hl, -, -, hcovers⟩ := label_of_invalidEscape h _ List.mem_cons_self rfl
  obtain ⟨l', hl', -, -, hcovers'⟩ :=
    label_of_invalidEscape h _ (List.mem_cons_of_mem _ List.mem_cons_self) rfl
  obtain rfl := List.singleton_inj.1 hl
  obtain rfl := List.singleton_inj.1 hl'
  exact ⟨_, _, h, rfl, fun hcover => absurd (hcovers.1 hcover) (by decide),
    hcovers'.2 (by decide)⟩

/-- The character behind the backslash is left out. -/
theorem invalidEscape_not_always_covered :
    ¬ ∀ source e, tokensOf source = .error e → ∀ d ∈ e.diagnostics,
      d.code = some .invalidEscape → ∃ l, d.labels = [l] ∧ CoversEscape source.toList l.span := by
  intro hall
  have h : tokensOf "\"\\q" = .error ⟨[Fault.diagnostic 0 2 .invalidEscape]⟩ := by
    decide +kernel
  obtain ⟨l, hl, hcovers⟩ := hall _ _ h _ List.mem_cons_self rfl
  obtain rfl := List.singleton_inj.1 hl
  exact List.cons_ne_nil _ _ ((coversEscape_iff ['"'] ['q']).1 hcovers)

end ArchLang
