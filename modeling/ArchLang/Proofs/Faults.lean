import ArchLang.Proofs.Lexemes

/-!
# The lexer over a text with faults

`Lexed` is the loop of the lexer over a text without faults.  This file opens the loop for any text,
so that later proofs follow its turns and not its definition.

* `lex_of_token`, `lex_of_fault` — one turn: a token is put down and scanning goes on behind it; a
  fault is put down and costs one more character, if there is one.
* `lex_induction` — what each turn keeps holds of every text.
* `Faulty c cs f lexeme rest` — the faults that can stand at the front of `c :: cs`, with what was
  read up to each of them; `decodes_of_broken` and `decodes_of_badEscape` say what was read of a
  literal by then.
* `tokensOf_eq_error_iff` — a source is refused with all its faults, if it has any.
-/

namespace ArchLang

/-! ## One turn -/

section Turn

variable {c : Char} {cs lexeme rest : List Char}

lemma lex_of_token {t : Token} (h : scan c cs = .token t lexeme rest) (start : ℕ) :
    lex start (c :: cs) = .ok ⟨t, .between start (start + byteLength lexeme)⟩
      :: lex (start + byteLength lexeme) rest := by
  rw [lex]
  simp only [h, Scan.lexeme, Scan.next]

lemma lex_of_fault {f : Fault} (h : scan c cs = .fault f lexeme rest) (start : ℕ) :
    lex start (c :: cs) = .error (f.diagnostic start (start + byteLength lexeme))
      :: lex (start + byteLength lexeme + byteLength (rest.take 1)) rest.tail := by
  rw [lex]
  simp only [h, Scan.lexeme, Scan.next]

lemma text_of_fault {f : Fault} (h : scan c cs = .fault f lexeme rest) :
    c :: cs = lexeme ++ rest := by
  have htext := lexeme_append_rest c cs
  rw [h] at htext
  exact htext.symm

end Turn

/-- What holds of the empty text and is kept by every turn of the lexer holds of all texts. -/
@[elab_as_elim]
theorem lex_induction {P : ℕ → List Char → Prop} (nil : ∀ start, P start [])
    (token : ∀ start c cs t lexeme rest, scan c cs = .token t lexeme rest →
      P (start + byteLength lexeme) rest → P start (c :: cs))
    (fault : ∀ start c cs f lexeme rest, scan c cs = .fault f lexeme rest →
      P (start + byteLength lexeme + byteLength (rest.take 1)) rest.tail → P start (c :: cs)) :
    ∀ start cs, P start cs := by
  intro start cs
  induction hlen : cs.length using Nat.strong_induction_on generalizing start cs with
  | _ k ih =>
      cases cs with
      | nil => exact nil start
      | cons c cs =>
          have hlt := hlen ▸ length_next_lt c cs
          cases hscan : scan c cs with
          | token t lexeme rest =>
              rw [hscan] at hlt
              exact token _ _ _ _ _ _ hscan (ih _ hlt _ _ rfl)
          | fault f lexeme rest =>
              rw [hscan] at hlt
              exact fault _ _ _ _ _ _ hscan (ih _ hlt _ _ rfl)

/-! ## The fault at the front -/

/-- The faults that can stand at the front of a text `c :: cs`, each with the characters read up to
it and those behind. -/
inductive Faulty : Char → List Char → Fault → List Char → List Char → Prop where
  | broken {cs lexeme rest : List Char} : scanBody cs = .broken lexeme rest →
      Faulty '"' cs .unterminatedString ('"' :: lexeme) rest
  | badEscape {cs lexeme rest : List Char} : scanBody cs = .badEscape lexeme rest →
      Faulty '"' cs .invalidEscape ('"' :: lexeme) rest
  | character (c : Char) (cs : List Char) : Faulty c cs .unexpectedCharacter [] (c :: cs)

/-- There are no faulty numbers. -/
lemma numberScan_ne_fault (digits cs : List Char) (f : Fault) (lexeme rest : List Char) :
    numberScan digits cs ≠ .fault f lexeme rest := by
  unfold numberScan
  split <;> simp

lemma faulty_of_scan {c : Char} {cs lexeme rest : List Char} {f : Fault}
    (h : scan c cs = .fault f lexeme rest) : Faulty c cs f lexeme rest := by
  unfold scan at h
  split at h
  · split at h <;> cases h
    exact .character _ _
  split at h
  · next hc =>
    subst hc
    split at h <;> cases h
    · next hbody => exact .broken hbody
    · next hbody => exact .badEscape hbody
  split at h
  · split at h <;> cases h
    exact .character _ _
  split at h
  · cases h
  split at h
  · exact absurd h (numberScan_ne_fault _ _ _ _ _)
  split at h
  · cases h
  split at h
  · cases h
  · split at h <;> cases h
    exact .character _ _

lemma push_eq_broken {b : StringBody} {d : Char} {spelling lexeme rest : List Char} :
    b.push d spelling = .broken lexeme rest ↔ ∃ l, b = .broken l rest ∧ lexeme = spelling ++ l := by
  cases b <;> simp [StringBody.push, and_comm, eq_comm]

/-- One character more in front of what can stand in a literal. -/
lemma exists_decodes_cons {c : Char} {cs body : List Char} (hnil : c = '\\' → cs = [] → False)
    (hcons : ∀ d ds, c = '\\' → cs = d :: ds → False) (hquote : c ≠ '"')
    (hbreak : ¬ (c = '\n' ∨ c = '\r')) (h : ∃ text, Decodes body text) :
    ∃ text, Decodes (c :: body) text := by
  obtain ⟨text, hdec⟩ := h
  have hc := ne_backslash hnil hcons
  exact ⟨c :: text, .plain (by simp_all) hdec⟩

/-- A literal breaks off at a line end or at the end of the text. -/
lemma decodes_of_broken {cs lexeme rest : List Char} (h : scanBody cs = .broken lexeme rest) :
    (∃ text, Decodes lexeme text) ∧ ∀ c ∈ rest.head?, c = '\n' ∨ c = '\r' := by
  fun_induction scanBody cs generalizing lexeme with
  | case1 =>
      cases h
      exact ⟨⟨[], .nil⟩, by simp⟩
  | case2 => cases h
  | case3 c cs d hd ih =>
      obtain ⟨l, hbody, rfl⟩ := push_eq_broken.1 h
      obtain ⟨⟨text, hdec⟩, hend⟩ := ih hbody
      exact ⟨⟨d :: text, .escape (mem_escapes_of_unescape? hd) hdec⟩, hend⟩
  | case4 => cases h
  | case5 => cases h
  | case6 c cs _ _ _ hbreak =>
      cases h
      exact ⟨⟨[], .nil⟩, by simpa using hbreak⟩
  | case7 c cs hnil hcons hquote hbreak ih =>
      obtain ⟨l, hbody, rfl⟩ := push_eq_broken.1 h
      obtain ⟨hdec, hend⟩ := ih hbody
      exact ⟨exists_decodes_cons hnil hcons hquote hbreak hdec, hend⟩

/-- A bad escape is noticed right behind its backslash, before a character that cannot be
escaped. -/
lemma decodes_of_badEscape {cs lexeme rest : List Char}
    (h : scanBody cs = .badEscape lexeme rest) :
    ∃ body, lexeme = body ++ ['\\'] ∧ (∃ text, Decodes body text) ∧
      ∀ c ∈ rest.head?, unescape? c = none := by
  fun_induction scanBody cs generalizing lexeme with
  | case1 => cases h
  | case2 =>
      cases h
      exact ⟨[], rfl, ⟨[], .nil⟩, by simp⟩
  | case3 c cs d hd ih =>
      obtain ⟨l, hbody, rfl⟩ := push_eq_badEscape.1 h
      obtain ⟨body, rfl, ⟨text, hdec⟩, hnext⟩ := ih hbody
      exact ⟨'\\' :: c :: body, rfl, ⟨d :: text, .escape (mem_escapes_of_unescape? hd) hdec⟩, hnext⟩
  | case4 c cs hc =>
      cases h
      exact ⟨[], rfl, ⟨[], .nil⟩, by simpa using hc⟩
  | case5 => cases h
  | case6 => cases h
  | case7 c cs hnil hcons hquote hbreak ih =>
      obtain ⟨l, hbody, rfl⟩ := push_eq_badEscape.1 h
      obtain ⟨body, rfl, hdec, hnext⟩ := ih hbody
      exact ⟨c :: body, rfl, exists_decodes_cons hnil hcons hquote hbreak hdec, hnext⟩

/-! ## Refused sources -/

/-- A source is refused with all its faults, if it has any. -/
theorem tokensOf_eq_error_iff {source : String} {e : Rejection} :
    tokensOf source = .error e ↔
      e.diagnostics = lexedFaults (lex 0 source.toList) ∧ e.diagnostics ≠ [] := by
  have herror := @isError_of_mem_lexedFaults 0 source.toList
  obtain ⟨found⟩ := e
  simp only [tokensOf, Rejection.check]
  cases hfaults : lexedFaults (lex 0 source.toList) with
  | nil => simp +contextual
  | cons d ds =>
      rw [hfaults] at herror
      simp only [List.any_cons, herror d List.mem_cons_self, Bool.true_or, if_true]
      simp +contextual [eq_comm]

end ArchLang
