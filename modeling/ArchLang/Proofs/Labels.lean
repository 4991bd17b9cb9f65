import ArchLang.Assembly.Program
import ArchLang.Proofs.Faults
import ArchLang.Proofs.Recalling

/-!
# Labels lie on the source

A label marks a part of the source, and whoever shows it cuts that part out.  So both of its ends
have to stand between two characters; it is not enough that they are numbers up to the length of
the text.  They come from several places.  Tokens begin and end between characters, and so does
what is made of their spans by unions.  The label of a broken string begins with the string and
stops where reading did.  The label of an unexpected character stops one byte behind its front,
and that is inside the character if it is wide.

* `Boundary text n`, `OnBoundaries text s` — the offset `n`, both ends of the span `s`, stand
  between two characters (`isValid_iff_boundary`).
* `Diagnostic.Fits text d` — all labels of `d` start at a boundary and stop inside the text, at a
  boundary unless they mark a wide character that was not expected.
* `fits_lexedFaults` — the faults of the lexer fit, by induction on its turns.
* `fits_failure` — a failure of the grammar fits: its spans are of tokens, or of none.
* **`labels_on_source`** — the labels of a source that is refused.
* **`labels_not_always_on_source`** — a label that stops inside a character.
-/

namespace ArchLang

open ArchLang.Parser ArchLang.Grammar

/-! ## Between two characters -/

/-- The byte offset of an end of the text or of a place between two of its characters. -/
def Boundary (text : List Char) (n : ℕ) : Prop :=
  ∃ before behind, text = before ++ behind ∧ n = byteLength before

/-- The byte offset of a character that takes more than one byte. -/
def WideAt (text : List Char) (n : ℕ) : Prop :=
  ∃ before c behind, text = before ++ c :: behind ∧ n = byteLength before ∧ 1 < c.utf8Size

/-- The boundaries are what the core library calls valid positions. -/
lemma isValid_iff_boundary {source : String} {n : ℕ} :
    String.Pos.Raw.IsValid source ⟨n⟩ ↔ Boundary source.toList n := by
  rw [String.Pos.Raw.isValid_iff_exists_append]
  constructor
  · rintro ⟨before, behind, rfl, hn⟩
    refine ⟨before.toList, behind.toList, String.toList_append, ?_⟩
    rw [byteLength_toList]
    exact congrArg String.Pos.Raw.byteIdx hn
  · rintro ⟨before, behind, htext, rfl⟩
    refine ⟨String.ofList before, String.ofList behind, ?_, ?_⟩
    · rw [← String.toList_inj, htext]
      simp
    · rw [← utf8Len_eq_byteLength, ← String.utf8ByteSize_ofList]
      rfl

section Boundaries

variable {text : List Char}

lemma Boundary.le {n : ℕ} (h : Boundary text n) : n ≤ byteLength text := by
  obtain ⟨before, behind, rfl, rfl⟩ := h
  rw [byteLength_append]
  omega

lemma boundary_zero : Boundary text 0 := ⟨[], text, rfl, rfl⟩

lemma boundary_append (before behind : List Char) :
    Boundary (before ++ behind) (byteLength before) :=
  ⟨before, behind, rfl, rfl⟩

/-- There is no boundary inside a character. -/
lemma not_boundary_inside {before behind : List Char} {c : Char} {n : ℕ}
    (hlo : byteLength before < n) (hhi : n < byteLength before + c.utf8Size) :
    ¬ Boundary (before ++ c :: behind) n := by
  rintro ⟨before', behind', htext, rfl⟩
  rcases List.append_eq_append_iff.1 htext with ⟨more, rfl, hmore⟩ | ⟨more, rfl, -⟩
  · cases more with
    | nil => simp at hlo
    | cons d more =>
        obtain ⟨rfl, -⟩ := List.cons.inj hmore
        rw [byteLength_append, byteLength_cons] at hhi
        omega
  · rw [byteLength_append] at hlo
    omega

/-- One byte behind the front of a character is a boundary unless the character is wide. -/
lemma boundary_succ_iff (before behind : List Char) (c : Char) :
    Boundary (before ++ c :: behind) (byteLength before + 1) ↔
      ¬ WideAt (before ++ c :: behind) (byteLength before) := by
  have hpos := c.utf8Size_pos
  constructor
  · rintro hbound ⟨before', c', behind', htext, hsize, hwide⟩
    rw [htext, hsize] at hbound
    exact not_boundary_inside (Nat.lt_succ_self _) (by omega) hbound
  · intro hnarrow
    have hone : c.utf8Size = 1 := by
      by_contra hne
      exact hnarrow ⟨before, c, behind, rfl, rfl, by omega⟩
    refine ⟨before ++ [c], behind, by simp, ?_⟩
    rw [byteLength_append, byteLength_cons, hone]
    rfl

end Boundaries

/-! ## Spans from boundary to boundary -/

/-- The span begins and ends at a boundary. -/
def OnBoundaries (text : List Char) (s : Span) : Prop :=
  Boundary text s.start ∧ Boundary text s.stop

section OnBoundaries

variable {text : List Char}

lemma onBoundaries_origin : OnBoundaries text .origin := ⟨boundary_zero, boundary_zero⟩

lemma onBoundaries_between {a b : ℕ} (ha : Boundary text a) (hb : Boundary text b) :
    OnBoundaries text (.between a b) := by
  refine ⟨ha, ?_⟩
  rcases Nat.le_total a b with h | h
  · simpa [Span.between, Nat.max_eq_right h] using hb
  · simpa [Span.between, Nat.max_eq_left h] using ha

lemma OnBoundaries.union {s t : Span} (hs : OnBoundaries text s) (ht : OnBoundaries text t) :
    OnBoundaries text (s.union t) := by
  constructor
  · rw [Span.union_start]
    rcases Nat.le_total s.start t.start with h | h
    · rw [Nat.min_eq_left h]
      exact hs.1
    · rw [Nat.min_eq_right h]
      exact ht.1
  · rw [Span.union_stop]
    rcases Nat.le_total s.stop t.stop with h | h
    · rw [Nat.max_eq_right h]
      exact ht.2
    · rw [Nat.max_eq_left h]
      exact hs.2

end OnBoundaries

lemma Lexed.onBoundaries {before cs : List Char} {ts : List (Located Token)}
    (h : Lexed (byteLength before) cs ts) : ∀ t ∈ ts, OnBoundaries (before ++ cs) t.span := by
  generalize hoffset : byteLength before = offset at h
  induction h generalizing before with
  | nil offset => simp
  | @cons offset c cs lexeme rest t ts hscan _ ih =>
      subst hoffset
      have htext : before ++ c :: cs = before ++ lexeme ++ rest := by
        rw [List.append_assoc, text_of_scan hscan]
      rw [List.forall_mem_cons]
      constructor
      · refine onBoundaries_between (boundary_append before _) ?_
        rw [htext, ← byteLength_append]
        exact boundary_append (before ++ lexeme) rest
      · rw [htext]
        exact ih (byteLength_append before lexeme)

/-! ## Labels of faults -/

/-- The label starts at a boundary and stops inside the text: at a boundary too, unless it marks an
unexpected character that is wide. -/
structure Label.Fits (text : List Char) (code : Option DiagnosticCode) (l : Label) : Prop where
  start : Boundary text l.span.start
  stop_le : l.span.stop ≤ byteLength text
  stop_iff : Boundary text l.span.stop ↔
    ¬ (code = some .unexpectedCharacter ∧ WideAt text l.span.start)

/-- All labels of the diagnostic fit. -/
def Diagnostic.Fits (text : List Char) (d : Diagnostic) : Prop := ∀ l ∈ d.labels, l.Fits text d.code

lemma fits_of_onBoundaries {text : List Char} {code : Option DiagnosticCode} {l : Label}
    (hcode : code ≠ some .unexpectedCharacter) (h : OnBoundaries text l.span) : l.Fits text code :=
  ⟨h.1, h.2.le, iff_of_true h.2 fun hwide => hcode hwide.1⟩

lemma fits_fault {before cs lexeme rest : List Char} {c : Char} {f : Fault}
    (h : scan c cs = .fault f lexeme rest) :
    (f.diagnostic (byteLength before) (byteLength before + byteLength lexeme)).Fits
      (before ++ c :: cs) := by
  have htext : before ++ c :: cs = before ++ lexeme ++ rest := by
    rw [List.append_assoc, text_of_fault h]
  have hread : Boundary (before ++ c :: cs) (byteLength before + byteLength lexeme) := by
    rw [htext, ← byteLength_append]
    exact boundary_append (before ++ lexeme) rest
  cases faulty_of_scan h with
  | broken hbody =>
      refine List.forall_mem_singleton.2 (fits_of_onBoundaries nofun ?_)
      exact onBoundaries_between (boundary_append before _) hread
  | @badEscape cs lexeme rest hbody =>
      obtain ⟨l, rfl, -⟩ := decodes_of_badEscape hbody
      have hback : Boundary (before ++ '"' :: cs)
          (byteLength before + byteLength ('"' :: (l ++ ['\\'])) - 1) := by
        refine ⟨before ++ '"' :: l, '\\' :: rest, by rw [htext]; simp, ?_⟩
        have hslash : byteLength ['\\'] = 1 := rfl
        simp only [byteLength_append, byteLength_cons] at hslash ⊢
        omega
      exact List.forall_mem_singleton.2 (fits_of_onBoundaries nofun
        (onBoundaries_between hback hread))
  | character c cs =>
      have hsucc := boundary_succ_iff before cs c
      have hpos := c.utf8Size_pos
      refine List.forall_mem_singleton.2 ⟨boundary_append before _, ?_, ?_⟩
      · simp only [Span.between_of_le (Nat.le_succ _), byteLength_nil, byteLength_append,
          byteLength_cons]
        omega
      · simp only [Span.between_of_le (Nat.le_succ _), byteLength_nil, Nat.add_zero]
        exact hsucc.trans (not_congr (and_iff_right rfl).symm)

lemma fits_lexedFaults {start : ℕ} {before cs : List Char} (hstart : byteLength before = start) :
    ∀ d ∈ lexedFaults (lex start cs), d.Fits (before ++ cs) := by
  induction start, cs using lex_induction generalizing before with
  | nil start => simp [lex, lexedFaults]
  | token start c cs t lexeme rest hscan ih =>
      rw [lex_of_token hscan, lexedFaults, text_of_scan hscan, ← List.append_assoc]
      exact ih (by rw [byteLength_append, hstart])
  | fault start c cs f lexeme rest hscan ih =>
      subst hstart
      rw [lex_of_fault hscan, lexedFaults, List.forall_mem_cons]
      refine ⟨fits_fault hscan, ?_⟩
      have htext : before ++ c :: cs = before ++ lexeme ++ rest.take 1 ++ rest.tail := by
        rw [text_of_fault hscan, List.append_assoc (before ++ lexeme), ← List.drop_one,
          List.take_append_drop, List.append_assoc]
      rw [htext]
      exact ih (by simp only [byteLength_append])

/-! ## Labels of failures -/

/-- The tokens from which the labels of a failure are made are tokens of the program. -/
lemma started_subset {ts : Tokens} {f : Failure} (h : declarations ts = .failed f) :
    f.start?.getD ts ⊆ ts := by
  cases hstart : f.start? with
  | none => exact List.Subset.refl ts
  | some start => exact (start_suffix_of_failed h hstart).subset

lemma examined_subset {start rest ts : Tokens} (hstart : start ⊆ ts) (hrest : rest ⊆ ts) :
    examined start rest ⊆ ts := by
  unfold examined
  split
  · exact List.Subset.trans (List.take_subset _ _) hstart
  · exact List.Subset.trans (List.take_subset _ _) hrest

section Failures

variable {text : List Char} {ts : Tokens} (hts : ∀ t ∈ ts, OnBoundaries text t.span)

include hts

lemma extent?_onBoundaries {s : Tokens} (hs : s ⊆ ts) {span : Span} (h : extent? s = some span) :
    OnBoundaries text span := by
  obtain ⟨t, ht, t', ht', rfl⟩ := exists_union_of_extent? h
  exact (hts t (hs ht)).union (hts t' (hs ht'))

/-- The one label of incomplete input covers tokens, if there are any. -/
lemma fits_incomplete {f : Failure} (hstart : f.start?.getD ts ⊆ ts) :
    (f.incomplete ts).Fits text := by
  refine List.forall_mem_singleton.2 (fits_of_onBoundaries nofun ?_)
  cases hextent : (extent? (f.start?.getD ts)).or (extent? ts) with
  | none => exact onBoundaries_origin
  | some span =>
      rcases Option.or_eq_some_iff.1 hextent with h | ⟨-, h⟩
      · exact extent?_onBoundaries hts hstart h
      · exact extent?_onBoundaries hts (List.Subset.refl ts) h

lemma unexpectedSpan_onBoundaries {f : Failure} (hstart : f.start?.getD ts ⊆ ts)
    (hrest : f.rest ⊆ ts) : OnBoundaries text (f.unexpectedSpan ts) := by
  unfold Failure.unexpectedSpan
  cases hextent : extent? (examined (f.start?.getD ts) f.rest) with
  | some span => exact extent?_onBoundaries hts (examined_subset hstart hrest) hextent
  | none =>
      cases hfirst : f.rest with
      | nil => exact onBoundaries_origin
      | cons t rest => exact hts t (hrest (hfirst ▸ List.mem_cons_self))

/-- The labels at an unexpected token cover tokens up to that token, and the token. -/
lemma fits_unexpected {f : Failure} (hstart : f.start?.getD ts ⊆ ts) (hrest : f.rest ⊆ ts)
    {found : Located Token} (hfound : found ∈ ts) : (f.unexpected ts found).Fits text := by
  have hspan := unexpectedSpan_onBoundaries hts hstart hrest
  unfold Failure.unexpected
  dsimp only
  split
  · exact List.forall_mem_singleton.2 (fits_of_onBoundaries nofun hspan)
  · refine List.forall_mem_cons.2 ⟨fits_of_onBoundaries nofun hspan, ?_⟩
    exact List.forall_mem_singleton.2 (fits_of_onBoundaries nofun (hts found hfound))

lemma fits_failure {f : Failure} (h : declarations ts = .failed f) :
    (f.diagnostic ts).Fits text := by
  have hstart := started_subset h
  have hrest : f.rest ⊆ ts := (suffix_of_failed h).subset
  unfold Failure.diagnostic
  split
  next => exact fits_incomplete hts hstart
  next found hfound =>
      exact fits_unexpected hts hstart hrest (hrest (List.mem_of_find?_eq_some hfound))

end Failures

/-- Whatever refuses a source, lexer or grammar, its labels fit. -/
lemma fits_of_declarationsOf {source : String} {e : Rejection}
    (h : declarationsOf source = .error e) : ∀ d ∈ e.diagnostics, d.Fits source.toList := by
  unfold declarationsOf at h
  cases hlex : tokensOf source with
  | error e' =>
      rw [hlex] at h
      cases h
      rw [(tokensOf_eq_error_iff.1 hlex).1]
      exact @fits_lexedFaults 0 [] _ rfl
  | ok ts =>
      have hlexed : Lexed (byteLength []) source.toList ts := tokensOf_eq_ok_iff.1 hlex
      have hts := hlexed.onBoundaries
      rw [List.nil_append] at hts
      rw [hlex] at h
      unfold declarationsOfTokens at h
      cases hread : declarations ts with
      | done found rest => simp only [hread] at h; cases h
      | failed f =>
          simp only [hread] at h
          cases h
          exact List.forall_mem_singleton.2 (fits_failure hts hread)

/-- The labels of a source that is refused can be cut out of it, but for those of an unexpected
character that is wide: they stop behind its first byte. -/
theorem labels_on_source {policies : Policies} {source : String} {e : Rejection}
    (h : Model.ofSource policies source = .error e) :
    ∀ d ∈ e.diagnostics, ∀ l ∈ d.labels,
      l.span.start ≤ l.span.stop ∧ l.span.stop ≤ source.utf8ByteSize ∧
      String.Pos.Raw.IsValid source ⟨l.span.start⟩ ∧
      (String.Pos.Raw.IsValid source ⟨l.span.stop⟩ ↔
        ¬ (d.code = some .unexpectedCharacter ∧ WideAt source.toList l.span.start)) := by
  intro d hd l hl
  have hrefused : declarationsOf source = .error e := by
    unfold Model.ofSource at h
    cases hread : declarationsOf source with
    | error e' => rw [hread] at h; cases h; rfl
    | ok found => rw [hread] at h; cases h
  have hfits := fits_of_declarationsOf hrefused d hd l hl
  rw [isValid_iff_boundary, isValid_iff_boundary, ← byteLength_toList]
  exact ⟨l.span.start_le_stop, hfits.stop_le, hfits.start, hfits.stop_iff⟩

/-- Two labels behind a name with wide characters. -/
theorem labels_on_source_wideName :
    ∃ e, Model.ofSource {} "domain \"Größe\" x" = .error e ∧
      (e.diagnostics.flatMap (·.labels)).map (fun l => (l.span.start, l.span.stop)) =
        [(7, 18), (17, 18)] ∧
      ∀ d ∈ e.diagnostics, ∀ l ∈ d.labels,
        String.Pos.Raw.IsValid "domain \"Größe\" x" ⟨l.span.start⟩ ∧
        String.Pos.Raw.IsValid "domain \"Größe\" x" ⟨l.span.stop⟩ := by
  cases h : Model.ofSource {} "domain \"Größe\" x" with
  | ok m =>
      have hrefused : (Model.ofSource {} "domain \"Größe\" x").isOk = false := by decide +kernel
      rw [h] at hrefused
      cases hrefused
  | error e =>
      have hfound : ((Model.ofSource {} "domain \"Größe\" x").map fun _ => ([], [])).tryCatch
            (fun e => .ok (e.diagnostics.map (·.code),
              (e.diagnostics.flatMap (·.labels)).map fun l => (l.span.start, l.span.stop))) =
          .ok ([some .unexpectedToken], [(7, 18), (17, 18)]) := by decide +kernel
      rw [h, Except.map, Except.tryCatch, Except.ok.injEq, Prod.mk.injEq] at hfound
      refine ⟨e, rfl, hfound.2, fun d hd l hl => ?_⟩
      have hcode : d.code = some .unexpectedToken :=
        List.mem_singleton.1 (hfound.1 ▸ List.mem_map_of_mem hd)
      obtain ⟨-, -, hstart, hstop⟩ := labels_on_source h d hd l hl
      exact ⟨hstart, hstop.2 fun hwide => by rw [hcode] at hwide; cases hwide.1⟩

/-- The label of a lone wide character stops inside it. -/
theorem labels_not_always_on_source :
    ¬ ∀ policies source e, Model.ofSource policies source = .error e →
      ∀ d ∈ e.diagnostics, ∀ l ∈ d.labels,
        l.span.start ≤ l.span.stop ∧ l.span.stop ≤ source.utf8ByteSize ∧
        String.Pos.Raw.IsValid source ⟨l.span.start⟩ ∧
        String.Pos.Raw.IsValid source ⟨l.span.stop⟩ := by
  intro h
  have hrefused : Model.ofSource {} "é" =
      .error ⟨[Fault.diagnostic 0 0 .unexpectedCharacter]⟩ := by decide +kernel
  have hstop := (h {} "é" _ hrefused _ List.mem_cons_self _ List.mem_cons_self).2.2.2
  exact absurd hstop (by decide)

end ArchLang
