import ArchLang.Proofs.FormlessLines
import ArchLang.Proofs.Labels
import ArchLang.Proofs.Turns
import Mathlib.Data.Nat.PSub

/-!
# Reading is total

Whatever the tokens are, reading them ends with declarations or with one diagnostic.  There are two
places where it could come to grief.  The loops of the grammar end only because their items use up
tokens.  And the diagnostic of a failure is made from positions, counted back from numbers of tokens
that were left when something happened, each of them noted at another depth of the grammar.

* `slice?`, `Failure.checked?` — the diagnostic by positions, with every subtraction and every
  access checked.
* `checked?_eq` — no check fails: what was left is always a last part of all tokens
  (`suffix_of_failed`, `start_suffix_of_failed`).
* `Span.OfTokens ts span` — the span goes from the start of one token to the end of one.
* `Refuses ts f d` — how the diagnostic `d` of a failure `f` looks.
* **`reading_total`** — loops, and what comes of reading.
-/

namespace ArchLang

open ArchLang.Parser ArchLang.Grammar

/-! ## Diagnostics by positions -/

/-- The tokens from position `a` up to, and without, position `b`, if there are such. -/
def slice? (ts : Tokens) (a b : ℕ) : Option Tokens :=
  if a ≤ b ∧ b ≤ ts.length then some ((ts.take b).drop a) else none

lemma slice?_of_le {ts : Tokens} {a b : ℕ} (hab : a ≤ b) (hb : b ≤ ts.length) :
    slice? ts a b = some ((ts.take b).drop a) := if_pos ⟨hab, hb⟩

/-- The last tokens, from where they begin to the end. -/
lemma slice?_suffix {ts s : Tokens} (h : s <:+ ts) :
    slice? ts (ts.length - s.length) ts.length = some s := by
  rw [slice?_of_le (Nat.sub_le _ _) (Nat.le_refl _), List.take_length,
    ← List.suffix_iff_eq_drop.1 h]

/-- What is examined lies between two positions. -/
lemma slice?_examined {ts start rest : Tokens} (hstart : start <:+ ts) (hrest : rest <:+ ts)
    (hne : rest ≠ []) :
    slice? ts (min (ts.length - start.length) (ts.length - rest.length))
        (ts.length - rest.length + 1) = some (examined start rest) := by
  have hstartlen := hstart.length_le
  have hrestlen := hrest.length_le
  have hpos := List.length_pos_iff.2 hne
  rw [slice?_of_le (by omega) (by omega), List.drop_take, examined]
  by_cases hlt : rest.length < start.length
  · rw [if_pos hlt, Nat.min_eq_left (by omega), ← List.suffix_iff_eq_drop.1 hstart]
    congr 2
    omega
  · rw [if_neg hlt, Nat.min_eq_right (by omega), ← List.suffix_iff_eq_drop.1 hrest]
    congr 2
    omega

namespace Failure

variable {f : Failure} {ts : Tokens}

/-- The diagnostic of incomplete input, with its label. -/
def incompleteOver (f : Failure) (span : Span) : Diagnostic :=
  ((Diagnostic.error ("incomplete input: " ++ expectation f.expected)).setCode .incompleteInput
    |>.addLabel span "incomplete").setHelp "the input ended before this declaration was closed"

/-- The diagnostic of an unexpected token, with its primary label. -/
def unexpectedOver (f : Failure) (span : Span) (found : Located Token) : Diagnostic :=
  let d := ((Diagnostic.error ("unexpected token: " ++ expectation f.expected)).setCode
    .unexpectedToken |>.addLabel span "unexpected token").setHelp
    "check syntax and token positioning"
  if found.span = span then d
  else d.addSecondary found.span ("found `" ++ found.value.display ++ "`")

/-- The diagnostic of a failure by positions: where it stands, and where the construct began that
was committed to.  There is none if a subtraction or an access goes out of range. -/
def checked? (f : Failure) (ts : Tokens) : Option Diagnostic :=
  (ts.length.psub f.rest.length).bind fun stop =>
  (f.start?.elim (some 0) fun start => ts.length.psub start.length).bind fun start =>
  (slice? ts stop ts.length).bind fun behind =>
    if (extent? behind).isNone then
      (slice? ts start ts.length).map fun begun =>
        f.incompleteOver (((extent? begun).or (extent? ts)).getD .origin)
    else
      (slice? ts (if start < stop then start else stop) (stop + 1)).bind fun seen =>
      ts[stop]?.bind fun first =>
        (behind.find? fun t => !t.value.isTrivia).map fun found =>
          f.unexpectedOver ((extent? seen).getD first.span) found

/-- The construct that was committed to, or all tokens, began at a position. -/
lemma psub_start (hstart : ∀ start, f.start? = some start → start <:+ ts) :
    (f.start?.elim (some 0) fun start => ts.length.psub start.length)
      = some (ts.length - (f.start?.getD ts).length) := by
  cases h : f.start? with
  | none => simp
  | some start => exact Nat.psub_eq_sub (hstart start h).length_le

/-- Where what was left is a last part of all tokens, no check fails. -/
lemma checked?_eq (hrest : f.rest <:+ ts)
    (hstart : ∀ start, f.start? = some start → start <:+ ts) :
    f.checked? ts = some (f.diagnostic ts) := by
  have hbegun : f.start?.getD ts <:+ ts := by
    cases h : f.start? with
    | none => exact List.suffix_refl ts
    | some start => exact hstart start h
  rw [checked?, Nat.psub_eq_sub hrest.length_le, psub_start hstart]
  simp only [Option.bind_some, slice?_suffix hrest]
  by_cases hblank : Blank f.rest
  · rw [if_pos (by rw [extent?_of_blank hblank]; rfl), slice?_suffix hbegun,
      diagnostic_of_blank hblank]
    rfl
  · obtain ⟨span, hspan⟩ := extent?_of_not_blank hblank
    have hne : f.rest ≠ [] := fun h => hblank (h ▸ blank_nil)
    obtain ⟨first, hfirst⟩ : ∃ first, f.rest.head? = some first :=
      Option.isSome_iff_exists.1 (List.isSome_head?.2 hne)
    have hat : ts[ts.length - f.rest.length]? = some first := by
      rw [← List.head?_drop, ← List.suffix_iff_eq_drop.1 hrest, hfirst]
    obtain ⟨found, hfound⟩ : ∃ found, (f.rest.find? fun t => !t.value.isTrivia) = some found := by
      rw [← Option.isSome_iff_exists, List.find?_isSome]
      simpa [Blank] using hblank
    rw [if_neg (by rw [hspan]; simp), ← min_def_lt, slice?_examined hbegun hrest hne, hat,
      hfound, diagnostic, hfound]
    simp only [Option.bind_some, Option.map_some, unexpected, unexpectedSpan, hfirst]
    rfl

/-! ## Labels -/

/-- The span of the primary label. -/
def place (f : Failure) (ts : Tokens) : Span :=
  if Blank f.rest then ((extent? (f.start?.getD ts)).or (extent? ts)).getD .origin
  else f.unexpectedSpan ts

/-- There is one primary label, and at most one more that is not. -/
lemma exists_labels (f : Failure) (ts : Tokens) : ∃ message others,
    (f.diagnostic ts).labels = ⟨f.place ts, message, true⟩ :: others ∧ others.length ≤ 1 ∧
      ∀ l ∈ others, l.isPrimary = false := by
  by_cases hblank : Blank f.rest
  · rw [diagnostic_of_blank hblank, place, if_pos hblank]
    exact ⟨_, [], rfl, Nat.zero_le _, nofun⟩
  · obtain ⟨found, hfound⟩ := diagnostic_of_not_blank hblank
    rw [hfound, place, if_neg hblank, unexpected]
    split
    · exact ⟨_, [], rfl, Nat.zero_le _, nofun⟩
    · exact ⟨_, [_], rfl, Nat.le_refl _, List.forall_mem_singleton.2 rfl⟩

end Failure

/-- The span begins with one of the tokens and ends with one of them, and it is not empty. -/
structure Span.OfTokens (ts : Tokens) (span : Span) : Prop where
  start : ∃ t ∈ ts, span.start = t.span.start
  stop : ∃ t ∈ ts, span.stop = t.span.stop
  nonempty : span.start < span.stop

section OfTokens

variable {ts : Tokens}

lemma Span.OfTokens.union {s t : Span} (hs : s.OfTokens ts) (ht : t.OfTokens ts) :
    (s.union t).OfTokens ts where
  start := by
    rw [Span.union_start]
    rcases min_choice s.start t.start with h | h <;> rw [h]
    exacts [hs.start, ht.start]
  stop := by
    rw [Span.union_stop]
    rcases max_choice s.stop t.stop with h | h <;> rw [h]
    exacts [hs.stop, ht.stop]
  nonempty := by
    have hlt := hs.nonempty
    rw [Span.union_start, Span.union_stop]
    omega

variable (hts : ∀ t ∈ ts, t.span.start < t.span.stop)

include hts

lemma ofTokens_of_mem {t : Located Token} (ht : t ∈ ts) : t.span.OfTokens ts :=
  ⟨⟨t, ht, rfl⟩, ⟨t, ht, rfl⟩, hts t ht⟩

lemma ofTokens_extent? {s : Tokens} (hs : s ⊆ ts) {span : Span} (h : extent? s = some span) :
    span.OfTokens ts := by
  obtain ⟨t, ht, t', ht', rfl⟩ := exists_union_of_extent? h
  exact (ofTokens_of_mem hts (hs ht)).union (ofTokens_of_mem hts (hs ht'))

lemma ofTokens_place {f : Failure} (h : declarations ts = .failed f) (hne : ¬ Blank ts) :
    (f.place ts).OfTokens ts := by
  have hstart := started_subset h
  have hrest : f.rest ⊆ ts := (suffix_of_failed h).subset
  unfold Failure.place
  split
  · obtain ⟨span, hspan⟩ := extent?_of_not_blank hne
    cases hbegun : extent? (f.start?.getD ts) with
    | none =>
        rw [Option.none_or, hspan]
        exact ofTokens_extent? hts (List.Subset.refl ts) hspan
    | some span => exact ofTokens_extent? hts hstart hbegun
  next hblank =>
      unfold Failure.unexpectedSpan
      cases hseen : extent? (examined (f.start?.getD ts) f.rest) with
      | some span => exact ofTokens_extent? hts (examined_subset hstart hrest) hseen
      | none =>
          cases hfirst : f.rest with
          | nil => exact absurd (hfirst ▸ blank_nil) hblank
          | cons t rest => exact ofTokens_of_mem hts (hrest (hfirst ▸ List.mem_cons_self))

end OfTokens

/-! ## Refusals -/

/-- Trivia alone are a program without declarations. -/
lemma not_blank_of_failed {ts : Tokens} {f : Failure} (h : declarations ts = .failed f) :
    ¬ Blank ts := by
  intro hblank
  rw [declarations, bind_apply,
    manyUntil_of_stop declaration atEnd (dropWhile_trivia_of_blank hblank) rfl] at h
  cases h

/-- How tokens are refused: where reading failed, and with which diagnostic. -/
structure Refuses (ts : Tokens) (f : Failure) (d : Diagnostic) : Prop where
  /-- reading stopped at one of the tokens, or behind them -/
  rest : f.rest <:+ ts
  /-- no position is out of range -/
  checked : f.checked? ts = some d
  code : d.code = some (if Blank f.rest then .incompleteInput else .unexpectedToken)
  primary : (d.labels.filter (·.isPrimary)).length = 1
  secondary : (d.labels.filter (!·.isPrimary)).length ≤ 1
  /-- the primary label goes from token to token -/
  place : ∀ source, tokensOf source = .ok ts →
    ∀ l ∈ d.labels, l.isPrimary = true → l.span.OfTokens ts

lemma refuses_of_failed {ts : Tokens} {f : Failure} (h : declarations ts = .failed f) :
    Refuses ts f (f.diagnostic ts) := by
  obtain ⟨message, others, hlabels, hlength, hothers⟩ := f.exists_labels ts
  constructor
  · exact suffix_of_failed h
  · exact Failure.checked?_eq (suffix_of_failed h) fun _ => start_suffix_of_failed h
  · split
    next hblank => exact Failure.code_of_blank hblank ts
    next hblank => exact Failure.code_of_not_blank hblank ts
  · have hnone : others.filter (·.isPrimary) = [] :=
      List.filter_eq_nil_iff.2 fun l hl => by simp [hothers l hl]
    rw [hlabels, List.filter_cons_of_pos rfl, hnone]
    rfl
  · rw [hlabels, List.filter_cons_of_neg (by simp)]
    exact (List.length_filter_le _ _).trans hlength
  · intro source hsource l hl hprimary
    rw [hlabels] at hl
    rcases List.mem_cons.1 hl with rfl | hl
    · exact ofTokens_place (inOrder_of_tokensOf hsource).2 h (not_blank_of_failed h)
    · rw [hothers l hl] at hprimary
      cases hprimary

/-- **Reading is total.**  Every loop of the grammar takes at most as many turns as there are
tokens, each of which uses up at least one.  Whatever the tokens are, what comes of them is
declarations, or one diagnostic that looks as it should. -/
theorem reading_total :
    (∀ {α β : Type} {stop : Parser β} {item : Parser α}, Repeats stop item →
      Advances item ∧ ∃ _ : Consumes item, ∀ s, manyUntilWithin Token.isTrivia stop item s.length s
        = some (manyUntil Token.isTrivia stop item s)) ∧
    (∀ {α : Type} {item : Parser α}, Lists item →
      Advances item ∧ ∃ _ : Consumes item, ∀ s,
        manyWithin item s.length s = some (many item s)) ∧
    ∀ ts, (∃ ds, declarationsOfTokens ts = .ok ds) ∨
      ∃ f d, declarations ts = .failed f ∧ declarationsOfTokens ts = .error d ∧
        Refuses ts f d := by
  refine ⟨turns_of_repeats, turns_of_lists, fun ts => ?_⟩
  cases hread : declarations ts with
  | done ds rest => exact .inl ⟨ds, by rw [declarationsOfTokens, hread]⟩
  | failed f =>
      exact .inr ⟨f, _, rfl, by rw [declarationsOfTokens, hread], refuses_of_failed hread⟩

/-- The tokens of `domain Sales` and a line end. -/
def openDomain : Tokens :=
  [⟨.keyword .domain, .between 0 6⟩, ⟨.whitespace, .between 6 7⟩,
    ⟨.identifier "Sales", .between 7 12⟩, ⟨.newline, .between 12 13⟩]

/-- A domain without a body: the label goes over what stands behind its keyword. -/
theorem reading_total_openDomain :
    Repeats atEnd declaration ∧ Advances declaration ∧ Lists lineWord ∧ Advances lineWord ∧
      tokensOf "domain Sales\n" = .ok openDomain ∧
      ∃ f d, declarationsOfTokens openDomain = .error d ∧ Refuses openDomain f d ∧
        d.code = some .incompleteInput ∧ d.labels = [⟨.between 7 12, "incomplete", true⟩] ∧
        (Span.between 7 12).OfTokens openDomain := by
  have htokens : tokensOf "domain Sales\n" = .ok openDomain := by decide +kernel
  have hlook : (declarationsOfTokens openDomain).tryCatch (fun d => .error
      { d with message := "", help := none }) = .error ⟨.error, some .incompleteInput, "",
        [⟨.between 7 12, "incomplete", true⟩], none⟩ := by decide +kernel
  refine ⟨.declarations, (reading_total.1 .declarations).1, .words,
    (reading_total.2.1 .words).1, htokens, ?_⟩
  rcases reading_total.2.2 openDomain with ⟨ds, hread⟩ | ⟨f, d, -, hread, hrefuses⟩
  · rw [hread] at hlook
    cases hlook
  · rw [hread, Except.tryCatch, Except.error.injEq, Diagnostic.mk.injEq] at hlook
    obtain ⟨-, hcode, -, hlabels, -⟩ := hlook
    refine ⟨f, d, hread, hrefuses, hcode, hlabels, ?_⟩
    exact hrefuses.place _ htokens _ (hlabels ▸ List.mem_cons_self) rfl

end ArchLang
