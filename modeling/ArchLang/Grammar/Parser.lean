import ArchLang.Grammar.Expected
import ArchLang.Span

/-!
# Parsers over token lists

A `Parser` reads from the front of a token list.  It ends with a value and the tokens left over, or
with a `Failure`, which knows the tokens at which reading stopped and what would have fitted there.

A failure is *open* or *committed*.  An open failure of an attempt is forgotten, and the next
possibility is tried at the place where the attempt began.  A committed failure goes through every
attempt untouched.  `Parser.commit` is the point of no return: behind it every failure is committed
and remembers where the innermost committed construct began.

The two loops run over parsers that use up a token whenever they succeed.  That is the class
`Consumes`, and instances of it and of the weaker `Keeps` follow the shape of a parser, so a grammar
written with these combinators ends by construction.

* `Parser.token`, `Parser.skip` read single tokens.
* `Parser.label`, `Parser.commit`, `Parser.reject` shape failures.
* `Parser.optional`, `Parser.orElse`, `Parser.lookahead`, `Parser.many`, `Parser.manyUntil`,
  `Parser.separated` are the ways to attempt something.
-/

namespace ArchLang

/-- The tokens of a text, in order. -/
abbrev Tokens := List (Located Token)

/-- Why reading stopped. -/
structure Failure where
  /-- whether the failure goes through attempts instead of being forgotten -/
  committed : Bool
  /-- what would have fitted, the innermost construct first -/
  expected : List Expected
  /-- the tokens at which reading stopped -/
  rest : Tokens
  /-- the tokens at which the innermost committed construct began -/
  start? : Option Tokens
  deriving DecidableEq, Repr

/-- How reading ended. -/
inductive Outcome (α : Type) where
  | done (value : α) (rest : Tokens)
  | failed (failure : Failure)
  deriving DecidableEq, Repr

/-- Apply a function to the value that was read. -/
def Outcome.map {α β : Type} (f : α → β) : Outcome α → Outcome β
  | done a r => done (f a) r
  | failed e => failed e

/-- A reader of values from the front of a token list. -/
def Parser (α : Type) := Tokens → Outcome α

namespace Parser

variable {α β : Type}

instance : Monad Parser where
  pure a := fun s => .done a s
  bind p f := fun s =>
    match p s with
    | .done a r => f a r
    | .failed e => .failed e

theorem pure_apply (a : α) (s : Tokens) : (pure a : Parser α) s = .done a s := rfl

theorem bind_apply (p : Parser α) (f : α → Parser β) (s : Tokens) :
    (p >>= f) s = match p s with
      | .done a r => f a r
      | .failed e => .failed e := rfl

/-! ## Single tokens -/

/-- Read one token that `accept` has a value for.  The failure stays at the token. -/
def token (accept : Token → Option α) : Parser (Located α)
  | [] => .failed ⟨false, [], [], none⟩
  | t :: rest =>
    match accept t.value with
    | some a => .done ⟨a, t.span⟩ rest
    | none => .failed ⟨false, [], t :: rest, none⟩

/-- Pass over tokens of a kind, as many as there are. -/
def skip (kind : Token → Bool) : Parser Unit :=
  fun s => .done () (s.dropWhile fun t => kind t.value)

/-- The tokens at hand, none of them read. -/
def here : Parser Tokens := fun s => .done s s

/-- Succeeds at the end of the tokens. -/
def atEnd : Parser Unit
  | [] => .done () []
  | t :: rest => .failed ⟨false, [], t :: rest, none⟩

/-! ## Failures -/

/-- Name what is being read, for the message of a failure. -/
def label (what : Expected) (p : Parser α) : Parser α := fun s =>
  match p s with
  | .done a r => .done a r
  | .failed e => .failed { e with expected := e.expected ++ [what] }

/-- Every failure of `p` is committed.  It remembers the innermost place that was committed to. -/
def commit (p : Parser α) : Parser α := fun s =>
  match p s with
  | .done a r => .done a r
  | .failed e => .failed { e with committed := true, start? := e.start?.or (some s) }

/-- Reject, with a committed failure, what was read since `start`. -/
def reject (start : Tokens) (what : Expected) : Parser α := fun s =>
  .failed ⟨true, [what], s, some start⟩

/-! ## Attempts -/

/-- Try `p`; an open failure gives `none` and leaves the tokens as they were. -/
def optional (p : Parser α) : Parser (Option α) := fun s =>
  match p s with
  | .done a r => .done (some a) r
  | .failed e => if e.committed then .failed e else .done none s

/-- Try `p`, and `q` in its place after an open failure.  When both fail the second failure counts,
at the place where the attempt began. -/
def orElse (p q : Parser α) : Parser α := fun s =>
  match p s with
  | .done a r => .done a r
  | .failed e =>
    if e.committed then .failed e
    else
      match q s with
      | .done a r => .done a r
      | .failed e' => if e'.committed then .failed e' else .failed { e' with rest := s }

/-- Read ahead: succeed or fail as `p` does, and use nothing up. -/
def lookahead (p : Parser α) : Parser α := fun s =>
  match p s with
  | .done a _ => .done a s
  | .failed e => if e.committed then .failed e else .failed { e with rest := s }

/-! ## Progress -/

/-- A parser that gives back no more tokens than it got. -/
class Keeps (p : Parser α) : Prop where
  le : ∀ {s : Tokens} {a : α} {r : Tokens}, p s = .done a r → r.length ≤ s.length

/-- A parser that uses up a token whenever it succeeds. -/
class Consumes (p : Parser α) : Prop where
  lt : ∀ {s : Tokens} {a : α} {r : Tokens}, p s = .done a r → r.length < s.length

instance (priority := low) keeps_of_consumes (p : Parser α) [Consumes p] : Keeps p :=
  ⟨fun h => Nat.le_of_lt (Consumes.lt h)⟩

instance keeps_pure (a : α) : Keeps (pure a : Parser α) :=
  ⟨fun h => by cases h; exact Nat.le_refl _⟩

instance keeps_bind (p : Parser α) (f : α → Parser β) [Keeps p] [∀ a, Keeps (f a)] :
    Keeps (p >>= f) := by
  refine ⟨fun {s b r} h => ?_⟩
  rw [bind_apply] at h
  split at h
  · next a r' hp => exact Nat.le_trans (Keeps.le h) (Keeps.le hp)
  · cases h

instance (priority := low) consumes_bind_right (p : Parser α) (f : α → Parser β) [Keeps p]
    [∀ a, Consumes (f a)] : Consumes (p >>= f) := by
  refine ⟨fun {s b r} h => ?_⟩
  rw [bind_apply] at h
  split at h
  · next a r' hp => exact Nat.lt_of_lt_of_le (Consumes.lt h) (Keeps.le hp)
  · cases h

instance consumes_bind_left (p : Parser α) (f : α → Parser β) [Consumes p] [∀ a, Keeps (f a)] :
    Consumes (p >>= f) := by
  refine ⟨fun {s b r} h => ?_⟩
  rw [bind_apply] at h
  split at h
  · next a r' hp => exact Nat.lt_of_le_of_lt (Keeps.le h) (Consumes.lt hp)
  · cases h

instance consumes_token (accept : Token → Option α) : Consumes (token accept) := by
  refine ⟨fun {s a r} h => ?_⟩
  cases s with
  | nil => cases h
  | cons t rest =>
    simp only [token] at h
    split at h <;> cases h
    exact Nat.lt_succ_self _

instance keeps_skip (kind : Token → Bool) : Keeps (skip kind) := by
  refine ⟨fun {s a r} h => ?_⟩
  cases h
  exact (List.dropWhile_sublist _).length_le

instance keeps_here : Keeps here :=
  ⟨fun h => by cases h; exact Nat.le_refl _⟩

instance keeps_atEnd : Keeps atEnd := by
  refine ⟨fun {s a r} h => ?_⟩
  cases s <;> cases h
  exact Nat.le_refl _

instance consumes_reject (start : Tokens) (what : Expected) :
    Consumes (reject start what : Parser α) :=
  ⟨fun h => by cases h⟩

theorem label_done {what : Expected} {p : Parser α} {s r : Tokens} {a : α} :
    label what p s = .done a r ↔ p s = .done a r := by
  unfold label; split <;> simp_all

theorem commit_done {p : Parser α} {s r : Tokens} {a : α} :
    commit p s = .done a r ↔ p s = .done a r := by
  unfold commit; split <;> simp_all

instance keeps_label (what : Expected) (p : Parser α) [Keeps p] : Keeps (label what p) :=
  ⟨fun h => Keeps.le (label_done.1 h)⟩

instance consumes_label (what : Expected) (p : Parser α) [Consumes p] : Consumes (label what p) :=
  ⟨fun h => Consumes.lt (label_done.1 h)⟩

instance keeps_commit (p : Parser α) [Keeps p] : Keeps (commit p) :=
  ⟨fun h => Keeps.le (commit_done.1 h)⟩

instance consumes_commit (p : Parser α) [Consumes p] : Consumes (commit p) :=
  ⟨fun h => Consumes.lt (commit_done.1 h)⟩

instance keeps_optional (p : Parser α) [Keeps p] : Keeps (optional p) := by
  refine ⟨fun {s a r} h => ?_⟩
  unfold optional at h
  split at h
  · next hp => cases h; exact Keeps.le hp
  · split at h <;> cases h
    exact Nat.le_refl _

instance keeps_orElse (p q : Parser α) [Keeps p] [Keeps q] : Keeps (orElse p q) := by
  refine ⟨fun {s a r} h => ?_⟩
  unfold orElse at h
  split at h
  · next hp => cases h; exact Keeps.le hp
  · split at h
    · cases h
    · split at h
      · next hq => cases h; exact Keeps.le hq
      · split at h <;> cases h

instance keeps_lookahead (p : Parser α) : Keeps (lookahead p) := by
  refine ⟨fun {s a r} h => ?_⟩
  unfold lookahead at h
  split at h
  · cases h; exact Nat.le_refl _
  · split at h <;> cases h

/-! ## Loops -/

/-- Read items until an attempt fails openly; the tokens of that attempt are left. -/
def many (item : Parser α) [Consumes item] : Parser (List α) := fun s =>
  match _h : item s with
  | .failed e => if e.committed then .failed e else .done [] s
  | .done a r => (many item r).map (a :: ·)
termination_by s => s.length
decreasing_by exact Consumes.lt _h

/-- Read items, each behind the tokens that `skip between` passes over, until `stop` succeeds
there.  An open failure of `stop` is forgotten. -/
def manyUntil (between : Token → Bool) (stop : Parser β) (item : Parser α) [Consumes item] :
    Parser (List α × β) := fun s =>
  match stop (s.dropWhile fun t => between t.value) with
  | .done b r => .done ([], b) r
  | .failed e =>
    if e.committed then .failed e
    else
      match _h : item (s.dropWhile fun t => between t.value) with
      | .failed e' => .failed e'
      | .done a r => (manyUntil between stop item r).map fun found => (a :: found.1, found.2)
termination_by s => s.length
decreasing_by exact Nat.lt_of_lt_of_le (Consumes.lt _h) (List.dropWhile_sublist _).length_le

theorem keeps_many_le (item : Parser α) [Consumes item] {s r : Tokens} {as : List α}
    (h : many item s = .done as r) : r.length ≤ s.length := by
  fun_induction many item s generalizing as r with
  | case1 => cases h
  | case2 => cases h; exact Nat.le_refl _
  | case3 s a r' hp ih =>
    cases hm : many item r' with
    | done as' r'' =>
      rw [hm] at h
      cases h
      exact Nat.le_trans (ih hm) (Nat.le_of_lt (Consumes.lt hp))
    | failed e => rw [hm] at h; cases h

instance keeps_many (item : Parser α) [Consumes item] : Keeps (many item) :=
  ⟨keeps_many_le item⟩

theorem keeps_manyUntil_le (between : Token → Bool) (stop : Parser β) (item : Parser α)
    [Keeps stop] [Consumes item] {s r : Tokens} {found : List α × β}
    (h : manyUntil between stop item s = .done found r) : r.length ≤ s.length := by
  fun_induction manyUntil between stop item s generalizing found r with
  | case1 s b r' hs =>
    cases h
    exact Nat.le_trans (Keeps.le hs) (List.dropWhile_sublist _).length_le
  | case2 => cases h
  | case3 => cases h
  | case4 s e hs hc a r' hi ih =>
    cases hm : manyUntil between stop item r' with
    | done found' r'' =>
      rw [hm] at h
      cases h
      exact Nat.le_trans (ih hm)
        (Nat.le_trans (Nat.le_of_lt (Consumes.lt hi)) (List.dropWhile_sublist _).length_le)
    | failed e => rw [hm] at h; cases h

instance keeps_manyUntil (between : Token → Bool) (stop : Parser β) (item : Parser α)
    [Keeps stop] [Consumes item] :
    Keeps (manyUntil between stop item) :=
  ⟨keeps_manyUntil_le between stop item⟩

/-- At least one item, with a separator between any two.  A separator that no item follows is
left. -/
def separated (item : Parser α) (separator : Parser β) [Consumes item] [Keeps separator] :
    Parser (List α) := do
  let first ← item
  let others ← many (separator >>= fun _ => item)
  pure (first :: others)

instance consumes_separated (item : Parser α) (separator : Parser β) [Consumes item]
    [Keeps separator] : Consumes (separated item separator) := by
  unfold separated; infer_instance

end Parser

end ArchLang
