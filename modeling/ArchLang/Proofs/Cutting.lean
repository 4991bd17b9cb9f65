import ArchLang.Proofs.Reading

/-!
# Cutting tokens short

A parser gets the tokens `s`, and then `s ++ t`.  Either it does the same both times but for the
tokens that it leaves, or it came to the end of `s` the first time.  What it does at the end of `s`
is the subject of this file: when it succeeds it leaves nothing that counts, and when it fails it
leaves something exactly if `s` is *severed*, that is, if it breaks off behind a separator from
which the parser goes back because no item follows.

* `Pending.step`, `severed` — an automaton that knows what is begun at a place, and whether
  anything is.  Parentheses and brackets matter, since a comma has to be followed by an item there
  and need not be elsewhere.
* `Ends n D s o`, `AtCut n s o` — what is known of an outcome at the end of the tokens.
* `Cut n t p p'` — the dichotomy.  The class has two parsers, since a parser may know a place in the
  tokens, and that place moves when tokens are added.
* `Peeks`, `Firm`, `Takes`, `Commits` — what an attempt, a lookahead and an alternative need so that
  the dichotomy goes through them.  An attempt that fails for want of tokens must have got nothing
  but trivia, or it would be forgotten together with tokens that count.

Every combinator has its instance, but those for loops do not serve for lists with a separator.  An
attempt at a separator and an item can fail with the separator read, which `Peeks` rules out, and
`Proofs.Truncation` treats these lists one by one.
-/

namespace ArchLang

open ArchLang.Parser ArchLang.Grammar

variable {α β : Type}

/-! ## Where a token list breaks off -/

/-- What a place of a token list is enclosed by. -/
inductive Enclosure where
  /-- neither parentheses nor brackets -/
  | outside
  /-- the parentheses around the rules of a deployment -/
  | rules
  /-- the brackets around the modifiers of a node -/
  | modifiers
  deriving DecidableEq, Repr

/-- What has been begun at a place and has to go on. -/
inductive Lead where
  | nothing
  /-- a separator, so another item has to follow -/
  | separator
  /-- a separator and the percentage of the next rule -/
  | percentage
  /-- a separator, the percentage of the next rule and its arrow -/
  | arrow
  deriving DecidableEq, Repr

/-- What is pending at a place of a token list. -/
structure Pending where
  enclosure : Enclosure
  lead : Lead
  deriving DecidableEq, Repr

/-- What is begun behind one more token.  Outside only a chain has to go on behind its separator; a
list of rules does so behind a comma and a list of modifiers behind a comma or a colon. -/
def Enclosure.leadAfter : Enclosure → Lead → Token → Lead
  | .outside, _, .mark .greater => .separator
  | .modifiers, _, .mark .comma => .separator
  | .modifiers, _, .mark .colon => .separator
  | .rules, _, .mark .comma => .separator
  | .rules, .separator, .percentage _ => .percentage
  | .rules, .percentage, .mark .arrow => .arrow
  | _, _, _ => .nothing

/-- What is pending behind one more token. -/
def Pending.step (p : Pending) : Token → Pending
  | .mark .leftParen => ⟨.rules, .nothing⟩
  | .mark .leftBracket => ⟨.modifiers, .nothing⟩
  | .mark .rightParen => ⟨.outside, .nothing⟩
  | .mark .rightBracket => ⟨.outside, .nothing⟩
  | t => ⟨p.enclosure, p.enclosure.leadAfter p.lead t⟩

/-- Nothing is pending there. -/
abbrev Enclosure.fresh (n : Enclosure) : Pending := ⟨n, .nothing⟩

/-- Whether tokens that begin in an enclosure break off where something has to go on. -/
def severed (n : Enclosure) (s : Tokens) : Bool :=
  (scanned Pending.step n.fresh s).lead != .nothing

instance (n : Enclosure) : CalmWords Pending.step n.fresh := by
  refine ⟨fun {t} ht => ?_⟩
  cases t with
  | mark m => exact absurd rfl (ht m)
  | _ => cases n <;> rfl

lemma severed_of_blank (n : Enclosure) {s : Tokens} (h : Blank s) : severed n s = false := by
  rw [severed, scanned_of_blank _ h]
  rfl

lemma severed_append {n n' : Enclosure} {u : Tokens}
    (hu : scanned Pending.step n.fresh u = n'.fresh) (s : Tokens) :
    severed n (u ++ s) = severed n' s := by
  rw [severed, scanned_append, hu]
  rfl

/-! ## More tokens behind -/

/-- The same failure with more tokens behind. -/
def Failure.append (e : Failure) (t : Tokens) : Failure :=
  { e with rest := e.rest ++ t, start? := e.start?.map (· ++ t) }

/-- The same outcome with more tokens behind. -/
def Outcome.append : Outcome α → Tokens → Outcome α
  | .done a r, t => .done a (r ++ t)
  | .failed e, t => .failed (e.append t)

lemma Outcome.append_map (f : α → β) (o : Outcome α) (t : Tokens) :
    (o.map f).append t = (o.append t).map f := by
  cases o <;> rfl

/-- A parser that gets `s` has come to the end of it: what it leaves when it succeeds is as `D`
says, and when it fails it leaves more than trivia exactly if `s` is severed. -/
def Ends (n : Enclosure) (D : Tokens → Prop) (s : Tokens) : Outcome α → Prop
  | .done _ r => D r
  | .failed e => Blank e.rest ↔ severed n s = false

/-- A parser that gets `s` has come to the end of it and leaves nothing but trivia when it
succeeds. -/
abbrev AtCut (n : Enclosure) (s : Tokens) (o : Outcome α) : Prop := Ends n Blank s o

section Ends

variable {n n' : Enclosure} {D : Tokens → Prop} {s u : Tokens} {o : Outcome α}

lemma ends_map {f : α → β} : Ends n D s (o.map f) ↔ Ends n D s o := by
  cases o <;> rfl

lemma ends_append (hu : scanned Pending.step n.fresh u = n'.fresh) (h : Ends n' D s o) :
    Ends n D (u ++ s) o := by
  cases o with
  | done a r => exact h
  | failed e =>
      rw [Ends, severed_append hu]
      exact h

end Ends

namespace Parser

/-- Either `p'` reads on with more tokens behind just as `p` does without them, or `p` has come to
the end.  The two are the same parser but for places in the tokens that they know. -/
class Cut (n : Enclosure) (t : Tokens) (p p' : Parser α) : Prop where
  cut : ∀ s, p' (s ++ t) = (p s).append t ∨ AtCut n s (p s)

/-- An attempt that fails for want of tokens got nothing but trivia. -/
class Peeks (t : Tokens) (p p' : Parser α) : Prop where
  peek : ∀ {s e}, p s = .failed e → e.committed = false →
    p' (s ++ t) = (p s).append t ∨ Blank s

section Cut

variable (n : Enclosure) (t : Tokens)

lemma append_or_atCut (p p' : Parser α) [Cut n t p p'] (s : Tokens) :
    p' (s ++ t) = (p s).append t ∨ AtCut n s (p s) := Cut.cut s

omit n in
lemma append_or_blank (p p' : Parser α) [Peeks t p p'] {s : Tokens} {e : Failure}
    (hs : p s = .failed e) (he : e.committed = false) :
    p' (s ++ t) = (p s).append t ∨ Blank s := Peeks.peek hs he

/-- A parser comes to the end of trivia. -/
lemma atCut_of_blank {p : Parser α} [Forward p] {s : Tokens} (h : Blank s) : AtCut n s (p s) := by
  cases hp : p s with
  | done a r => exact h.suffix (suffix_of_done hp)
  | failed e =>
      have hrest : Blank e.rest :=
        h.suffix (suffix_of_failed hp)
      exact iff_of_true hrest (severed_of_blank n h)

instance cut_pure (a : α) : Cut n t (pure a : Parser α) (pure a) :=
  ⟨fun _ => Or.inl rfl⟩

instance cut_reject (start : Tokens) (what : Expected) :
    Cut n t (reject start what : Parser α) (reject (start ++ t) what) :=
  ⟨fun _ => Or.inl rfl⟩

instance cut_token (accept : Token → Option α) : Cut n t (token accept) (token accept) := by
  refine ⟨fun s => ?_⟩
  cases s with
  | nil => exact Or.inr (iff_of_true blank_nil (severed_of_blank n blank_nil))
  | cons x w =>
      refine Or.inl ?_
      simp only [token, List.cons_append]
      cases accept x.value <;> rfl

instance cut_atEnd : Cut n t atEnd atEnd := by
  refine ⟨fun s => ?_⟩
  cases s with
  | nil => exact Or.inr blank_nil
  | cons x w => exact Or.inl rfl

lemma cut_skip (kind : Token → Bool) : Cut n t (skip kind) (skip kind) := by
  refine ⟨fun s => ?_⟩
  simp only [skip]
  cases hd : s.dropWhile fun x => kind x.value with
  | nil => exact Or.inr blank_nil
  | cons x w =>
      refine Or.inl ?_
      rw [List.dropWhile_append, hd]
      rfl

instance cut_bind (p p' : Parser α) (f f' : α → Parser β) [Steady Pending.step n.fresh p]
    [Cut n t p p'] [∀ a, Forward (f a)] [∀ a, Cut n t (f a) (f' a)] :
    Cut n t (p >>= f) (p' >>= f') := by
  refine ⟨fun s => ?_⟩
  have hp := append_or_atCut n t p p' s
  rw [bind_apply, bind_apply]
  cases hs : p s with
  | failed e =>
      rw [hs] at hp
      rcases hp with hp | hp
      · exact Or.inl (by rw [hp]; rfl)
      · exact Or.inr hp
  | done a r =>
      rw [hs] at hp
      obtain ⟨u, rfl, hu⟩ := Steady.exists_append Pending.step n.fresh hs
      rcases hp with hp | hp
      · rcases append_or_atCut n t (f a) (f' a) r with hf | hf
        · exact Or.inl (by rw [hp]; exact hf)
        · exact Or.inr (ends_append hu hf)
      · exact Or.inr (ends_append hu (atCut_of_blank n hp))

lemma cut_bind_pure (p p' : Parser α) (f : α → β) [Cut n t p p'] :
    Cut n t (p >>= fun a => pure (f a)) (p' >>= fun a => pure (f a)) := by
  refine ⟨fun s => ?_⟩
  have hp := append_or_atCut n t p p' s
  cases hs : p s with
  | done a r =>
      rw [hs] at hp
      rw [bind_of_done _ hs]
      exact hp.imp_left fun hp => bind_of_done _ hp
  | failed e =>
      rw [hs] at hp
      rw [bind_of_failed _ hs]
      exact hp.imp_left fun hp => bind_of_failed _ hp

/-- A place in the tokens that a parser remembers moves with them. -/
instance cut_here_bind (f f' : Tokens → Parser β) [∀ start, Cut n t (f start) (f' (start ++ t))] :
    Cut n t (here >>= f) (here >>= f') := by
  refine ⟨fun s => ?_⟩
  rw [bind_apply, bind_apply]
  exact append_or_atCut n t (f s) (f' (s ++ t)) s

instance cut_label (what : Expected) (p p' : Parser α) [Cut n t p p'] :
    Cut n t (label what p) (label what p') := by
  refine ⟨fun s => ?_⟩
  have hp := append_or_atCut n t p p' s
  unfold label
  cases hs : p s with
  | done a r =>
      rw [hs] at hp
      exact hp.imp (fun hp => by rw [hp]; rfl) id
  | failed e =>
      rw [hs] at hp
      exact hp.imp (fun hp => by rw [hp]; rfl) id

instance cut_commit (p p' : Parser α) [Cut n t p p'] : Cut n t (commit p) (commit p') := by
  refine ⟨fun s => ?_⟩
  have hp := append_or_atCut n t p p' s
  unfold commit
  cases hs : p s with
  | done a r =>
      rw [hs] at hp
      exact hp.imp (fun hp => by rw [hp]; rfl) id
  | failed e =>
      rw [hs] at hp
      refine hp.imp (fun hp => ?_) id
      rw [hp]
      cases hstart : e.start? <;> simp [Outcome.append, Failure.append, hstart]

instance cut_optional (p p' : Parser α) [Cut n t p p'] [Peeks t p p'] :
    Cut n t (optional p) (optional p') := by
  refine ⟨fun s => ?_⟩
  have hp := append_or_atCut n t p p' s
  cases hs : p s with
  | done a r =>
      rw [hs] at hp
      rw [optional_of_done hs]
      exact hp.imp_left fun hp => optional_of_done hp
  | failed e =>
      cases he : e.committed with
      | true =>
          rw [hs] at hp
          rw [optional_of_committed hs he]
          exact hp.imp_left fun hp => optional_of_committed hp he
      | false =>
          rw [optional_of_open hs he]
          refine (append_or_blank t p p' hs he).imp_left fun hp => ?_
          rw [hs] at hp
          exact optional_of_open hp he

instance cut_orElse (p p' q q' : Parser α) [Cut n t p p'] [Cut n t q q'] [Peeks t p p']
    [Peeks t q q'] [Forward p] [Forward q] :
    Cut n t (orElse p q) (orElse p' q') := by
  refine ⟨fun s => ?_⟩
  have hp := append_or_atCut n t p p' s
  cases hs : p s with
  | done a r =>
      rw [hs] at hp
      rw [orElse_of_done hs]
      exact hp.imp_left fun hp => orElse_of_done hp
  | failed e =>
      cases he : e.committed with
      | true =>
          rw [hs] at hp
          rw [orElse_of_committed hs he]
          exact hp.imp_left fun hp => orElse_of_committed hp he
      | false =>
          rcases append_or_blank t p p' hs he with hopen | hblank
          · rw [hs] at hopen
            have hq := append_or_atCut n t q q' s
            cases hqs : q s with
            | done a r =>
                rw [hqs] at hq
                rw [orElse_of_open_done hs he hqs]
                exact hq.imp_left fun hq => orElse_of_open_done hopen he hq
            | failed e' =>
                cases he' : e'.committed with
                | true =>
                    rw [hqs] at hq
                    rw [orElse_of_open_committed hs he hqs he']
                    exact hq.imp_left fun hq => orElse_of_open_committed hopen he hq he'
                | false =>
                    rcases append_or_blank t q q' hqs he' with hq | hblank
                    · rw [hqs] at hq
                      rw [orElse_of_open_open hs he hqs he']
                      exact Or.inl (orElse_of_open_open hopen he hq he')
                    · exact Or.inr (atCut_of_blank n hblank)
          · exact Or.inr (atCut_of_blank n hblank)

/-- Every success is decided by the tokens that were read. -/
class Firm (t : Tokens) (p p' : Parser α) : Prop where
  firm : ∀ {s a r}, p s = .done a r → p' (s ++ t) = .done a (r ++ t)

instance cut_lookahead (p p' : Parser α) [Cut n t p p'] [Peeks t p p'] [Firm t p p'] :
    Cut n t (lookahead p) (lookahead p') := by
  refine ⟨fun s => ?_⟩
  have hp := append_or_atCut n t p p' s
  cases hs : p s with
  | done a r =>
      rw [lookahead_of_done hs]
      exact Or.inl (lookahead_of_done (Firm.firm hs))
  | failed e =>
      cases he : e.committed with
      | true =>
          rw [hs] at hp
          rw [lookahead_of_committed hs he]
          exact hp.imp_left fun hp => lookahead_of_committed hp he
      | false =>
          rw [lookahead_of_open hs he]
          rcases append_or_blank t p p' hs he with hopen | hblank
          · rw [hs] at hopen
            exact Or.inl (lookahead_of_open hopen he)
          · exact Or.inr (iff_of_true hblank (severed_of_blank n hblank))

/-! ### Loops -/

/-- If every turn of a loop is decided by the tokens or the loop ends with them, so it is with the
whole loop. -/
lemma many_append_or_ends (item : Parser α) [Consumes item] [Steady Pending.step n.fresh item]
    {D : Tokens → Prop} (hitem : ∀ s, item (s ++ t) = (item s).append t ∨ Ends n D s (many item s))
    (s : Tokens) :
    many item (s ++ t) = (many item s).append t ∨ Ends n D s (many item s) := by
  induction hlen : s.length using Nat.strong_induction_on generalizing s with
  | _ k ih =>
      rcases hitem s with h | h
      swap
      · exact Or.inr h
      cases hs : item s with
      | failed e =>
          rw [hs] at h
          refine Or.inl ?_
          rw [many_of_failed item hs, many_of_failed item h]
          cases he : e.committed <;> simp [Failure.append, he, Outcome.append]
      | done a r =>
          rw [hs] at h
          have hlt : r.length < k := hlen ▸ Consumes.lt hs
          obtain ⟨u, rfl, hu⟩ := Steady.exists_append Pending.step n.fresh hs
          rw [many_of_done item hs, ends_map]
          rcases ih r.length hlt r rfl with hr | hr
          · exact Or.inl (by rw [many_of_done item h, hr, Outcome.append_map])
          · exact Or.inr (ends_append hu hr)

instance cut_many (item : Parser α) [Consumes item] [Cut n t item item] [Peeks t item item]
    [Steady Pending.step n.fresh item] [Forward item] : Cut n t (many item) (many item) := by
  refine ⟨many_append_or_ends n t item fun s => ?_⟩
  have hp := append_or_atCut n t item item s
  cases hs : item s with
  | failed e =>
      rw [many_of_failed item hs]
      cases he : e.committed with
      | true =>
          rw [hs] at hp
          exact hp.imp_right fun h => h
      | false =>
          have hopen := append_or_blank t item item hs he
          rw [hs] at hopen
          exact hopen.imp_right fun h => h
  | done a r =>
      rw [hs] at hp
      refine hp.imp_right fun hr => ?_
      obtain ⟨u, rfl, hu⟩ := Steady.exists_append Pending.step n.fresh hs
      rw [many_of_done item hs, ends_map]
      exact ends_append hu (atCut_of_blank n hr)

/-- A turn in which `stop` and `item` are decided decides the loop, or hands it on to the tokens
behind an item. -/
lemma manyUntil_append_or_turn (stop : Parser β) (item : Parser α) [Consumes item]
    {x : Located Token} {w : Tokens} (hx : x.value.isTrivia = false)
    (hstop : stop (x :: w ++ t) = (stop (x :: w)).append t)
    (hitem : ∀ e, stop (x :: w) = .failed e → e.committed = false →
      item (x :: w ++ t) = (item (x :: w)).append t) :
    manyUntil Token.isTrivia stop item (x :: w ++ t)
        = (manyUntil Token.isTrivia stop item (x :: w)).append t ∨
      ∃ a r, item (x :: w) = .done a r ∧
        manyUntil Token.isTrivia stop item (x :: w)
          = (manyUntil Token.isTrivia stop item r).map (fun found => (a :: found.1, found.2)) ∧
        manyUntil Token.isTrivia stop item (x :: w ++ t)
          = (manyUntil Token.isTrivia stop item (r ++ t)).map
              fun found => (a :: found.1, found.2) := by
  have hd : (x :: w).dropWhile (fun x => x.value.isTrivia) = x :: w := dropWhile_trivia_cons hx _
  have hd' : (x :: w ++ t).dropWhile (fun x => x.value.isTrivia) = x :: w ++ t :=
    dropWhile_trivia_cons hx _
  cases hs : stop (x :: w) with
  | done b r =>
      rw [hs] at hstop
      rw [manyUntil_of_stop item stop hd hs]
      exact Or.inl (manyUntil_of_stop item stop hd' hstop)
  | failed e =>
      rw [hs] at hstop
      cases he : e.committed with
      | true =>
          rw [manyUntil_of_committed item stop hd hs he]
          exact Or.inl (manyUntil_of_committed item stop hd' hstop he)
      | false =>
          have hitem := hitem e hs he
          cases hi : item (x :: w) with
          | failed e' =>
              rw [hi] at hitem
              rw [manyUntil_of_failed item stop hd hs he hi]
              exact Or.inl (manyUntil_of_failed item stop hd' hstop he hitem)
          | done a r =>
              rw [hi] at hitem
              exact Or.inr ⟨a, r, rfl, manyUntil_of_done item stop hd hs he hi,
                manyUntil_of_done item stop hd' hstop he hitem⟩

/-- If at every token that counts `stop` is decided, and so is `item` when `stop` fails there, or
the loop ends with the tokens, so it is with the whole loop. -/
lemma manyUntil_append_or_atCut (stop : Parser β) (item : Parser α) [Consumes item]
    [Steady Pending.step n.fresh item] [Forward stop] [Forward item]
    (hstop : ∀ x w, x.value.isTrivia = false → stop (x :: w ++ t) = (stop (x :: w)).append t ∨
      AtCut n (x :: w) (manyUntil Token.isTrivia stop item (x :: w)))
    (hitem : ∀ x w e, x.value.isTrivia = false → stop (x :: w) = .failed e → e.committed = false →
      item (x :: w ++ t) = (item (x :: w)).append t ∨
        AtCut n (x :: w) (manyUntil Token.isTrivia stop item (x :: w)))
    (s : Tokens) :
    manyUntil Token.isTrivia stop item (s ++ t)
        = (manyUntil Token.isTrivia stop item s).append t ∨
      AtCut n s (manyUntil Token.isTrivia stop item s) := by
  induction hlen : s.length using Nat.strong_induction_on generalizing s with
  | _ k ih =>
      rcases exists_blank_append s with hblank | ⟨g, x, w, rfl, hg, hx⟩
      · exact Or.inr (atCut_of_blank n hblank)
      have hgn : scanned Pending.step n.fresh g = n.fresh := scanned_of_blank _ hg
      rw [manyUntil_blank_append item stop hg (x :: w), List.append_assoc,
        manyUntil_blank_append item stop hg (x :: w ++ t)]
      refine Or.imp_right (ends_append hgn) ?_
      by_cases hcut : AtCut n (x :: w) (manyUntil Token.isTrivia stop item (x :: w))
      · exact Or.inr hcut
      rcases manyUntil_append_or_turn t stop item hx ((hstop x w hx).resolve_right hcut)
        (fun e hs he => (hitem x w e hx hs he).resolve_right hcut) with h |
        ⟨a, r, hi, hturn, hturn'⟩
      · exact Or.inl h
      rw [hturn', hturn]
      have hlt : r.length < k := by
        have hshort := Consumes.lt hi
        rw [List.length_append] at hlen
        omega
      obtain ⟨u, hu, hun⟩ := Steady.exists_append Pending.step n.fresh hi
      refine (ih r.length hlt r rfl).imp (fun hr => ?_) fun hr => ends_map.2 ?_
      · rw [hr, Outcome.append_map]
      · rw [hu]
        exact ends_append hun hr

instance cut_manyUntil (stop : Parser β) (item : Parser α) [Consumes item] [Cut n t stop stop]
    [Peeks t stop stop] [Cut n t item item] [Steady Pending.step n.fresh item] [Forward stop]
    [Forward item] :
    Cut n t (manyUntil Token.isTrivia stop item) (manyUntil Token.isTrivia stop item) := by
  refine ⟨manyUntil_append_or_atCut n t stop item (fun x w hx => ?_) fun x w e hx hs he => ?_⟩
  · have hd : (x :: w).dropWhile (fun x => x.value.isTrivia) = x :: w :=
      dropWhile_trivia_cons hx _
    have hstop := append_or_atCut n t stop stop (x :: w)
    cases hs : stop (x :: w) with
    | done b r =>
        rw [hs] at hstop
        exact hstop.imp_right fun h => by rwa [manyUntil_of_stop item stop hd hs]
    | failed e =>
        cases he : e.committed with
        | true =>
            rw [hs] at hstop
            exact hstop.imp_right fun h => by rwa [manyUntil_of_committed item stop hd hs he]
        | false =>
            have hopen := append_or_blank t stop stop hs he
            rw [hs] at hopen
            exact hopen.imp_right fun h => absurd (h x List.mem_cons_self) (by simp [hx])
  · have hd : (x :: w).dropWhile (fun x => x.value.isTrivia) = x :: w :=
      dropWhile_trivia_cons hx _
    refine (append_or_atCut n t item item (x :: w)).imp_right fun h => ?_
    cases hi : item (x :: w) with
    | failed e' =>
        rw [hi] at h
        rwa [manyUntil_of_failed item stop hd hs he hi]
    | done a r =>
        rw [hi] at h
        rw [manyUntil_of_done item stop hd hs he hi]
        refine ends_map.2 ?_
        obtain ⟨u, hu, hun⟩ := Steady.exists_append Pending.step n.fresh hi
        rw [hu]
        exact ends_append hun (atCut_of_blank n h)

end Cut

/-! ### Attempts and successes -/

section Firm

variable (t : Tokens)

instance firm_pure (a : α) : Firm t (pure a : Parser α) (pure a) :=
  ⟨fun h => by cases h; rfl⟩

instance firm_token (accept : Token → Option α) : Firm t (token accept) (token accept) := by
  refine ⟨fun {s a r} h => ?_⟩
  cases s with
  | nil => cases h
  | cons x w =>
      simp only [token, List.cons_append] at h ⊢
      cases hx : accept x.value <;> rw [hx] at h <;> cases h
      rfl

instance firm_bind (p p' : Parser α) (f f' : α → Parser β) [Firm t p p']
    [∀ a, Firm t (f a) (f' a)] : Firm t (p >>= f) (p' >>= f') := by
  refine ⟨fun {s b r} h => ?_⟩
  rw [bind_apply] at h
  split at h
  · next a r' hp =>
    rw [bind_apply, (Firm.firm hp : p' (s ++ t) = _)]
    exact Firm.firm h
  · cases h

instance firm_label (what : Expected) (p p' : Parser α) [Firm t p p'] :
    Firm t (label what p) (label what p') :=
  ⟨fun h => label_done.2 (Firm.firm (label_done.1 h))⟩

end Firm

/-- There is no way back behind this parser. -/
class Commits (p : Parser α) : Prop where
  committed : ∀ {s e}, p s = .failed e → e.committed = true

instance commits_pure (a : α) : Commits (pure a : Parser α) :=
  ⟨fun h => (nomatch h)⟩

instance commits_commit (p : Parser α) : Commits (commit p) := by
  refine ⟨fun {s e} h => ?_⟩
  unfold commit at h
  split at h <;> cases h
  rfl

instance commits_bind (p : Parser α) (f : α → Parser β) [Commits p] [∀ a, Commits (f a)] :
    Commits (p >>= f) := by
  refine ⟨fun {s e} h => ?_⟩
  cases hs : p s with
  | done a r =>
      rw [bind_of_done _ hs] at h
      exact Commits.committed h
  | failed e' =>
      rw [bind_of_failed _ hs] at h
      cases h
      exact Commits.committed hs

/-- Only a committed failure goes through an attempt. -/
instance commits_optional (p : Parser α) : Commits (optional p) := by
  refine ⟨fun {s e} h => ?_⟩
  cases hs : p s with
  | done a r =>
      rw [optional_of_done hs] at h
      cases h
  | failed e' =>
      cases he : e'.committed with
      | true =>
          rw [optional_of_committed hs he] at h
          cases h
          exact he
      | false =>
          rw [optional_of_open hs he] at h
          cases h

section Peeks

variable (t : Tokens)

instance peeks_token (accept : Token → Option α) : Peeks t (token accept) (token accept) := by
  refine ⟨fun {s e} _ _ => ?_⟩
  cases s with
  | nil => exact Or.inr blank_nil
  | cons x w =>
      refine Or.inl ?_
      simp only [token, List.cons_append]
      cases accept x.value <;> rfl

instance peeks_atEnd : Peeks t atEnd atEnd := by
  refine ⟨fun {s e} h _ => ?_⟩
  cases s with
  | nil => cases h
  | cons x w => exact Or.inl rfl

instance peeks_label (what : Expected) (p p' : Parser α) [Peeks t p p'] :
    Peeks t (label what p) (label what p') := by
  refine ⟨fun {s e} h he => ?_⟩
  unfold label at h ⊢
  cases hs : p s with
  | done a r => rw [hs] at h; cases h
  | failed e' =>
      rw [hs] at h
      cases h
      refine (append_or_blank t p p' hs he).imp_left fun hp => ?_
      rw [hp, hs]
      rfl

/-- An attempt whose first step leaves no way back depends on that step alone. -/
instance peeks_bind (p p' : Parser α) (f f' : α → Parser β) [Peeks t p p'] [∀ a, Commits (f a)] :
    Peeks t (p >>= f) (p' >>= f') := by
  refine ⟨fun {s e} h he => ?_⟩
  rw [bind_apply] at h ⊢
  cases hs : p s with
  | done a r =>
      rw [hs] at h
      rw [Commits.committed h] at he
      cases he
  | failed e' =>
      rw [hs] at h
      cases h
      refine (append_or_blank t p p' hs he).imp_left fun hp => ?_
      rw [bind_apply, hp, hs]
      rfl

/-- Trivia in front of an attempt change nothing. -/
lemma peeks_skip_bind (kind : Token → Bool) (hkind : ∀ x, kind x = true → x.isTrivia = true)
    (f f' : Unit → Parser β) [Peeks t (f ()) (f' ())] :
    Peeks t (skip kind >>= f) (skip kind >>= f') := by
  refine ⟨fun {s e} h he => ?_⟩
  have hs : s = s.takeWhile (fun x => kind x.value) ++ s.dropWhile (fun x => kind x.value) :=
    List.takeWhile_append_dropWhile.symm
  have hblank : Blank (s.takeWhile fun x => kind x.value) := fun x hx =>
    hkind _ (List.mem_takeWhile_imp (p := fun x : Located Token => kind x.value) hx)
  cases hd : s.dropWhile fun x => kind x.value with
  | nil =>
      rw [hd, List.append_nil] at hs
      exact Or.inr (hs ▸ hblank)
  | cons x w =>
      have hskip : (s ++ t).dropWhile (fun x => kind x.value) = x :: w ++ t := by
        rw [List.dropWhile_append, hd]
        rfl
      simp only [bind_apply, skip, hd, hskip] at h ⊢
      refine (append_or_blank t (f ()) (f' ()) h he).imp id fun hw => ?_
      rw [hs, hd]
      exact blank_append.2 ⟨hblank, hw⟩

instance peeks_orElse (p p' q q' : Parser α) [Peeks t p p'] [Peeks t q q'] :
    Peeks t (orElse p q) (orElse p' q') := by
  refine ⟨fun {s e} h he => ?_⟩
  cases hs : p s with
  | done a r => rw [orElse_of_done hs] at h; cases h
  | failed e₁ =>
      cases he₁ : e₁.committed with
      | true =>
          rw [orElse_of_committed hs he₁] at h
          cases h
          rw [he] at he₁
          cases he₁
      | false =>
          rcases append_or_blank t p p' hs he₁ with hp | hblank
          · rw [hs] at hp
            cases hq : q s with
            | done a r => rw [orElse_of_open_done hs he₁ hq] at h; cases h
            | failed e₂ =>
                cases he₂ : e₂.committed with
                | true =>
                    rw [orElse_of_open_committed hs he₁ hq he₂] at h
                    cases h
                    rw [he] at he₂
                    cases he₂
                | false =>
                    rw [orElse_of_open_open hs he₁ hq he₂]
                    refine (append_or_blank t q q' hq he₂).imp_left fun hq' => ?_
                    rw [hq] at hq'
                    exact orElse_of_open_open hp he₁ hq' he₂
          · exact Or.inr hblank

instance peeks_lookahead (p p' : Parser α) [Peeks t p p'] :
    Peeks t (lookahead p) (lookahead p') := by
  refine ⟨fun {s e} h he => ?_⟩
  cases hs : p s with
  | done a r => rw [lookahead_of_done hs] at h; cases h
  | failed e' =>
      cases he' : e'.committed with
      | true =>
          rw [lookahead_of_committed hs he'] at h
          cases h
          rw [he] at he'
          cases he'
      | false =>
          rw [lookahead_of_open hs he']
          refine (append_or_blank t p p' hs he').imp_left fun hp => ?_
          rw [hs] at hp
          exact lookahead_of_open hp he'

end Peeks

instance firm_orElse (t : Tokens) (p p' q q' : Parser α) [Firm t p p'] [Firm t q q']
    [Peeks t p p'] [Takes q] : Firm t (orElse p q) (orElse p' q') := by
  refine ⟨fun {s a r} h => ?_⟩
  cases hs : p s with
  | done b r' =>
      rw [orElse_of_done hs] at h
      cases h
      exact orElse_of_done (Firm.firm hs)
  | failed e =>
      cases he : e.committed with
      | true =>
          rw [orElse_of_committed hs he] at h
          cases h
      | false =>
          cases hq : q s with
          | done b r' =>
              rw [orElse_of_open_done hs he hq] at h
              cases h
              have hopen := (append_or_blank t p p' hs he).resolve_right (not_blank_of_done hq)
              rw [hs] at hopen
              exact orElse_of_open_done hopen he (Firm.firm hq)
          | failed e' =>
              cases he' : e'.committed with
              | true => rw [orElse_of_open_committed hs he hq he'] at h; cases h
              | false => rw [orElse_of_open_open hs he hq he'] at h; cases h

end Parser

end ArchLang
