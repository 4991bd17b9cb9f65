import ArchLang.Proofs.Cutting

/-!
# Truncated input

Input that breaks off in the middle of a declaration should be reported as incomplete.  This file
carries `Cut` through the grammar and finds out when it is.

**Lists.**  Behind a separator an item is attempted, and if it fails the list ends before the
separator.  So when the tokens end there the separator is left over, with whatever there was of the
item, and the next reader meets a token that it does not expect.  `Dangling` is what such a list
leaves, and `separated_append_or_ends` does the work for rules, modifiers and nodes.

**Names.**  A list of names may end with a comma, so the comma is read after all and nothing is left
(`nameList_append_or_ends`).

**Sections.**  A section ends before a header, so a name at the end of the tokens might have been
one; it is read as a chain and nothing is left either (`sectionEnd_append_or_last`).

* `Settles n p` — what `p` reads closes whatever its enclosure has pending.
* `enclosed` — parentheses and brackets as one parser, with no way back behind the opening mark.
* **`code_of_truncated`** — a text that is accepted, cut anywhere: it is refused as unexpected
  exactly if it is severed there, and otherwise it is accepted or refused as incomplete.
* **`truncated_not_always_incomplete`** — a place at which it is severed.
-/

namespace ArchLang

open ArchLang.Parser ArchLang.Grammar

variable {α β : Type}

/-! ## Which marks do not count where -/

instance : Calm Pending.step Enclosure.outside.fresh (.mark .comma) := ⟨rfl⟩

instance : Calm Pending.step Enclosure.outside.fresh (.mark .colon) := ⟨rfl⟩

instance : Calm Pending.step Enclosure.outside.fresh (.mark .leftBrace) := ⟨rfl⟩

instance : Calm Pending.step Enclosure.outside.fresh (.mark .rightBrace) := ⟨rfl⟩

instance : Calm Pending.step Enclosure.rules.fresh (.mark .arrow) := ⟨rfl⟩

/-! ## The smallest readers -/

namespace Grammar

section Smallest

variable (n : Enclosure) (t : Tokens)

instance : Cut n t gap gap := cut_skip n t _

instance : Cut n t blanks blanks := cut_skip n t _

instance (m : Mark) : Cut n t (mark m) (mark m) := by
  unfold mark exactly; exact cut_bind_pure n t _ _ _

instance (m : Mark) : Peeks t (mark m) (mark m) := by
  unfold mark exactly; infer_instance

instance (k : Keyword) : Cut n t (keyword k) (keyword k) := by
  unfold keyword exactly; exact cut_bind_pure n t _ _ _

instance (k : Keyword) : Peeks t (keyword k) (keyword k) := by
  unfold keyword exactly; infer_instance

instance : Cut n t lineBreak lineBreak := by
  unfold lineBreak exactly; exact cut_bind_pure n t _ _ _

instance : Peeks t lineBreak lineBreak := by unfold lineBreak exactly; infer_instance

instance : Cut n t anyName anyName := by unfold anyName; infer_instance

instance : Peeks t anyName anyName := by unfold anyName; infer_instance

instance : Cut n t bareName bareName := by unfold bareName; infer_instance

instance (m : Mark) [Calm Pending.step n.fresh (.mark m)] : Cut n t (around m) (around m) := by
  unfold around; infer_instance

instance : Cut .rules t rule rule := by unfold rule; infer_instance

end Smallest

end Grammar

/-! ## Items behind a separator -/

namespace Parser

/-- What the parser reads closes whatever its enclosure has pending. -/
class Settles (n : Enclosure) (p : Parser α) : Prop where
  reads : ∀ {s : Tokens} {a : α} {r : Tokens}, p s = .done a r →
    ∃ u, s = u ++ r ∧ ∀ l, scanned Pending.step ⟨n, l⟩ u = n.fresh
  stops : ∀ {s : Tokens} {e : Failure}, p s = .failed e → e.rest <:+ s

section Settles

variable (n : Enclosure)

lemma Settles.exists_append {p : Parser α} [Settles n p] {s r : Tokens} {a : α}
    (h : p s = .done a r) : ∃ u, s = u ++ r ∧ ∀ l, scanned Pending.step ⟨n, l⟩ u = n.fresh :=
  Settles.reads h

instance (priority := low) steady_of_settles (p : Parser α) [Settles n p] :
    Steady Pending.step n.fresh p := by
  refine ⟨fun h => ?_, fun h => Settles.stops n h⟩
  obtain ⟨u, rfl, hu⟩ := Settles.exists_append n h
  exact ⟨u, rfl, hu .nothing⟩

lemma settles_token {accept : Token → Option α}
    (h : ∀ {x a}, accept x = some a → x.isTrivia = false ∧
      ∀ l, Pending.step ⟨n, l⟩ x = n.fresh) : Settles n (token accept) := by
  have : Steady Pending.step n.fresh (token accept) := by
    have : Unmoved Pending.step n.fresh accept := ⟨fun hx => (h hx).2 .nothing⟩
    infer_instance
  refine ⟨fun {s a r} hs => ?_, fun hs => Steady.stops Pending.step n.fresh hs⟩
  obtain ⟨x, rfl, hx, -⟩ := token_eq_done.1 hs
  refine ⟨[x], rfl, fun l => ?_⟩
  rw [scanned_cons _ _ (h hx).1, (h hx).2 l]
  rfl

instance settles_label (what : Expected) (p : Parser α) [Settles n p] :
    Settles n (label what p) := by
  refine ⟨fun h => Settles.reads (label_done.1 h), fun h => ?_⟩
  exact Steady.stops Pending.step n.fresh h

instance settles_bind (p : Parser α) (f : α → Parser β) [Settles n p]
    [∀ a, Steady Pending.step n.fresh (f a)] : Settles n (p >>= f) := by
  refine ⟨fun {s b r} h => ?_, fun h => Steady.stops Pending.step n.fresh h⟩
  obtain ⟨a, r', hp, hf⟩ := bind_eq_done.1 h
  obtain ⟨u, rfl, hu⟩ := Settles.exists_append n hp
  obtain ⟨v, rfl, hv⟩ := Steady.exists_append Pending.step n.fresh hf
  exact ⟨u ++ v, (List.append_assoc _ _ _).symm, fun l => by rw [scanned_append, hu l, hv]⟩

end Settles

end Parser

namespace Grammar

lemma step_eq_fresh_of_name {n : Enclosure} {x : Token} {name : String}
    (h : nameOf x = some name) (l : Lead) : Pending.step ⟨n, l⟩ x = n.fresh := by
  cases x <;> cases h <;> cases n <;> rfl

instance settles_anyName (n : Enclosure) : Settles n anyName := by
  have : Settles n (token nameOf) :=
    settles_token n fun h => ⟨not_trivia_of_name h, step_eq_fresh_of_name h⟩
  unfold anyName
  infer_instance

/-- A separator and an item that settles what the separator has begun. -/
lemma steady_around_bind {n : Enclosure} (m : Mark) (p : Parser α) [Settles n p] [Forward p]
    (hm : (n.fresh.step (.mark m)).enclosure = n) :
    Steady Pending.step n.fresh (around m >>= fun _ => p) := by
  have hforward : Forward (around m >>= fun _ => p) := inferInstance
  refine ⟨fun {s a r} h => ?_, fun h => suffix_of_failed h⟩
  obtain ⟨_, r', hm', hp⟩ := bind_eq_done.1 h
  obtain ⟨u, rfl, hu⟩ := around_eq_done hm'
  obtain ⟨v, rfl, hv⟩ := Settles.exists_append n hp
  refine ⟨u ++ v, (List.append_assoc _ _ _).symm, ?_⟩
  have hq : n.fresh.step (.mark m) = ⟨n, (n.fresh.step (.mark m)).lead⟩ := by
    rw [Pending.mk.injEq]
    exact ⟨hm, rfl⟩
  rw [scanned_append, hu.scanned_eq, hq, hv]

/-! ## The lists that have to go on behind a separator -/

instance settles_rule : Settles .rules rule := by
  have : Steady Pending.step Enclosure.rules.fresh rule := inferInstance
  refine ⟨fun {s a r} h => ?_, fun h => Steady.stops Pending.step Enclosure.rules.fresh h⟩
  unfold rule at h
  obtain ⟨p, r₁, hp, hrest⟩ := bind_eq_done.1 h
  obtain ⟨_, r₂, harrow, hrest⟩ := bind_eq_done.1 hrest
  obtain ⟨target, r₃, ht, hrest⟩ := bind_eq_done.1 hrest
  cases hrest
  obtain ⟨y, rfl, hy, -⟩ := token_eq_done.1 (label_done.1 hp)
  obtain ⟨v, rfl, hv⟩ := around_eq_done harrow
  obtain ⟨u, rfl, hu⟩ := Settles.exists_append .rules ht
  refine ⟨y :: v ++ u, by simp, fun l => ?_⟩
  obtain ⟨y, sp⟩ := y
  cases y with
  | percentage digits =>
      rw [List.cons_append, scanned_cons _ _ rfl, scanned_append, hv.scanned_eq]
      cases l <;> exact hu _
  | _ => cases hy

instance settles_modifierValue : Settles .modifiers (token modifierValueOf) := by
  refine settles_token _ fun {x a} h => ?_
  cases x <;> cases h <;> exact ⟨rfl, fun _ => rfl⟩

instance steady_modifierValue : Steady Pending.step Enclosure.modifiers.fresh
    (around .colon >>= fun _ => label .modifierValue (token modifierValueOf)) :=
  steady_around_bind .colon _ rfl

instance settles_modifier : Settles .modifiers modifier := by unfold modifier; infer_instance

instance steady_rules_item :
    Steady Pending.step Enclosure.rules.fresh (listComma >>= fun _ => rule) :=
  steady_around_bind .comma _ rfl

instance steady_modifiers_item :
    Steady Pending.step Enclosure.modifiers.fresh (listComma >>= fun _ => modifier) :=
  steady_around_bind .comma _ rfl

instance steady_separated_items {n : Enclosure} (item : Parser α) (separator : Parser β)
    [Consumes item] [Keeps separator] [Steady Pending.step n.fresh item]
    [Steady Pending.step n.fresh (separator >>= fun _ => item)] :
    Steady Pending.step n.fresh (separated item separator) := by
  unfold separated
  infer_instance

end Grammar

/-! ## Parentheses and brackets -/

namespace Grammar

/-- A closing mark with trivia before it, behind a value that was read. -/
def closedBy (m : Mark) (a : α) : Parser α := do
  gap
  let _ ← mark m
  pure a

/-- An opening mark and, with no way back, `body` and the closing mark behind it. -/
def enclosed (opening closing : Mark) (body : Parser α) : Parser α := do
  let _ ← mark opening
  commit do
    gap
    let found ← body
    closedBy closing found

lemma bracketed_eq_enclosed : bracketed =
    blanks >>= fun _ => enclosed .leftBracket .rightBracket (separated modifier listComma) := rfl

instance commits_rules : Commits rules := by unfold rules; infer_instance

/-- The parenthesis of a rollout and the rules behind it are one attempt: past the parenthesis there
is no way back. -/
lemma rollout_eq_enclosed : rollout = (do
    let kind ← bareName
    let found ← optional
      (gap >>= fun _ => enclosed .leftParen .rightParen (separated rule listComma))
    pure ⟨kind, found.getD []⟩) := by
  funext s
  unfold rollout
  cases hk : bareName s with
  | failed e => rw [bind_of_failed _ hk, bind_of_failed _ hk]
  | done kind r =>
      rw [bind_of_done _ hk, bind_of_done _ hk]
      have hsplit : (gap >>= fun _ => enclosed .leftParen .rightParen (separated rule listComma))
          = (gap >>= fun _ => mark .leftParen) >>= fun _ => rules := rfl
      rw [hsplit]
      cases ho : (gap >>= fun _ => mark .leftParen) r with
      | failed e =>
          have he : e.committed = false := congrArg Failure.committed (mark_failed ho)
          rw [bind_of_done _ (optional_of_open ho he),
            bind_of_done _ (optional_of_open (bind_of_failed _ ho) he)]
          rfl
      | done sp r' =>
          rw [bind_of_done _ (optional_of_done ho)]
          cases hr : rules r' with
          | failed e =>
              have h := (bind_of_done (fun _ => rules) ho).trans hr
              exact (bind_of_failed _ hr).trans
                (bind_of_failed _ (optional_of_committed h (Commits.committed hr))).symm
          | done found r'' =>
              have h := (bind_of_done (fun _ => rules) ho).trans hr
              exact (bind_of_done _ hr).trans
                (bind_of_done (fun found => pure (⟨kind, found.getD []⟩ : DeploymentDecl))
                  (optional_of_done h)).symm

instance {σ : Type} (step : σ → Token → σ) (q : σ) (m : Mark) [Calm step q (.mark m)] (a : α) :
    Steady step q (closedBy m a) := by
  unfold closedBy; infer_instance

section Closing

variable {m : Mark} {s g w : Tokens} {x : Located Token} (a : α)

lemma closedBy_of_blank (hs : Blank s) : closedBy m a s = .failed ⟨false, [.mark m], [], none⟩ := by
  rw [closedBy, gap_bind_of_blank _ hs, bind_of_failed _ (mark_nil m)]

lemma closedBy_of_eq (hg : Blank g) (hx : x.value = .mark m) :
    closedBy m a (g ++ x :: w) = .done a w := by
  rw [closedBy, gap_bind_append _ hg (by rw [hx]; rfl), bind_of_done _ (mark_cons_of_eq w hx)]
  rfl

lemma closedBy_of_ne (hg : Blank g) (hsig : x.value.isTrivia = false) (hx : x.value ≠ .mark m) :
    closedBy m a (g ++ x :: w) = .failed ⟨false, [.mark m], x :: w, none⟩ := by
  rw [closedBy, gap_bind_append _ hg hsig, bind_of_failed _ (mark_cons_of_ne w hx)]

lemma closedBy_eq_done {a b : α} {r : Tokens} (h : closedBy m a s = .done b r) :
    ∃ g x, s = g ++ x :: r ∧ Blank g ∧ x.value = .mark m := by
  rcases exists_blank_append s with hs | ⟨g, x, w, rfl, hg, hsig⟩
  · rw [closedBy_of_blank a hs] at h
    cases h
  · by_cases hx : x.value = .mark m
    · rw [closedBy_of_eq a hg hx] at h
      cases h
      exact ⟨g, x, rfl, hg, hx⟩
    · rw [closedBy_of_ne a hg hsig hx] at h
      cases h

end Closing

/-! ### Readers that begin with a word -/

section FirstWord

variable {y : Located Token} (w : Tokens)

lemma rule_cons_of_none (hy : percentageOf y.value = none) :
    rule (y :: w) = .failed ⟨false, [.percentage], y :: w, none⟩ := by
  simp [rule, label, token, bind_apply, hy]

lemma rule_cons_of_some {p : String} (hy : percentageOf y.value = some p) : rule (y :: w)
    = (around .arrow >>= fun _ => anyName >>= fun target => pure ⟨⟨p, y.span⟩, target⟩) w := by
  simp [rule, label, token, bind_apply, hy]

lemma modifier_cons_of_none (hy : nameOf y.value = none) :
    modifier (y :: w) = .failed ⟨false, [.name], y :: w, none⟩ := by
  simp [modifier, anyName, label, token, bind_apply, hy]

lemma modifier_cons_of_some {key : String} (hy : nameOf y.value = some key) :
    modifier (y :: w) = (optional (around .colon >>= fun _ =>
      label .modifierValue (token modifierValueOf)) >>= fun value =>
        pure ⟨⟨key, y.span⟩, value⟩) w := by
  simp [modifier, anyName, label, token, bind_apply, hy]

lemma node_cons_of_none (hy : nameOf y.value = none) :
    node (y :: w) = .failed ⟨false, [.name], y :: w, none⟩ := by
  simp [node, anyName, label, token, bind_apply, hy]

lemma node_cons_of_some {name : String} (hy : nameOf y.value = some name) : node (y :: w)
    = (optional bracketed >>= fun found => pure ⟨⟨name, y.span⟩, found.getD []⟩) w := by
  simp [node, anyName, label, token, bind_apply, hy]

lemma header_cons_of_none (hy : identifierOf y.value = none) :
    header (y :: w) = .failed ⟨false, [.identifier], y :: w, none⟩ := by
  simp [header, bareName, label, token, bind_apply, hy]

lemma header_cons_of_some {key : String} (hy : identifierOf y.value = some key) :
    header (y :: w) = closedBy .colon ⟨key, y.span⟩ w := by
  simp [header, bareName, label, token, bind_apply, hy, closedBy]

end FirstWord

instance forward_enclosed (opening closing : Mark) (body : Parser α) [Forward body] :
    Forward (enclosed opening closing body) := by
  unfold enclosed; infer_instance

/-- What is read from the opening to the closing mark begins and ends outside. -/
lemma steady_enclosed {n : Enclosure} (opening closing : Mark) (body : Parser α) [Forward body]
    [Steady Pending.step n.fresh body] (ho : Enclosure.outside.fresh.step (.mark opening) = n.fresh)
    (hc : n.fresh.step (.mark closing) = Enclosure.outside.fresh) :
    Steady Pending.step Enclosure.outside.fresh (enclosed opening closing body) := by
  have hforward : Forward (enclosed opening closing body) := inferInstance
  refine ⟨fun {s a r} h => ?_, fun h => suffix_of_failed h⟩
  obtain ⟨_, r₁, hopening, hrest⟩ := bind_eq_done.1 h
  obtain ⟨_, r₂, hgap, hrest⟩ := bind_eq_done.1 (commit_done.1 hrest)
  obtain ⟨found, r₃, hbody, hclosed⟩ := bind_eq_done.1 hrest
  obtain ⟨x, rfl, hx⟩ := mark_eq_done hopening
  obtain ⟨g, rfl, hg⟩ := Steady.exists_append Pending.step n.fresh hgap
  obtain ⟨u, rfl, hu⟩ := Steady.exists_append Pending.step n.fresh hbody
  obtain ⟨g', y, rfl, hg', hy⟩ := closedBy_eq_done hclosed
  refine ⟨x :: (g ++ (u ++ (g' ++ [y]))), by simp, ?_⟩
  rw [scanned_cons _ _ (by rw [hx]; rfl), hx, ho, scanned_append, hg, scanned_append, hu,
    scanned_append, scanned_of_blank _ hg', scanned_cons _ _ (by rw [hy]; rfl), hy, hc]
  rfl

section Lists

variable {n : Enclosure} {t : Tokens}

/-- Another mark than `closing` comes next. -/
def Unfit (closing : Mark) (r : Tokens) : Prop :=
  ∃ g x w m, r = g ++ x :: w ∧ Blank g ∧ x.value = .mark m ∧ m ≠ closing

/-- What a list leaves when the tokens end inside it: trivia, or a separator and what there is of
the item behind it. -/
structure Dangling (n : Enclosure) (closing : Mark) (item : Parser α) (r : Tokens) : Prop where
  open_item : ∃ e, item r = .failed e ∧ e.committed = false
  begun : Blank r ∨ severed n r = true ∧ Unfit closing r

variable {closing : Mark} {item : Parser α}

lemma Around.unfit {m : Mark} {u : Tokens} (h : Around m u) (hm : m ≠ closing) (v : Tokens) :
    Unfit closing (u ++ v) := by
  obtain ⟨g, x, g', rfl, hg, hx, hg'⟩ := h
  exact ⟨g, x, g' ++ v, m, by simp, hg, hx, hm⟩

lemma Dangling.many_eq [Consumes item] {r : Tokens} (h : Dangling n closing item r) :
    many item r = .done [] r := by
  obtain ⟨e, hr, he⟩ := h.open_item
  rw [many_of_failed item hr, if_neg (by simp [he])]

lemma dangling_of_blank {m : Mark} (inner : Parser α) {s : Tokens} (hs : Blank s) :
    Dangling n closing (around m >>= fun _ => inner) s :=
  ⟨⟨_, bind_of_failed _ (around_of_blank hs), rfl⟩, Or.inl hs⟩

/-- The closing mark does not fit what a list leaves at the end of the tokens. -/
lemma Dangling.closedBy_failed {r : Tokens} (h : Dangling n closing item r) (a : β) :
    AtCut n r (closedBy closing a r) := by
  rcases h.begun with hr | ⟨hsev, g, x, w, m, rfl, hg, hx, hne⟩
  · rw [closedBy_of_blank a hr]
    exact iff_of_true blank_nil (severed_of_blank n hr)
  · have hsig : x.value.isTrivia = false := by rw [hx]; rfl
    rw [closedBy_of_ne a hg hsig (by rw [hx]; simpa using hne)]
    exact iff_of_false (not_blank_cons hsig w) (by simp [hsev])

lemma cut_closedBy (a : α) (s : Tokens) :
    closedBy closing a (s ++ t) = (closedBy closing a s).append t ∨
      AtCut n s (closedBy closing a s) := by
  rcases exists_blank_append s with hs | ⟨g, x, w, rfl, hg, hx⟩
  · rw [closedBy_of_blank a hs]
    exact Or.inr (iff_of_true blank_nil (severed_of_blank n hs))
  · refine Or.inl ?_
    rw [List.append_assoc, List.cons_append]
    by_cases hc : x.value = .mark closing
    · rw [closedBy_of_eq a hg hc, closedBy_of_eq a hg hc]
      rfl
    · rw [closedBy_of_ne a hg hx hc, closedBy_of_ne a hg hx hc]
      rfl

/-- What a body leaves dangling is not its closing mark. -/
lemma cut_body_closedBy (body : Parser (List α)) [Steady Pending.step n.fresh body]
    (hbody : ∀ s, body (s ++ t) = (body s).append t ∨ Ends n (Dangling n closing item) s (body s)) :
    Cut n t (body >>= closedBy closing) (body >>= closedBy closing) := by
  refine ⟨fun s => ?_⟩
  cases hs : body s with
  | failed e =>
      have h := hbody s
      rw [hs] at h
      rw [bind_of_failed _ hs]
      exact h.imp_left fun h => bind_of_failed _ h
  | done a r =>
      have h := hbody s
      rw [hs] at h
      obtain ⟨u, rfl, hu⟩ := Steady.exists_append Pending.step n.fresh hs
      rw [bind_of_done _ hs]
      rcases h with h | h
      · rw [bind_of_done _ h]
        exact (cut_closedBy a r).imp_right (ends_append hu)
      · exact Or.inr (ends_append hu (h.closedBy_failed a))

/-- A list in parentheses or brackets can be cut anywhere. -/
lemma cut_enclosed (opening : Mark) (body : Parser (List α)) [Steady Pending.step n.fresh body]
    [Forward body] (ho : Enclosure.outside.fresh.step (.mark opening) = n.fresh)
    (hbody : ∀ s, body (s ++ t) = (body s).append t ∨ Ends n (Dangling n closing item) s (body s)) :
    Cut .outside t (enclosed opening closing body) (enclosed opening closing body) := by
  have hcut := cut_body_closedBy body hbody
  have hforward : Forward (body >>= closedBy closing) := by
    unfold closedBy
    infer_instance
  have hcommit : Cut n t (commit (gap >>= fun _ => body >>= closedBy closing))
      (commit (gap >>= fun _ => body >>= closedBy closing)) := inferInstance
  refine ⟨fun s => ?_⟩
  cases s with
  | nil => exact Or.inr (iff_of_true blank_nil (severed_of_blank .outside blank_nil))
  | cons x w =>
      by_cases hx : x.value = .mark opening
      · have hu : scanned Pending.step Enclosure.outside.fresh [x] = n.fresh := by
          rw [scanned_cons _ _ (by rw [hx]; rfl), hx, ho]
          rfl
        have hopen : ∀ w, enclosed opening closing body (x :: w)
            = commit (gap >>= fun _ => body >>= closedBy closing) w := fun w =>
          bind_of_done _ (mark_cons_of_eq w hx)
        rw [List.cons_append, hopen, hopen]
        exact (Cut.cut w).imp_right (ends_append hu)
      · refine Or.inl ?_
        have hne : ∀ w, enclosed opening closing body (x :: w)
            = .failed ⟨false, [.mark opening], x :: w, none⟩ := fun w =>
          bind_of_failed _ (mark_cons_of_ne w hx)
        rw [List.cons_append, hne, hne]
        rfl

lemma separated_of_many {D : Tokens → Prop} (inner : Parser α) (separator : Parser β)
    [Consumes inner] [Keeps separator] [Steady Pending.step n.fresh inner]
    (hfirst : ∀ s, inner (s ++ t) = (inner s).append t ∨ Ends n D s (inner s))
    (hmany : ∀ s, many (separator >>= fun _ => inner) (s ++ t)
        = (many (separator >>= fun _ => inner) s).append t ∨
      Ends n D s (many (separator >>= fun _ => inner) s))
    (hD : ∀ r, D r → Ends n D r (many (separator >>= fun _ => inner) r)) (s : Tokens) :
    separated inner separator (s ++ t) = (separated inner separator s).append t ∨
      Ends n D s (separated inner separator s) := by
  unfold separated
  cases hs : inner s with
  | failed e =>
      have h := hfirst s
      rw [hs] at h
      rw [bind_of_failed _ hs]
      exact h.imp_left fun h => bind_of_failed _ h
  | done a r =>
      have h := hfirst s
      rw [hs] at h
      obtain ⟨u, rfl, hu⟩ := Steady.exists_append Pending.step n.fresh hs
      have hr : (inner (u ++ r ++ t) = .done a (r ++ t) ∧
          many (separator >>= fun _ => inner) (r ++ t)
            = (many (separator >>= fun _ => inner) r).append t) ∨
          Ends n D r (many (separator >>= fun _ => inner) r) := by
        rcases h with h | hDr
        · exact (hmany r).imp_left fun hr => ⟨h, hr⟩
        · exact Or.inr (hD r hDr)
      rw [bind_of_done _ hs]
      cases hmr : many (separator >>= fun _ => inner) r with
      | failed e =>
          rw [hmr] at hr
          rw [bind_of_failed _ hmr]
          refine hr.imp (fun hr => ?_) fun hr => ends_append (o := .failed e) hu hr
          exact (bind_of_done _ hr.1).trans (bind_of_failed _ hr.2)
      | done as r' =>
          rw [hmr] at hr
          rw [bind_of_done _ hmr]
          refine hr.imp (fun hr => ?_) fun hr => hr
          exact (bind_of_done _ hr.1).trans (bind_of_done _ hr.2)

/-- The items behind the first one of a list are decided by their tokens, or these end inside them.
The case to look at is the item behind a separator. -/
lemma many_around_append_or_ends {m : Mark} (inner : Parser α) [Consumes inner]
    [Steady Pending.step n.fresh (around m >>= fun _ => inner)]
    (hm : (n.fresh.step (.mark m)).lead ≠ .nothing) (hmc : m ≠ closing)
    (hnil : ∃ e, inner [] = .failed e ∧ e.committed = false)
    (hnext : ∀ u y w, Around m u → y.value.isTrivia = false →
      inner (y :: w ++ t) = (inner (y :: w)).append t ∨
        Ends n (Dangling n closing (around m >>= fun _ => inner)) (u ++ y :: w)
          (many (around m >>= fun _ => inner) (u ++ y :: w))) (s : Tokens) :
    many (around m >>= fun _ => inner) (s ++ t)
        = (many (around m >>= fun _ => inner) s).append t ∨
      Ends n (Dangling n closing (around m >>= fun _ => inner)) s
        (many (around m >>= fun _ => inner) s) := by
  refine many_append_or_ends n t (around m >>= fun _ => inner) (fun s => ?_) s
  rcases around_cases m s with hs | ⟨g, x, w, rfl, hg, hsig, hx⟩ | hs | ⟨u, y, w, rfl, hu, hy⟩
  · have hdangling : Dangling n closing (around m >>= fun _ => inner) s :=
      dangling_of_blank inner hs
    exact Or.inr (by rw [hdangling.many_eq]; exact hdangling)
  · refine Or.inl ?_
    rw [List.append_assoc, List.cons_append, bind_of_failed _ (around_of_ne hg hsig hx),
      bind_of_failed _ (around_of_ne hg hsig hx)]
    rfl
  · -- Nothing follows the separator, so the attempt is forgotten and the separator left.
    obtain ⟨e, hnil, he⟩ := hnil
    have hdangling : Dangling n closing (around m >>= fun _ => inner) s := by
      refine ⟨⟨e, by rw [hs.bind_eq, hnil], he⟩, Or.inr ⟨?_, ?_⟩⟩
      · rw [severed, hs.scanned_eq]
        simpa using hm
      · simpa using hs.unfit hmc []
    exact Or.inr (by rw [hdangling.many_eq]; exact hdangling)
  · rw [List.append_assoc, List.cons_append, hu.bind_append _ hy, hu.bind_append _ hy]
    exact hnext u y w hu hy

/-- A list is decided by its tokens, or they end inside it. -/
lemma separated_append_or_ends {m : Mark} (inner : Parser α) [Consumes inner]
    [Steady Pending.step n.fresh inner]
    [Steady Pending.step n.fresh (around m >>= fun _ => inner)]
    (hm : (n.fresh.step (.mark m)).lead ≠ .nothing) (hmc : m ≠ closing)
    (hnil : ∃ e, inner [] = .failed e ∧ e.committed = false)
    (hfirst : ∀ s, inner (s ++ t) = (inner s).append t ∨
      Ends n (Dangling n closing (around m >>= fun _ => inner)) s (inner s))
    (hnext : ∀ u y w, Around m u → y.value.isTrivia = false →
      inner (y :: w ++ t) = (inner (y :: w)).append t ∨
        Ends n (Dangling n closing (around m >>= fun _ => inner)) (u ++ y :: w)
          (many (around m >>= fun _ => inner) (u ++ y :: w))) (s : Tokens) :
    separated inner (around m) (s ++ t) = (separated inner (around m) s).append t ∨
      Ends n (Dangling n closing (around m >>= fun _ => inner)) s
        (separated inner (around m) s) := by
  refine separated_of_many inner (around m) hfirst
    (many_around_append_or_ends inner hm hmc hnil hnext) (fun r hr => ?_) s
  rw [hr.many_eq]
  exact hr

variable (t)

lemma ends_mono {D D' : Tokens → Prop} {s : Tokens} {o : Outcome α} (h : Ends n D s o)
    (hD : ∀ r, D r → D' r) : Ends n D' s o := by
  cases o with
  | done a r => exact hD r h
  | failed e => exact h

/-- An item that runs out is forgotten, and all of it is left with its separator. -/
lemma Around.forgotten {m : Mark} {u w : Tokens} {y : Located Token} {e : Failure}
    {inner : Parser α} [Consumes inner] (hu : Around m u) (hm : m ≠ closing)
    (hy : y.value.isTrivia = false) (hw : inner (y :: w) = .failed e) (he : e.committed = false)
    (hsev : severed n (u ++ y :: w) = true) :
    Ends n (Dangling n closing (around m >>= fun _ => inner)) (u ++ y :: w)
      (many (around m >>= fun _ => inner) (u ++ y :: w)) := by
  have hdangling : Dangling n closing (around m >>= fun _ => inner) (u ++ y :: w) :=
    ⟨⟨e, by rw [hu.bind_append _ hy, hw], he⟩, Or.inr ⟨hsev, hu.unfit hm _⟩⟩
  rw [hdangling.many_eq]
  exact hdangling

lemma anyName_append (z : Located Token) (w : Tokens) :
    anyName (z :: w ++ t) = (anyName (z :: w)).append t := by
  cases hz : nameOf z.value <;> simp [anyName, label, token, hz] <;> rfl

lemma anyName_bind_append (f : Text → β) (z : Located Token) (w : Tokens) :
    (anyName >>= fun name => pure (f name)) (z :: w ++ t)
      = ((anyName >>= fun name => pure (f name)) (z :: w)).append t := by
  cases hz : nameOf z.value <;> simp [anyName, label, token, bind_apply, hz] <;> rfl

lemma rules_append_or_ends (s : Tokens) :
    separated rule listComma (s ++ t) = (separated rule listComma s).append t ∨
      Ends .rules (Dangling .rules .rightParen (listComma >>= fun _ => rule)) s
        (separated rule listComma s) := by
  have : Steady Pending.step Enclosure.rules.fresh (around .comma >>= fun _ => rule) :=
    steady_around_bind .comma rule rfl
  refine separated_append_or_ends rule (by decide) (by decide) ⟨_, rfl, rfl⟩ (fun s => ?_)
    (fun u y w hu hy => ?_) s
  · exact (Cut.cut s).imp_right fun h => ends_mono h fun r => dangling_of_blank rule
  · cases hp : percentageOf y.value with
    | none =>
        refine Or.inl ?_
        rw [List.cons_append, rule_cons_of_none _ hp, rule_cons_of_none _ hp]
        rfl
    | some p =>
        have hstep : (Enclosure.rules.fresh.step (.mark .comma)).step y.value
            = ⟨.rules, .percentage⟩ := by
          revert hp
          cases y.value <;> intro hp <;> cases hp
          rfl
        have hsev : ∀ w, severed .rules (u ++ y :: w)
            = ((scanned Pending.step ⟨.rules, .percentage⟩ w).lead != .nothing) := by
          intro w
          rw [severed, scanned_append, hu.scanned_eq, scanned_cons _ _ hy, hstep]
        rcases around_cases .arrow w with hw | ⟨g, x, w, rfl, hg, hsig, hx⟩ | hw |
          ⟨v, z, w, rfl, hv, hz⟩
        · refine Or.inr (hu.forgotten (by decide) hy
            ((rule_cons_of_some w hp).trans (bind_of_failed _ (around_of_blank hw))) rfl ?_)
          rw [hsev, scanned_of_blank _ hw]
          rfl
        · refine Or.inl ?_
          rw [List.cons_append, rule_cons_of_some _ hp, rule_cons_of_some _ hp, List.append_assoc,
            List.cons_append, bind_of_failed _ (around_of_ne hg hsig hx),
            bind_of_failed _ (around_of_ne hg hsig hx)]
          rfl
        · refine Or.inr (hu.forgotten (by decide) hy
            ((rule_cons_of_some w hp).trans (hw.bind_eq _)) rfl ?_)
          rw [hsev, hw.scanned_eq]
          rfl
        · refine Or.inl ?_
          rw [List.cons_append, rule_cons_of_some _ hp, rule_cons_of_some _ hp, List.append_assoc,
            List.cons_append, hv.bind_append _ hz, hv.bind_append _ hz]
          exact anyName_bind_append t _ z w

/-- An item that is read up to something dangling is the last one. -/
lemma Around.last {m : Mark} {u w r : Tokens} {y : Located Token} {a : α} {inner : Parser α}
    [Consumes inner] (hu : Around m u) (hy : y.value.isTrivia = false)
    (hw : inner (y :: w) = .done a r) (hr : Dangling n closing (around m >>= fun _ => inner) r) :
    Ends n (Dangling n closing (around m >>= fun _ => inner)) (u ++ y :: w)
      (many (around m >>= fun _ => inner) (u ++ y :: w)) := by
  rw [many_of_done _ ((hu.bind_append _ hy).trans hw), ends_map, hr.many_eq]
  exact hr

/-- A modifier without a value ends with its key. -/
lemma modifier_of_no_value {y : Located Token} {w : Tokens} {key : String} {e : Failure}
    (hk : nameOf y.value = some key)
    (h : (around .colon >>= fun _ => label .modifierValue (token modifierValueOf)) w = .failed e)
    (he : e.committed = false) : modifier (y :: w) = .done ⟨⟨key, y.span⟩, none⟩ w := by
  rw [modifier_cons_of_some _ hk, bind_of_done _ (optional_of_open h he)]
  rfl

/-- Behind a colon one token settles the value. -/
lemma modifier_append_of_colon {y z : Located Token} {v w : Tokens} {key : String}
    (hk : nameOf y.value = some key) (hv : Around .colon v) (hz : z.value.isTrivia = false) :
    modifier (y :: (v ++ z :: w) ++ t) = (modifier (y :: (v ++ z :: w))).append t := by
  have hcolon : ∀ w, (around .colon >>= fun _ => label .modifierValue (token modifierValueOf))
      (v ++ z :: w) = label .modifierValue (token modifierValueOf) (z :: w) := fun w =>
    hv.bind_append _ hz
  rw [List.cons_append, List.append_assoc, List.cons_append]
  cases hvalue : modifierValueOf z.value with
  | none =>
      have hfail : ∀ w, label .modifierValue (token modifierValueOf) (z :: w)
          = .failed ⟨false, [.modifierValue], z :: w, none⟩ := fun w => by
        simp [label, token, hvalue]
      rw [modifier_of_no_value hk ((hcolon _).trans (hfail _)) rfl,
        modifier_of_no_value hk ((hcolon _).trans (hfail _)) rfl]
      simp [Outcome.append]
  | some value =>
      have hread : ∀ w, label .modifierValue (token modifierValueOf) (z :: w)
          = .done ⟨value, z.span⟩ w := fun w => by
        simp [label, token, hvalue]
      rw [modifier_cons_of_some _ hk, modifier_cons_of_some _ hk,
        bind_of_done _ (optional_of_done ((hcolon _).trans (hread _))),
        bind_of_done _ (optional_of_done ((hcolon _).trans (hread _)))]
      rfl

lemma modifier_append_or_dangling (y : Located Token) (w : Tokens) :
    modifier (y :: w ++ t) = (modifier (y :: w)).append t ∨
      ∃ a r, modifier (y :: w) = .done a r ∧
        Dangling .modifiers .rightBracket (around .comma >>= fun _ => modifier) r := by
  cases hk : nameOf y.value with
  | none =>
      refine Or.inl ?_
      rw [List.cons_append, modifier_cons_of_none _ hk, modifier_cons_of_none _ hk]
      rfl
  | some key =>
      rcases around_cases .colon w with hblank | ⟨g, x, w, rfl, hg, hsig, hx⟩ | hcolon |
          ⟨v, z, w, rfl, hv, hz⟩
      · refine Or.inr ⟨_, w,
          modifier_of_no_value hk (bind_of_failed _ (around_of_blank hblank)) rfl, ?_⟩
        exact dangling_of_blank modifier hblank
      · refine Or.inl ?_
        rw [List.cons_append,
          modifier_of_no_value hk (bind_of_failed _ (around_of_ne hg hsig hx)) rfl,
          List.append_assoc, List.cons_append,
          modifier_of_no_value hk (bind_of_failed _ (around_of_ne hg hsig hx)) rfl]
        simp [Outcome.append]
      · -- The colon is left as well when nothing follows it.
        refine Or.inr ⟨_, w, modifier_of_no_value hk (hcolon.bind_eq _) rfl, ?_, Or.inr ⟨?_, ?_⟩⟩
        · obtain ⟨g, x, g', rfl, hg, hx, -⟩ := hcolon
          exact ⟨_, bind_of_failed _ (around_of_ne hg (by rw [hx]; rfl) (by rw [hx]; decide)), rfl⟩
        · rw [severed, hcolon.scanned_eq]
          rfl
        · simpa using hcolon.unfit (by decide) []
      · exact Or.inl (modifier_append_of_colon t hk hv hz)

lemma modifiers_append_or_ends (s : Tokens) :
    separated modifier listComma (s ++ t) = (separated modifier listComma s).append t ∨
      Ends .modifiers (Dangling .modifiers .rightBracket (listComma >>= fun _ => modifier)) s
        (separated modifier listComma s) := by
  have : Steady Pending.step Enclosure.modifiers.fresh (around .comma >>= fun _ => modifier) :=
    steady_around_bind .comma modifier rfl
  refine separated_append_or_ends modifier (by decide) (by decide) ⟨_, rfl, rfl⟩ (fun s => ?_)
    (fun u y w hu hy => ?_) s
  · cases s with
    | nil => exact Or.inr (iff_of_true blank_nil (severed_of_blank _ blank_nil))
    | cons y w =>
        refine (modifier_append_or_dangling t y w).imp_right ?_
        rintro ⟨a, r, h, hr⟩
        rw [h]
        exact hr
  · refine (modifier_append_or_dangling t y w).imp_right ?_
    rintro ⟨a, r, h, hr⟩
    exact hu.last hy h hr

end Lists

/-! ## Rollouts and chains -/

section Chains

instance steady_parentheses : Steady Pending.step Enclosure.outside.fresh
    (enclosed .leftParen .rightParen (separated rule listComma)) :=
  steady_enclosed .leftParen .rightParen _ rfl rfl

instance steady_brackets : Steady Pending.step Enclosure.outside.fresh
    (enclosed .leftBracket .rightBracket (separated modifier listComma)) :=
  steady_enclosed .leftBracket .rightBracket _ rfl rfl

instance steady_rollout : Steady Pending.step Enclosure.outside.fresh rollout := by
  rw [rollout_eq_enclosed]
  infer_instance

instance steady_bracketed : Steady Pending.step Enclosure.outside.fresh bracketed := by
  rw [bracketed_eq_enclosed]
  infer_instance

instance settles_node : Settles .outside node := by unfold node; infer_instance

instance steady_chain : Steady Pending.step Enclosure.outside.fresh chain := by
  have : Steady Pending.step Enclosure.outside.fresh (around .greater >>= fun _ => node) :=
    steady_around_bind .greater node rfl
  unfold chain
  infer_instance

variable (t : Tokens)

instance peeks_enclosed (opening closing : Mark) (body : Parser α) :
    Peeks t (enclosed opening closing body) (enclosed opening closing body) := by
  unfold enclosed; infer_instance

instance cut_rollout : Cut .outside t rollout rollout := by
  have hcut := cut_enclosed .leftParen (separated rule listComma) rfl (rules_append_or_ends t)
  have hpeeks : Peeks t
      (gap >>= fun _ => enclosed .leftParen .rightParen (separated rule listComma))
      (gap >>= fun _ => enclosed .leftParen .rightParen (separated rule listComma)) :=
    peeks_skip_bind t Token.isTrivia (fun _ h => h) _ _
  rw [rollout_eq_enclosed]
  infer_instance

instance cut_bracketed : Cut .outside t bracketed bracketed := by
  have hcut := cut_enclosed .leftBracket (separated modifier listComma) rfl
    (modifiers_append_or_ends t)
  rw [bracketed_eq_enclosed]
  infer_instance

instance peeks_bracketed : Peeks t bracketed bracketed := by
  rw [bracketed_eq_enclosed]
  refine peeks_skip_bind t Token.isInlineTrivia (fun x h => ?_) _ _
  cases x <;> first | rfl | cases h

instance cut_node : Cut .outside t node node := by unfold node; infer_instance

instance peeks_node : Peeks t node node := by unfold node; infer_instance

/-- A node that fails for good has a name. -/
lemma name_of_node_committed {y : Located Token} {w : Tokens} {e : Failure}
    (h : node (y :: w) = .failed e) (he : e.committed = true) :
    ∃ name, nameOf y.value = some name := by
  cases hy : nameOf y.value with
  | some name => exact ⟨name, rfl⟩
  | none =>
      rw [node_cons_of_none w hy] at h
      cases h
      cases he

lemma nodes_append_or_ends (s : Tokens) :
    separated node (around .greater) (s ++ t) = (separated node (around .greater) s).append t ∨
      Ends .outside (Dangling .outside .rightBrace (around .greater >>= fun _ => node)) s
        (separated node (around .greater) s) := by
  have : Steady Pending.step Enclosure.outside.fresh (around .greater >>= fun _ => node) :=
    steady_around_bind .greater node rfl
  refine separated_append_or_ends node (by decide) (by decide) ⟨_, rfl, rfl⟩ (fun s => ?_)
    (fun u y w hu hy => ?_) s
  · exact (Cut.cut s).imp_right fun h => ends_mono h fun r => dangling_of_blank node
  · have hcut := append_or_atCut .outside t node node (y :: w)
    cases hw : node (y :: w) with
    | done a r =>
        rw [hw] at hcut
        exact hcut.imp_right fun hr => hu.last hy hw (dangling_of_blank node hr)
    | failed e =>
        cases he : e.committed with
        | false =>
            have hopen := append_or_blank t node node hw he
            rw [hw] at hopen
            exact hopen.imp_right fun h => absurd h (not_blank_cons hy w)
        | true =>
            rw [hw] at hcut
            refine hcut.imp_right fun h => ?_
            obtain ⟨name, hname⟩ := name_of_node_committed hw he
            -- The name has closed what the separator had begun.
            have hname' : ∀ q : Lead,
                scanned Pending.step ⟨.outside, q⟩ [y] = Enclosure.outside.fresh :=
              fun q => by rw [scanned_cons _ _ hy, step_eq_fresh_of_name hname q]; rfl
            have hboth : scanned Pending.step Enclosure.outside.fresh (u ++ [y])
                = Enclosure.outside.fresh := by
              rw [scanned_append, hu.scanned_eq]
              exact hname' _
            have hsev : severed .outside (u ++ y :: w) = severed .outside (y :: w) := by
              rw [List.append_cons, severed_append hboth, ← List.singleton_append,
                severed_append (hname' .nothing)]
            rw [many_of_failed _ ((hu.bind_append _ hy).trans hw), if_pos he, Ends, hsev]
            exact h

lemma chain_append_or_ends (s : Tokens) : chain (s ++ t) = (chain s).append t ∨
    Ends .outside (Dangling .outside .rightBrace (around .greater >>= fun _ => node)) s
      (chain s) := by
  have h := nodes_append_or_ends t s
  cases hs : separated node (around .greater) s with
  | done nodes r =>
      rw [hs] at h
      have hchain : ∀ {s r}, separated node (around .greater) s = .done nodes r →
          chain s = .done ⟨nodes⟩ r := fun h => bind_of_done _ (label_done.2 h)
      rw [hchain hs]
      exact h.imp_left fun h => hchain h
  | failed e =>
      rw [hs] at h
      have hchain : ∀ {s e}, separated node (around .greater) s = .failed e →
          chain s = .failed { e with expected := e.expected ++ [.component] } := fun h =>
        bind_of_failed _ (by rw [label, h])
      rw [hchain hs]
      exact h.imp_left fun h => hchain h

end Chains

/-! ## Sections -/

section Sections

lemma header_failed {s : Tokens} {e : Failure} (h : header s = .failed e) :
    e.committed = false := by
  cases s with
  | nil => cases h; rfl
  | cons x w =>
      cases hx : identifierOf x.value with
      | none =>
          rw [header_cons_of_none w hx] at h
          cases h
          rfl
      | some key =>
          rw [header_cons_of_some w hx] at h
          rcases exists_blank_append w with hw | ⟨g, y, w, rfl, hg, hy⟩
          · rw [closedBy_of_blank _ hw] at h
            cases h
            rfl
          · by_cases hc : y.value = .mark .colon
            · rw [closedBy_of_eq _ hg hc] at h
              cases h
            · rw [closedBy_of_ne _ hg hy hc] at h
              cases h
              rfl

lemma sectionEnd_of_brace {x : Located Token} (w : Tokens) (hx : x.value = .mark .rightBrace) :
    sectionEnd (x :: w) = .done () (x :: w) :=
  orElse_of_done (lookahead_of_done (bind_of_done _ (mark_cons_of_eq w hx)))

section NoBrace

variable {x : Located Token} {w : Tokens} (hx : x.value ≠ .mark .rightBrace)

include hx

lemma sectionEnd_of_header {key : Text} {r : Tokens} (h : header (x :: w) = .done key r) :
    sectionEnd (x :: w) = .done () (x :: w) :=
  orElse_of_open_done (lookahead_of_open (bind_of_failed _ (mark_cons_of_ne w hx)) rfl) rfl
    (lookahead_of_done (bind_of_done _ h))

lemma sectionEnd_of_no_header {e : Failure} (h : header (x :: w) = .failed e) :
    sectionEnd (x :: w) = .failed { e with rest := x :: w } := by
  have hheader : lookahead (header >>= fun _ => pure ()) (x :: w)
      = .failed { e with rest := x :: w } :=
    lookahead_of_open (bind_of_failed _ h) (header_failed h)
  have hbrace : lookahead (mark .rightBrace >>= fun _ => pure ()) (x :: w)
      = .failed ⟨false, [.mark .rightBrace], x :: w, none⟩ :=
    lookahead_of_open (bind_of_failed _ (mark_cons_of_ne w hx)) rfl
  have he : e.committed = false := header_failed h
  rw [sectionEnd, orElse_of_open_open hbrace rfl hheader he]

end NoBrace

variable (t : Tokens)

/-- A header that more tokens could complete is the last token that counts. -/
lemma sectionEnd_append_or_last {x : Located Token} (w : Tokens) :
    sectionEnd (x :: w ++ t) = (sectionEnd (x :: w)).append t ∨
      Blank w ∧ ∃ name, identifierOf x.value = some name := by
  rw [List.cons_append]
  by_cases hx : x.value = .mark .rightBrace
  · refine Or.inl ?_
    rw [sectionEnd_of_brace _ hx, sectionEnd_of_brace _ hx]
    rfl
  cases hname : identifierOf x.value with
  | none =>
      refine Or.inl ?_
      rw [sectionEnd_of_no_header hx (header_cons_of_none _ hname),
        sectionEnd_of_no_header hx (header_cons_of_none _ hname)]
      rfl
  | some name =>
      rcases exists_blank_append w with hw | ⟨g, y, w, rfl, hg, hy⟩
      · exact Or.inr ⟨hw, name, rfl⟩
      refine Or.inl ?_
      rw [List.append_assoc, List.cons_append]
      by_cases hc : y.value = .mark .colon
      · have hheader : ∀ w, header (x :: (g ++ y :: w)) = .done ⟨name, x.span⟩ w := fun w =>
          (header_cons_of_some _ hname).trans (closedBy_of_eq _ hg hc)
        rw [sectionEnd_of_header hx (hheader _), sectionEnd_of_header hx (hheader _)]
        simp [Outcome.append]
      · have hheader : ∀ w,
            header (x :: (g ++ y :: w)) = .failed ⟨false, [.mark .colon], y :: w, none⟩ :=
          fun w => (header_cons_of_some _ hname).trans (closedBy_of_ne _ hg hy hc)
        rw [sectionEnd_of_no_header hx (hheader _), sectionEnd_of_no_header hx (hheader _)]
        simp [Outcome.append, Failure.append]

/-- A name with nothing but trivia behind it is a chain. -/
lemma chain_of_last {x : Located Token} {w : Tokens} {name : String}
    (hx : nameOf x.value = some name) (hw : Blank w) :
    chain (x :: w) = .done ⟨[⟨⟨name, x.span⟩, []⟩]⟩ w := by
  obtain ⟨r, hbracketed, -⟩ := bracketed_of_blank hw
  have hnode : node (x :: w) = .done ⟨⟨name, x.span⟩, []⟩ w := by
    rw [node_cons_of_some w hx, bind_of_done _ (optional_of_open hbracketed rfl)]
    rfl
  have hdangling : Dangling .outside .rightBrace (around .greater >>= fun _ => node) w :=
    dangling_of_blank node hw
  have hnodes : separated node (around .greater) (x :: w) = .done [⟨⟨name, x.span⟩, []⟩] w := by
    rw [separated, bind_of_done _ hnode, bind_of_done _ hdangling.many_eq]
    rfl
  exact bind_of_done _ (label_done.2 hnodes)

/-- What a chain leaves dangling at the end of the tokens is no more than that to a section. -/
lemma Dangling.components {r : Tokens}
    (h : Dangling .outside .rightBrace (around .greater >>= fun _ => node) r) :
    AtCut .outside r (manyUntil Token.isTrivia sectionEnd chain r) := by
  rcases h.begun with hr | ⟨hsev, g, x, w, m, rfl, hg, hx, hm⟩
  · exact atCut_of_blank .outside hr
  · have hsig : x.value.isTrivia = false := by rw [hx]; rfl
    have hbrace : x.value ≠ .mark .rightBrace := by
      rw [hx]
      simpa using hm
    have hstop := sectionEnd_of_no_header hbrace (header_cons_of_none w (by rw [hx]; rfl))
    have hchain : chain (x :: w) = .failed ⟨false, [.name, .component], x :: w, none⟩ := by
      have hnode := node_cons_of_none w (y := x) (by rw [hx]; rfl)
      refine bind_of_failed _ ?_
      rw [label, separated, bind_of_failed _ hnode]
      rfl
    rw [manyUntil_of_failed chain sectionEnd (dropWhile_trivia_append hg hsig) hstop rfl hchain]
    exact iff_of_false (not_blank_cons hsig w) (by simp [hsev])

instance cut_components : Cut .outside t components components := by
  have hcut : Cut .outside t (manyUntil Token.isTrivia sectionEnd chain)
      (manyUntil Token.isTrivia sectionEnd chain) := by
    refine ⟨manyUntil_append_or_atCut .outside t sectionEnd chain (fun x w hx => ?_)
      fun x w e hx hs he => ?_⟩
    · refine (sectionEnd_append_or_last t w).imp_right ?_
      rintro ⟨hw, name, hname⟩
      -- The name is read as a chain, and nothing is left for the next turn.
      have hd : (x :: w).dropWhile (fun x => x.value.isTrivia) = x :: w :=
        dropWhile_trivia_cons hx _
      have hstop : ∃ e, sectionEnd (x :: w) = .failed e ∧ e.committed = false := by
        have hheader := (header_cons_of_some w hname).trans (closedBy_of_blank _ hw)
        exact ⟨_, sectionEnd_of_no_header
          (by rintro hbrace; rw [hbrace] at hname; cases hname) hheader, rfl⟩
      obtain ⟨e, hs, he⟩ := hstop
      have hc := chain_of_last (x := x) (name_of_identifier hname) hw
      rw [manyUntil_of_done chain sectionEnd hd hs he hc]
      refine ends_map.2 (ends_append (u := [x]) ?_ (atCut_of_blank .outside hw))
      rw [scanned_cons _ _ hx, step_eq_fresh_of_name (name_of_identifier hname)]
      rfl
    · have hd : (x :: w).dropWhile (fun x => x.value.isTrivia) = x :: w :=
        dropWhile_trivia_cons hx _
      refine (chain_append_or_ends t (x :: w)).imp_right fun h => ?_
      cases hc : chain (x :: w) with
      | failed e' =>
          rw [hc] at h
          rw [manyUntil_of_failed chain sectionEnd hd hs he hc]
          exact h
      | done c r =>
          rw [hc] at h
          rw [manyUntil_of_done chain sectionEnd hd hs he hc]
          refine ends_map.2 ?_
          obtain ⟨u, hu, hun⟩ := Steady.exists_append Pending.step Enclosure.outside.fresh hc
          rw [hu]
          exact ends_append hun h.components
  unfold components
  exact cut_bind_pure .outside t _ _ _

end Sections

/-! ## Names

One comma may follow the last name, so a comma that is left at the end of the tokens is read after
all. -/

section Names

variable (t : Tokens)

lemma nameList_append_or_ends (s : Tokens) :
    separated anyName listComma (s ++ t) = (separated anyName listComma s).append t ∨
      Ends .outside (fun r => Blank r ∨ Around .comma r) s (separated anyName listComma s) := by
  have hlast : ∀ r, Blank r ∨ Around .comma r →
      Ends .outside (fun r => Blank r ∨ Around .comma r) r
        (many (listComma >>= fun _ => anyName) r) := by
    intro r hr
    have hfailed : ∃ e, (listComma >>= fun _ => anyName) r = .failed e ∧ e.committed = false := by
      rcases hr with hr | hr
      · exact ⟨_, bind_of_failed _ (around_of_blank hr), rfl⟩
      · exact ⟨_, hr.bind_eq fun _ => anyName, rfl⟩
    obtain ⟨e, he, hopen⟩ := hfailed
    rw [many_of_failed _ he, if_neg (by simp [hopen])]
    exact hr
  refine separated_of_many anyName listComma (fun s => ?_)
    (many_append_or_ends .outside t _ fun s => ?_) hlast s
  · exact (Cut.cut s).imp_right fun h => ends_mono h fun _ => Or.inl
  · rcases around_cases .comma s with
      hs | ⟨g, x, w, rfl, hg, hsig, hx⟩ | hs | ⟨u, y, w, rfl, hu, hy⟩
    · exact Or.inr (hlast s (Or.inl hs))
    · refine Or.inl ?_
      rw [List.append_assoc, List.cons_append, listComma,
        bind_of_failed _ (around_of_ne hg hsig hx), bind_of_failed _ (around_of_ne hg hsig hx)]
      rfl
    · exact Or.inr (hlast s (Or.inr hs))
    · refine Or.inl ?_
      rw [List.append_assoc, List.cons_append, listComma, hu.bind_append _ hy, hu.bind_append _ hy]
      exact anyName_append t y w

instance cut_names : Cut .outside t names names := by
  refine ⟨fun s => ?_⟩
  have h := nameList_append_or_ends t s
  unfold names
  cases hs : separated anyName listComma s with
  | failed e =>
      rw [hs] at h
      have hnames : ∀ {s e}, separated anyName listComma s = .failed e →
          label .nameList (separated anyName listComma) s
            = .failed { e with expected := e.expected ++ [.nameList] } := fun h => by rw [label, h]
      rw [bind_of_failed _ (hnames hs)]
      exact h.imp_left fun h => bind_of_failed _ (hnames h)
  | done found r =>
      rw [hs] at h
      obtain ⟨u, rfl, hu⟩ := Steady.exists_append Pending.step Enclosure.outside.fresh hs
      rw [bind_of_done _ (label_done.2 hs)]
      have hrest : Cut .outside t
          (optional (gap >>= fun _ => mark .comma) >>= fun _ => (pure found : Parser (List Text)))
          (optional (gap >>= fun _ => mark .comma) >>= fun _ => pure found) := by
        have : Peeks t (gap >>= fun _ => mark .comma) (gap >>= fun _ => mark .comma) :=
          peeks_skip_bind t Token.isTrivia (fun _ h => h) _ _
        infer_instance
      rcases h with h | hr | ⟨g, x, g', rfl, hg, hx, hg'⟩
      · rw [bind_of_done _ (label_done.2 h)]
        exact (Cut.cut r).imp_right (ends_append hu)
      · exact Or.inr (ends_append hu (atCut_of_blank .outside hr))
      · refine Or.inr ?_
        have hcomma : (gap >>= fun _ => mark .comma) (g ++ x :: g') = .done x.span g' := by
          rw [gap_bind_append _ hg (by rw [hx]; rfl), mark_cons_of_eq g' hx]
        rw [bind_of_done _ (optional_of_done hcomma)]
        exact hg'

end Names

/-! ## Declarations -/

section Declarations

variable (t : Tokens)

instance : Cut .outside t gap1 gap1 := by unfold gap1; infer_instance

instance (item : Parser α) [Consumes item] [Steady Pending.step Enclosure.outside.fresh item]
    [Forward item] [Cut .outside t item item] : Cut .outside t (block item) (block item) := by
  unfold block; infer_instance

instance : Cut .outside t actor actor := by unfold actor; infer_instance

instance : Cut .outside t domain domain := by unfold domain; infer_instance

instance (start : Tokens) (key : String) :
    Cut .outside t (propertyValue start key) (propertyValue (start ++ t) key) := by
  unfold propertyValue
  split_ifs <;> infer_instance

instance : Cut .outside t property property := by unfold property; infer_instance

set_option synthInstance.maxSize 512 in
instance : Cut .outside t service service := by unfold service; infer_instance

instance (start : Tokens) (field : Option ExposureKey) :
    Cut .outside t (exposureLineOf start field) (exposureLineOf (start ++ t) field) := by
  cases field <;> (unfold exposureLineOf; infer_instance)

instance : Cut .outside t exposureLine exposureLine := by unfold exposureLine; infer_instance

instance (start : Tokens) (components : List ComponentDecl) (layer : Option Layer) :
    Cut .outside t (layered start components layer) (layered (start ++ t) components layer) := by
  cases layer <;> (unfold layered; infer_instance)

instance : Cut .outside t header header := by unfold header; infer_instance

instance : Cut .outside t layer layer := by unfold layer; infer_instance

/-! ### Lines -/

instance : Cut .outside t lineWord lineWord := by unfold lineWord; infer_instance

instance : Peeks t lineWord lineWord := by
  refine peeks_skip_bind t Token.isInlineTrivia (fun x h => ?_) _ _
  cases x <;> first | rfl | cases h

instance : Firm t (mark .rightBrace) (mark .rightBrace) := by
  unfold mark exactly; infer_instance

instance : Firm t (keyword .when) (keyword .when) := by
  unfold keyword exactly; infer_instance

instance : Cut .outside t endOfLine endOfLine := by unfold endOfLine; infer_instance

instance : Cut .outside t words words := by unfold words; infer_instance

instance {α : Type} (start : Tokens) (what : Expected) (span : Span) (form : Option α) :
    Cut .outside t (classified start what span form) (classified (start ++ t) what span form) := by
  cases form <;> (unfold classified; infer_instance)

instance (start : Span) : Cut .outside t (triggerBody start) (triggerBody start) := by
  unfold triggerBody; infer_instance

instance : Cut .outside t trigger trigger := by unfold trigger; infer_instance

instance : Cut .outside t action action := by unfold action; infer_instance

instance : Cut .outside t scenarioEnd scenarioEnd := by unfold scenarioEnd; infer_instance

instance : Peeks t scenarioEnd scenarioEnd := by unfold scenarioEnd; infer_instance

instance : Cut .outside t scenario scenario := by unfold scenario; infer_instance

/-! ### Whole programs -/

set_option synthInstance.maxSize 512 in
instance (start : Span) (k : Keyword) :
    Cut .outside t (declarationBody start k) (declarationBody start k) := by
  cases k <;> (unfold declarationBody)
  · unfold actorsBody; infer_instance
  · unfold actorBody; infer_instance
  · unfold domainsBody; infer_instance
  · unfold domainBody; infer_instance
  · unfold servicesBody; infer_instance
  · unfold serviceBody; infer_instance
  · unfold exposureBody; infer_instance
  · unfold archBody; infer_instance
  all_goals unfold useCaseBody; infer_instance

instance : Cut .outside t declaration declaration := by unfold declaration; infer_instance

instance : Cut .outside t declarations declarations := by unfold declarations; infer_instance

end Declarations

end Grammar

/-! ## The code of the diagnostic -/

/-- Where a text that is accepted breaks off, the code of the diagnostic tells what was pending: a
separator, with whatever there was of the item behind it, is reported as unexpected, and everything
else as incomplete. -/
theorem code_of_truncated {pre post : Tokens} {ds : List (Located Declaration)}
    (h : declarationsOfTokens (pre ++ post) = .ok ds) :
    (severed .outside pre = true →
      ∃ d, declarationsOfTokens pre = .error d ∧ d.code = some .unexpectedToken) ∧
    (severed .outside pre = false → (∃ ds', declarationsOfTokens pre = .ok ds') ∨
      ∃ d, declarationsOfTokens pre = .error d ∧ d.code = some .incompleteInput) := by
  cases hpre : declarations pre with
  | done ds' r =>
      have hok : declarationsOfTokens pre = .ok ds' := by rw [declarationsOfTokens, hpre]
      obtain ⟨u, hu, hscan⟩ := Steady.exists_append Pending.step Enclosure.outside.fresh hpre
      rw [declarations_done hpre, List.append_nil] at hu
      subst hu
      have hsev : severed .outside pre = false := by
        rw [severed, hscan]
        rfl
      refine ⟨fun h' => ?_, fun _ => Or.inl ⟨ds', hok⟩⟩
      rw [hsev] at h'
      cases h'
  | failed e =>
      have herror : declarationsOfTokens pre = .error (e.diagnostic pre) := by
        rw [declarationsOfTokens, hpre]
      have hcut : Blank e.rest ↔ severed .outside pre = false := by
        have hcut := append_or_atCut .outside post declarations declarations pre
        rw [hpre] at hcut
        refine hcut.resolve_left fun happend => ?_
        rw [declarationsOfTokens, happend] at h
        cases h
      refine ⟨fun hsev => ⟨_, herror, Failure.code_of_not_blank (fun hblank => ?_) pre⟩,
        fun hsev => Or.inr ⟨_, herror, Failure.code_of_blank (hcut.2 hsev) pre⟩⟩
      rw [hcut.1 hblank] at hsev
      cases hsev

/-- The tokens of `service S\x7bdeployment:canary(10%->a,20%->b)\x7d`. -/
def canaryTokens : Tokens :=
  [⟨.keyword .service, .between 0 7⟩, ⟨.whitespace, .between 7 8⟩, ⟨.identifier "S", .between 8 9⟩,
    ⟨.mark .leftBrace, .between 9 10⟩, ⟨.identifier "deployment", .between 10 20⟩,
    ⟨.mark .colon, .between 20 21⟩, ⟨.identifier "canary", .between 21 27⟩,
    ⟨.mark .leftParen, .between 27 28⟩, ⟨.percentage "10", .between 28 31⟩,
    ⟨.mark .arrow, .between 31 33⟩, ⟨.identifier "a", .between 33 34⟩,
    ⟨.mark .comma, .between 34 35⟩, ⟨.percentage "20", .between 35 38⟩,
    ⟨.mark .arrow, .between 38 40⟩, ⟨.identifier "b", .between 40 41⟩,
    ⟨.mark .rightParen, .between 41 42⟩, ⟨.mark .rightBrace, .between 42 43⟩]

/-- The declaration that they are. -/
def canaryDeclaration : Located Declaration :=
  ⟨.service ⟨⟨"S", .between 8 9⟩, [.deployment ⟨⟨"canary", .between 21 27⟩,
    [⟨⟨"10%", .between 28 31⟩, ⟨"a", .between 33 34⟩⟩,
      ⟨⟨"20%", .between 35 38⟩, ⟨"b", .between 40 41⟩⟩]⟩]⟩, .between 0 43⟩

/-- Behind the comma between the two rules they are severed. -/
theorem code_of_truncated_canary :
    declarationsOfTokens (canaryTokens.take 12 ++ canaryTokens.drop 12) = .ok [canaryDeclaration] ∧
      severed .outside (canaryTokens.take 12) = true ∧
      ∃ d, declarationsOfTokens (canaryTokens.take 12) = .error d ∧
        d.code = some .unexpectedToken := by
  have haccepted : declarationsOfTokens (canaryTokens.take 12 ++ canaryTokens.drop 12)
      = .ok [canaryDeclaration] := by decide +kernel
  have hsevered : severed .outside (canaryTokens.take 12) = true := by decide
  exact ⟨haccepted, hsevered, (code_of_truncated haccepted).1 hsevered⟩

/-- Behind the comma between two rules the input is not reported as incomplete. -/
theorem truncated_not_always_incomplete :
    ¬ ∀ tokens ds, declarationsOfTokens tokens = .ok ds → ∀ pre, pre <+: tokens →
      (∃ ds', declarationsOfTokens pre = .ok ds') ∨
        ∃ d, declarationsOfTokens pre = .error d ∧ d.code = some .incompleteInput := by
  intro h
  have haccepted : declarationsOfTokens canaryTokens = .ok [canaryDeclaration] := by decide +kernel
  have hcode : (match declarationsOfTokens (canaryTokens.take 12) with
      | .ok _ => none
      | .error d => d.code) = some .unexpectedToken := by decide +kernel
  rcases h _ _ haccepted _ (List.take_prefix 12 canaryTokens) with ⟨ds', hpre⟩ | ⟨d, hpre, hd⟩
  · rw [hpre] at hcode
    cases hcode
  · rw [hpre] at hcode
    simp [hd] at hcode

end ArchLang
