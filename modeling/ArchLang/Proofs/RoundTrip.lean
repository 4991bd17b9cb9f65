import ArchLang.Proofs.Concatenation
import ArchLang.Proofs.Places
import ArchLang.Proofs.Truncation
import ArchLang.Proofs.Writing
import Mathlib.Tactic.Common

/-!
# Written declarations are read back

What `written` writes is accepted, and the declarations that are read from it are the ones that were
written.  Lists in a list, parts that may be left out, and headers that end a list without a mark of
their own: each of them stops at the right token, whatever the names hold.

Since no reader looks at places (`declarations_unplaced`), the tokens of a text may all be put at
its front.  Then the readers are run on token lists that are known but for what comes behind.

* `front ts`, `back ts` — the tokens of a list, with a blank between any two; in `back` there is one
  before the first as well.  An item is read from `front (item ++ us)`, which leaves `back us`.
* `opensItem`, `ItemNext` — what may come behind an item of a block: the closing brace, or the first
  word of the next item.  No list goes on there.
* `LayerNext` — what may come behind a layer: the closing brace, or a header.
* `separated_front`, `optional_wrapped`, `manyUntil_front`, `block_front` — lists, lists in brackets
  that may be left out, loops, and blocks, each from the same fact about its items.
* `declaration_front`, `declarations_lines` — one declaration, and declarations line by line.
* **`declarations_written`** — reading what was written gives the same declarations.
-/

namespace ArchLang

open ArchLang.Parser ArchLang.Grammar

variable {α β ι : Type}

/-! ## Tokens without places -/

/-- A value at the front of a text, all its places forgotten. -/
def placed [Placed ι] (a : ι) : Located ι := ⟨unplaced a, .origin⟩

lemma map_value_placed [Placed ι] (as : List ι) :
    (as.map placed).map (·.value) = unplaced as :=
  List.map_map

@[simp]
lemma placed_value (t : Token) : (placed t).value = t := rfl

/-- Tokens with a blank between any two. -/
def front (ts : List Token) : Tokens := (spaced ts).map placed

/-- Tokens with a blank before each of them. -/
def back (ts : List Token) : Tokens := (behind ts).map placed

lemma back_cons (t : Token) (ts : List Token) :
    back (t :: ts) = placed .whitespace :: placed t :: back ts := rfl

/-- What may come behind an item: the closing brace, or a word that begins the next item. -/
def opensItem : Token → Bool
  | .mark .rightBrace => true
  | .mark _ => false
  | t => !t.isTrivia

lemma not_trivia_of_opensItem {t : Token} (h : opensItem t = true) : t.isTrivia = false := by
  cases t <;> simp_all [opensItem, Token.isTrivia]

lemma ne_mark_of_opensItem {t : Token} (h : opensItem t = true) {m : Mark} (hm : m ≠ .rightBrace) :
    t ≠ .mark m := by
  rintro rfl
  cases m <;> first | exact hm rfl | cases h

/-! ## Trivia and marks -/

section Blanks

variable {t : Token} (ht : t.isTrivia = false) (us : List Token)

include ht

lemma dropWhile_back :
    (back (t :: us)).dropWhile (fun x => x.value.isTrivia) = front (t :: us) := by
  rw [back_cons, List.dropWhile_cons_of_pos rfl, List.dropWhile_cons_of_neg (by simp [ht])]
  rfl

lemma gap_bind_back (f : Unit → Parser α) : (gap >>= f) (back (t :: us)) = f () (front (t :: us)) :=
  congrArg (f ()) (dropWhile_back ht us)

lemma gap1_bind_back (f : Unit → Parser α) :
    (gap1 >>= f) (back (t :: us)) = f () (front (t :: us)) := by
  have hgap : gap1 (back (t :: us)) = .done () (front (t :: us)) :=
    congrArg (Outcome.done ()) (dropWhile_trivia_cons ht (back us))
  exact bind_of_done f hgap

lemma blanks_bind_back (f : Unit → Parser α) :
    (blanks >>= f) (back (t :: us)) = f () (front (t :: us)) := by
  have hinline : t.isInlineTrivia = false := by
    cases t <;> first | rfl | cases ht
  have hblanks : blanks (back (t :: us)) = .done () (front (t :: us)) := by
    refine congrArg (Outcome.done ()) ?_
    rw [back_cons, List.dropWhile_cons_of_pos rfl,
      List.dropWhile_cons_of_neg (by simp [hinline])]
    rfl
  exact bind_of_done f hblanks

lemma around_back (m : Mark) :
    around m (back (.mark m :: t :: us)) = .done () (front (t :: us)) := by
  have hblank : Blank [placed .whitespace] := by simp [Blank, Token.isTrivia]
  have hmark := around_of_eq (w := back (t :: us)) (x := placed (.mark m)) hblank rfl
  rw [dropWhile_back ht] at hmark
  exact hmark

lemma around_back_of_ne {m : Mark} (hm : t ≠ .mark m) :
    around m (back (t :: us)) = .failed ⟨false, [.mark m], front (t :: us), none⟩ := by
  have hblank : Blank [placed .whitespace] := by simp [Blank, Token.isTrivia]
  exact around_of_ne (w := back us) (x := placed t) hblank ht hm

end Blanks

lemma mark_front (m : Mark) (us : List Token) :
    mark m (front (.mark m :: us)) = .done .origin (back us) :=
  mark_cons_of_eq (back us) rfl

lemma mark_front_of_ne {m : Mark} {t : Token} (ht : t ≠ .mark m) (us : List Token) :
    mark m (front (t :: us)) = .failed ⟨false, [.mark m], front (t :: us), none⟩ :=
  mark_cons_of_ne (back us) ht

/-! ## Lists -/

section Lists

variable {tokens : ι → List Token} {value : ι → α} {m : Mark} {stop : Token}

/-- Behind an item comes a mark or the end of the list. -/
lemma exists_next (m : Mark) (stop : Token) (items : List (List Token)) (us : List Token) :
    ∃ t us', items.flatMap (.mark m :: ·) ++ stop :: us = t :: us' ∧ (t = .mark m ∨ t = stop) := by
  cases items with
  | nil => exact ⟨stop, us, rfl, .inr rfl⟩
  | cons item items => exact ⟨.mark m, _, rfl, .inl rfl⟩

variable {item : Parser α} [Consumes item] (hstop : stop.isTrivia = false) (hne : stop ≠ .mark m)
  {is : List ι} (hfirst : ∀ i ∈ is, ∃ t ts, tokens i = t :: ts ∧ t.isTrivia = false)
  (hitem : ∀ i ∈ is, ∀ t us, t = .mark m ∨ t = stop →
    item (front (tokens i ++ t :: us)) = .done (value i) (back (t :: us)))
  (us : List Token)

include hstop hne hfirst hitem

/-- The items behind the first. -/
lemma many_back : many (around m >>= fun _ => item)
    (back ((is.map tokens).flatMap (.mark m :: ·) ++ stop :: us))
      = .done (is.map value) (back (stop :: us)) := by
  induction is with
  | nil =>
      have hend := bind_of_failed (fun _ => item) (around_back_of_ne hstop us hne)
      exact many_of_failed _ hend
  | cons i is ih =>
      rw [List.forall_mem_cons] at hfirst hitem
      obtain ⟨t, ts, htokens, ht⟩ := hfirst.1
      obtain ⟨t', us', hnext, ht'⟩ := exists_next m stop (is.map tokens) us
      have hlater := ih hfirst.2 hitem.2
      -- what comes next is known by now, a mark or the end, so the item stops in front of it
      have hread : (around m >>= fun _ => item) (back (.mark m :: (tokens i ++ t' :: us')))
          = .done (value i) (back (t' :: us')) := by
        have hmark := around_back ht (ts ++ t' :: us') m
        rw [← List.cons_append, ← htokens] at hmark
        exact (bind_of_done _ hmark).trans (hitem.1 t' us' ht')
      rw [hnext] at hlater
      rw [List.map_cons, List.flatMap_cons, List.append_assoc, hnext, List.cons_append,
        many_of_done _ hread, hlater]
      rfl

/-- A list that is not empty is read, and nothing behind it. -/
lemma separated_front (hnil : is ≠ []) : separated item (around m)
    (front (listed m (is.map tokens) ++ stop :: us))
      = .done (is.map value) (back (stop :: us)) := by
  obtain ⟨i, is, rfl⟩ := List.exists_cons_of_ne_nil hnil
  obtain ⟨t, us', hnext, ht⟩ := exists_next m stop (is.map tokens) us
  rw [List.forall_mem_cons] at hfirst hitem
  have hothers := many_back hstop hne hfirst.2 hitem.2 us
  have hread := hitem.1 t us' ht
  rw [← hnext] at hread
  rw [List.map_cons, listed, List.append_assoc, separated, bind_of_done _ hread,
    bind_of_done _ hothers]
  rfl

end Lists

section Wrapped

variable {tokens : ι → List Token} {value : ι → α} {item : Parser α} [Consumes item]
  {closing : Mark} {is : List ι}
  (hfirst : ∀ i ∈ is, ∃ t ts, tokens i = t :: ts ∧ t.isTrivia = false)
  (hitem : ∀ i ∈ is, ∀ t us, t = .mark .comma ∨ t = .mark closing →
    item (front (tokens i ++ t :: us)) = .done (value i) (back (t :: us)))

include hfirst hitem

/-- A list between an opening and a closing mark. -/
lemma enclosed_front (opening : Mark) (hclosing : closing ≠ .comma) (hnil : is ≠ [])
    (us : List Token) :
    enclosed opening closing (separated item listComma)
      (front (.mark opening :: (listed .comma (is.map tokens) ++ .mark closing :: us)))
        = .done (is.map value) (back us) := by
  have hne : Token.mark closing ≠ .mark .comma := fun h => hclosing (Token.mark.inj h)
  have hlist : separated item listComma
      (front (listed .comma (is.map tokens) ++ .mark closing :: us))
        = .done (is.map value) (back (.mark closing :: us)) :=
    separated_front rfl hne hfirst hitem us hnil
  have hopen : ∃ t ts, listed .comma (is.map tokens) ++ .mark closing :: us = t :: ts ∧
      t.isTrivia = false := by
    obtain ⟨i, is, rfl⟩ := List.exists_cons_of_ne_nil hnil
    obtain ⟨t, ts, htokens, ht⟩ := hfirst i List.mem_cons_self
    exact ⟨t, _, by rw [List.map_cons, listed, htokens]; rfl, ht⟩
  obtain ⟨t, ts, htokens, ht⟩ := hopen
  have hclose : closedBy closing (is.map value) (back (.mark closing :: us))
      = .done (is.map value) (back us) := by
    rw [closedBy, gap_bind_back rfl, bind_of_done _ (mark_front closing us)]
    rfl
  rw [htokens] at hlist ⊢
  rw [enclosed, bind_of_done _ (mark_front opening _)]
  refine commit_done.2 ?_
  rw [gap_bind_back ht, bind_of_done _ hlist, hclose]

/-- Items that may be left out with their marks. -/
lemma optional_wrapped (opening : Mark) (hclosing : closing ≠ .comma) {skip : Parser Unit}
    (hskip : ∀ t us, t.isTrivia = false → (skip >>= fun _ =>
      enclosed opening closing (separated item listComma)) (back (t :: us))
        = enclosed opening closing (separated item listComma) (front (t :: us)))
    {t : Token} (ht : t.isTrivia = false) (hopening : t ≠ .mark opening) (us : List Token) :
    ∃ found, optional (skip >>= fun _ => enclosed opening closing (separated item listComma))
        (back (wrapped opening closing (is.map tokens) ++ t :: us))
          = .done found (back (t :: us)) ∧ found.getD [] = is.map value := by
  cases is with
  | nil =>
      have hnone := (hskip t us ht).trans (bind_of_failed _ (mark_front_of_ne hopening us))
      exact ⟨none, optional_of_open hnone rfl, rfl⟩
  | cons i is =>
      have hfound := enclosed_front hfirst hitem opening hclosing (List.cons_ne_nil i is) (t :: us)
      have htokens : wrapped opening closing ((i :: is).map tokens) ++ t :: us = .mark opening ::
          (listed .comma ((i :: is).map tokens) ++ .mark closing :: t :: us) := by
        simp [wrapped]
      rw [htokens]
      exact ⟨some _, optional_of_done ((hskip (.mark opening) _ rfl).trans hfound), rfl⟩

end Wrapped

/-! ## Loops and blocks -/

/-- The tokens begin, trivia aside, like these. -/
def Begins (s : Tokens) (us : List Token) : Prop :=
  s.dropWhile (fun x => x.value.isTrivia) = front us

/-- What may come behind an item: the closing brace, or the first word of another item. -/
def ItemNext (us : List Token) : Prop := ∃ t us', us = t :: us' ∧ opensItem t = true

lemma ItemNext.begins {us : List Token} (h : ItemNext us) :
    Begins (back us) us ∧ Begins (front us) us := by
  obtain ⟨t, us', rfl, ht⟩ := h
  have ht := not_trivia_of_opensItem ht
  exact ⟨dropWhile_back ht us', dropWhile_trivia_cons ht (back us')⟩

lemma itemNext_append {item : List Token}
    (hfirst : ∃ t ts, item = t :: ts ∧ opensItem t = true) (us : List Token) :
    ItemNext (item ++ us) := by
  obtain ⟨t, ts, rfl, ht⟩ := hfirst
  exact ⟨t, ts ++ us, rfl, ht⟩

lemma next_flatMap {tokens : ι → List Token} {Next : List Token → Prop} {is : List ι}
    (hgo : ∀ i ∈ is, ∀ us, Next us → Next (tokens i ++ us)) {us : List Token} (hus : Next us) :
    Next (is.flatMap tokens ++ us) := by
  induction is with
  | nil => exact hus
  | cons i is ih =>
      rw [List.forall_mem_cons] at hgo
      rw [List.flatMap_cons, List.append_assoc]
      exact hgo.1 _ (ih hgo.2)

section Loops

variable {tokens : ι → List Token} {value : ι → α} {item : Parser α} [Consumes item]
  {Next : List Token → Prop} {is : List ι}
  (hitem : ∀ i ∈ is, ∀ us, Next us →
    ∃ r, item (front (tokens i ++ us)) = .done (value i) r ∧ Begins r us)
  (hgo : ∀ i ∈ is, ∀ us, Next us → Next (tokens i ++ us))

include hitem hgo

/-- A loop reads its items and stops where it should. -/
lemma manyUntil_front {stop : Parser β} (hmore : ∀ i ∈ is, ∀ us, Next us →
      ∃ e, stop (front (tokens i ++ us)) = .failed e ∧ e.committed = false)
    {us : List Token} (hus : Next us) {b : β} {r : Tokens} (hstop : stop (front us) = .done b r)
    {s : Tokens} (hs : Begins s (is.flatMap tokens ++ us)) :
    manyUntil Token.isTrivia stop item s = .done (is.map value, b) r := by
  induction is generalizing s with
  | nil => exact manyUntil_of_stop item stop hs hstop
  | cons i is ih =>
      rw [List.forall_mem_cons] at hitem hgo hmore
      -- the later items are what comes behind this one
      have hlater := next_flatMap hgo.2 hus
      obtain ⟨e, hfailed, he⟩ := hmore.1 _ hlater
      obtain ⟨r', hread, hr'⟩ := hitem.1 _ hlater
      rw [List.flatMap_cons, List.append_assoc] at hs
      rw [manyUntil_of_done item stop hs hfailed he hread, ih hitem.2 hgo.2 hmore.2 hr']
      rfl

/-- A block is read up to its closing brace. -/
lemma block_front (hnext : ∀ us, Next us → ItemNext us)
    (hfirst : ∀ i ∈ is, ∃ t ts, tokens i = t :: ts ∧ t ≠ .mark .rightBrace)
    (us : List Token) (hus : Next (.mark .rightBrace :: us)) :
    block item (front (braced (is.map tokens) ++ us))
      = .done (is.map value, .origin) (back us) := by
  have hmore : ∀ i ∈ is, ∀ us, Next us →
      ∃ e, mark .rightBrace (front (tokens i ++ us)) = .failed e ∧ e.committed = false := by
    intro i hi us _
    obtain ⟨t, ts, htokens, ht⟩ := hfirst i hi
    rw [htokens]
    exact ⟨_, mark_front_of_ne ht _, rfl⟩
  have hloop := manyUntil_front hitem hgo hmore hus (mark_front .rightBrace us)
    (hnext _ (next_flatMap hgo hus)).begins.1
  have htokens : braced (is.map tokens) ++ us
      = .mark .leftBrace :: (is.flatMap tokens ++ .mark .rightBrace :: us) := by
    simp [braced, List.flatMap]
  rw [htokens, block, bind_of_done _ (mark_front _ _), bind_of_done _ hloop]
  rfl

end Loops

/-- A block of items that each begin with a word. -/
lemma block_words {tokens : ι → List Token} {value : ι → α} {item : Parser α} [Consumes item]
    {is : List ι}
    (hitem : ∀ i ∈ is, ∀ us, ItemNext us →
      item (front (tokens i ++ us)) = .done (value i) (back us))
    (hfirst : ∀ i ∈ is, ∃ t ts, tokens i = t :: ts ∧ opensItem t = true ∧ t ≠ .mark .rightBrace)
    (us : List Token) :
    block item (front (braced (is.map tokens) ++ us))
      = .done (is.map value, .origin) (back us) := by
  refine block_front (fun i hi us hus => ⟨_, hitem i hi us hus, hus.begins.1⟩)
    (fun i hi us _ => ?_) (fun _ hus => hus) (fun i hi => ?_) us ⟨_, _, rfl, rfl⟩
  · obtain ⟨t, ts, htokens, ht, -⟩ := hfirst i hi
    exact itemNext_append ⟨t, ts, htokens, ht⟩ us
  · obtain ⟨t, ts, htokens, -, ht⟩ := hfirst i hi
    exact ⟨t, ts, htokens, ht⟩

/-! ## Names -/

lemma anyName_front (name : Text) (us : List Token) :
    anyName (front (quoted name :: us)) = .done (unplaced name) (back us) := rfl

lemma names_front {ns : List Text} (hns : ns ≠ []) {us : List Token} (hus : ItemNext us) :
    names (front (quotedNames ns ++ us)) = .done (unplaced ns) (back us) := by
  obtain ⟨t, us, rfl, ht⟩ := hus
  have hcomma : t ≠ .mark .comma := ne_mark_of_opensItem ht (by decide)
  have ht := not_trivia_of_opensItem ht
  have hlist : separated anyName listComma (front (quotedNames ns ++ t :: us))
      = .done (unplaced ns) (back (t :: us)) :=
    separated_front ht hcomma (fun n _ => ⟨quoted n, [], rfl, rfl⟩)
      (fun n _ t us _ => anyName_front n (t :: us)) us hns
  have hend : optional (gap >>= fun _ => mark .comma) (back (t :: us))
      = .done none (back (t :: us)) :=
    optional_of_open ((gap_bind_back ht us _).trans (mark_front_of_ne hcomma us)) rfl
  rw [names, bind_of_done _ (label_done.2 hlist), bind_of_done _ hend]
  rfl

/-! ## Actors and domains -/

lemma actor_front (d : ActorDecl) (us : List Token) :
    actor (front (d.tokens ++ us)) = .done (unplaced d) (back us) := by
  obtain ⟨⟨kind, place⟩, name⟩ := d
  by_cases hkind : kind = "service"
  · subst hkind
    rfl
  · have htoken : actorKindToken kind = .identifier kind := if_neg hkind
    rw [ActorDecl.tokens, htoken]
    rfl

lemma gap_bind_braced (items : List (List Token)) (us : List Token) (f : Unit → Parser α) :
    (gap >>= f) (back (braced items ++ us)) = f () (front (braced items ++ us)) :=
  gap_bind_back rfl _ f

lemma domain_front (d : DomainDecl) (us : List Token) :
    domain (front (d.tokens ++ us)) = .done (placed d) (back us) := by
  have hblock : block anyName (front (braced (d.subDomains.map fun n => [quoted n]) ++ us))
      = .done (unplaced d.subDomains, .origin) (back us) :=
    block_words (fun n _ us _ => anyName_front n us) (fun n _ => ⟨quoted n, [], rfl, rfl, nofun⟩) us
  rw [DomainDecl.tokens, List.cons_append, domain, bind_of_done _ (anyName_front d.name _),
    gap_bind_braced, bind_of_done _ hblock]
  rfl

/-! ## Services -/

lemma rule_front (r : RuleDecl) (hr : IsPercentage r.percentage.value) (us : List Token) :
    rule (front (r.tokens ++ us)) = .done (unplaced r) (back us) := by
  obtain ⟨⟨text, place⟩, target⟩ := r
  obtain ⟨digits, -, htext⟩ := hr
  have hsign : String.ofList text.toList.dropLast ++ "%" = text := by
    have htext : text.toList = digits ++ ['%'] := htext
    rw [← String.toList_inj, String.toList_append, String.toList_ofList, htext,
      List.dropLast_concat]
    rfl
  have hread : rule (front (RuleDecl.tokens ⟨⟨text, place⟩, target⟩ ++ us))
      = .done ⟨⟨String.ofList text.toList.dropLast ++ "%", .origin⟩, unplaced target⟩ (back us) :=
    rfl
  rw [hread, hsign]
  rfl

lemma rollout_front {d : DeploymentDecl} (hd : d.Writable) {us : List Token} (hus : ItemNext us) :
    rollout (front (d.tokens ++ us)) = .done (unplaced d) (back us) := by
  obtain ⟨t, us, rfl, ht⟩ := hus
  have hkind : ∀ ts, bareName (front (.identifier d.kind.value :: ts))
      = .done (unplaced d.kind) (back ts) := fun _ => rfl
  have hparen : t ≠ .mark .leftParen := ne_mark_of_opensItem ht (by decide)
  obtain ⟨found, hread, hfound⟩ : ∃ found, optional (gap >>= fun _ =>
        enclosed .leftParen .rightParen (separated rule listComma))
          (back (wrapped .leftParen .rightParen (d.rules.map RuleDecl.tokens) ++ t :: us))
          = .done found (back (t :: us)) ∧ found.getD [] = unplaced d.rules :=
    optional_wrapped (fun r _ => ⟨_, _, rfl, rfl⟩)
      (fun r hr t us _ => rule_front r (hd.2 r hr) (t :: us)) .leftParen (by decide)
      (fun t us ht => gap_bind_back ht us _) (not_trivia_of_opensItem ht) hparen us
  rw [rollout_eq_enclosed, DeploymentDecl.tokens, List.cons_append, bind_of_done _ (hkind _),
    bind_of_done _ hread, hfound]
  rfl

lemma quotedNames_eq_cons {ns : List Text} (h : ns ≠ []) (us : List Token) :
    ∃ t ts, quotedNames ns ++ us = t :: ts ∧ t.isTrivia = false := by
  obtain ⟨n, ns, rfl⟩ := List.exists_cons_of_ne_nil h
  exact ⟨quoted n, _, rfl, rfl⟩

/-- A property line is read by its key. -/
lemma property_cons {k : Token} {key : String} (hk : propertyKeyOf k = some key)
    {us : List Token} (hus : ∃ t ts, us = t :: ts ∧ t.isTrivia = false) :
    ∃ start, property (front (k :: .mark .colon :: us)) = propertyValue start key (front us) := by
  obtain ⟨t, ts, rfl, ht⟩ := hus
  have hkey : label .serviceProperty (token propertyKeyOf) (front (k :: .mark .colon :: t :: ts))
      = .done ⟨key, .origin⟩ (back (.mark .colon :: t :: ts)) :=
    label_done.2 (token_eq_done.2 ⟨placed k, rfl, hk, rfl⟩)
  exact ⟨_, (bind_of_done _ hkey).trans (bind_of_done _ (around_back ht ts .colon))⟩

lemma property_front {p : PropertyDecl} (hp : p.Writable) {us : List Token} (hus : ItemNext us) :
    property (front (p.tokens ++ us)) = .done (unplaced p) (back us) := by
  cases p with
  | domains ns =>
      obtain ⟨start, hread⟩ := property_cons (k := .keyword .domains) rfl
        (quotedNames_eq_cons hp us)
      exact hread.trans (bind_of_done _ (names_front hp hus))
  | dataStores ns =>
      obtain ⟨start, hread⟩ := property_cons (k := .keyword .dataStores) rfl
        (quotedNames_eq_cons hp us)
      exact hread.trans (bind_of_done _ (names_front hp hus))
  | language name =>
      obtain ⟨start, hread⟩ := property_cons (k := .identifier "language") rfl
        ⟨quoted name, us, rfl, rfl⟩
      exact hread.trans (bind_of_done _ (anyName_front name us))
  | deployment d =>
      obtain ⟨start, hread⟩ := property_cons (k := .identifier "deployment") rfl
        ⟨.identifier d.kind.value, _, rfl, rfl⟩
      exact hread.trans (bind_of_done _ (rollout_front hp hus))

lemma service_front {d : ServiceDecl} (hd : d.Writable) (us : List Token) :
    service (front (d.tokens ++ us)) = .done (placed d) (back us) := by
  have hblock : block property (front (braced (d.properties.map PropertyDecl.tokens) ++ us))
      = .done (unplaced d.properties, .origin) (back us) := by
    refine block_words (fun p hp us hus => property_front (hd p hp) hus) (fun p _ => ?_) us
    cases p <;> exact ⟨_, _, rfl, rfl, nofun⟩
  rw [ServiceDecl.tokens, List.cons_append, service, bind_of_done _ (anyName_front d.name _),
    gap_bind_braced, bind_of_done _ hblock]
  rfl

/-! ## Exposures -/

lemma exposureLine_front {field : ExposureKey × List Text} (hnames : field.2 ≠ [])
    {us : List Token} (hus : ItemNext us) :
    exposureLine (front (exposureField field ++ us)) = .done (unplaced field) (back us) := by
  obtain ⟨key, ns⟩ := field
  have hkey : ExposureKey.ofKey? key.word = some key := by cases key <;> rfl
  obtain ⟨t, ts, htokens, ht⟩ := quotedNames_eq_cons hnames us
  have hword : ∀ vs, bareName (front (.identifier key.word :: vs))
      = .done ⟨key.word, .origin⟩ (back vs) := fun _ => rfl
  have hcolon := around_back ht ts .colon
  rw [← htokens] at hcolon
  rw [exposureField, exposureLine, here_bind_apply, List.cons_append, bind_of_done _ (hword _),
    hkey, List.cons_append, exposureLineOf, bind_of_done _ hcolon,
    bind_of_done _ (names_front hnames hus)]
  rfl

/-- The lines that are left out have no names. -/
lemma namesOf_fields (d : ExposureDecl) :
    namesOf .audience (unplaced d.fields) = unplaced d.audience ∧
      namesOf .exposed (unplaced d.fields) = unplaced d.exposed ∧
      namesOf .gateways (unplaced d.fields) = unplaced d.gateways := by
  obtain ⟨name, audience, exposed, gateways⟩ := d
  by_cases ha : audience = [] <;> by_cases he : exposed = [] <;> by_cases hg : gateways = [] <;>
    simp [ExposureDecl.fields, namesOf, unplaced, ha, he, hg]

lemma exposureBody_back (d : ExposureDecl) (us : List Token) :
    exposureBody .origin (back (d.tokens ++ us))
      = .done ⟨.exposure (unplaced d), .origin⟩ (back us) := by
  have hblock : block exposureLine (front (braced (d.fields.map exposureField) ++ us))
      = .done (unplaced d.fields, .origin) (back us) := by
    refine block_words (fun field hfield us hus => exposureLine_front ?_ hus)
      (fun field _ => ⟨_, _, rfl, rfl, nofun⟩) us
    simpa using (List.mem_filter.1 hfield).2
  obtain ⟨haudience, hexposed, hgateways⟩ := namesOf_fields d
  rw [ExposureDecl.tokens, List.cons_append, exposureBody, gap1_bind_back rfl,
    bind_of_done _ (anyName_front d.name _), gap_bind_braced, bind_of_done _ hblock]
  dsimp only
  rw [haudience, hexposed, hgateways]
  rfl

/-! ## Architectures -/

lemma modifier_front (m : ModifierDecl) {t : Token} (ht : t.isTrivia = false)
    (hcolon : t ≠ .mark .colon) (us : List Token) :
    modifier (front (m.tokens ++ t :: us)) = .done (unplaced m) (back (t :: us)) := by
  obtain ⟨key, value⟩ := m
  cases value with
  | none =>
      have hnone : (around .colon >>= fun _ => label .modifierValue (token modifierValueOf))
          (back (t :: us)) = .failed ⟨false, [.mark .colon], front (t :: us), none⟩ :=
        bind_of_failed _ (around_back_of_ne ht us hcolon)
      exact bind_of_done _ (optional_of_open hnone rfl)
  | some value => rfl

lemma node_front (n : NodeDecl) {t : Token} (ht : t.isTrivia = false)
    (hbracket : t ≠ .mark .leftBracket) (us : List Token) :
    node (front (n.tokens ++ t :: us)) = .done (unplaced n) (back (t :: us)) := by
  -- no modifiers and an empty list of them are the same node
  obtain ⟨found, hread, hfound⟩ : ∃ found, optional bracketed
        (back (wrapped .leftBracket .rightBracket (n.modifiers.map ModifierDecl.tokens) ++ t :: us))
          = .done found (back (t :: us)) ∧ found.getD [] = unplaced n.modifiers := by
    rw [bracketed_eq_enclosed]
    refine optional_wrapped (fun m _ => ⟨_, _, rfl, rfl⟩) (fun m _ t us ht => ?_) .leftBracket
      (by decide) (fun t us ht => blanks_bind_back ht us _) ht hbracket us
    rcases ht with rfl | rfl
    · exact modifier_front m rfl (by decide) us
    · exact modifier_front m rfl (by decide) us
  rw [NodeDecl.tokens, List.cons_append, node, bind_of_done _ (anyName_front n.name _),
    bind_of_done _ hread, hfound]
  rfl

lemma chain_front {c : ComponentDecl} (hc : c.chain ≠ []) {us : List Token} (hus : ItemNext us) :
    chain (front (c.tokens ++ us)) = .done (unplaced c) (back us) := by
  obtain ⟨t, us, rfl, ht⟩ := hus
  have hgreater : t ≠ .mark .greater := ne_mark_of_opensItem ht (by decide)
  have hbracket : t ≠ .mark .leftBracket := ne_mark_of_opensItem ht (by decide)
  have ht := not_trivia_of_opensItem ht
  have hnodes : separated node (around .greater) (front (c.tokens ++ t :: us))
      = .done (unplaced c.chain) (back (t :: us)) := by
    refine separated_front ht hgreater (fun n _ => ⟨_, _, rfl, rfl⟩) (fun n _ u us hu => ?_) us hc
    rcases hu with rfl | rfl
    · exact node_front n rfl (by decide) us
    · exact node_front n ht hbracket us
  exact bind_of_done _ (label_done.2 hnodes)

/-- What may come behind a layer: the closing brace, or the header of another layer. -/
def LayerNext (us : List Token) : Prop :=
  (∃ us', us = .mark .rightBrace :: us') ∨
    ∃ key us', us = .identifier key :: .mark .colon :: us'

lemma LayerNext.itemNext {us : List Token} (h : LayerNext us) : ItemNext us := by
  rcases h with ⟨us', rfl⟩ | ⟨key, us', rfl⟩
  · exact ⟨_, _, rfl, rfl⟩
  · exact ⟨_, _, rfl, rfl⟩

lemma LayerNext.sectionEnd {us : List Token} (h : LayerNext us) :
    sectionEnd (front us) = .done () (front us) := by
  rcases h with ⟨us', rfl⟩ | ⟨key, us', rfl⟩
  · exact sectionEnd_of_brace _ rfl
  · exact sectionEnd_of_header nofun (header_cons_of_some _ rfl)

lemma tokens_eq_cons {c : ComponentDecl} (hc : c.chain ≠ []) :
    ∃ name ts, c.tokens = quoted name :: ts := by
  obtain ⟨n, ns, hchain⟩ := List.exists_cons_of_ne_nil hc
  exact ⟨n.name, _, by rw [ComponentDecl.tokens, hchain]; rfl⟩

lemma sectionEnd_front_quoted (name : Text) (ts : List Token) :
    ∃ e, sectionEnd (front (quoted name :: ts)) = .failed e ∧ e.committed = false := by
  have hname : (placed (quoted name)).value ≠ .mark .rightBrace := by
    rw [placed, quoted]
    exact nofun
  exact ⟨_, sectionEnd_of_no_header hname (header_cons_of_none _ rfl), rfl⟩

lemma components_back {cs : List ComponentDecl} (hcs : ∀ c ∈ cs, c.chain ≠ []) {us : List Token}
    (hus : LayerNext us) :
    components (back (cs.flatMap ComponentDecl.tokens ++ us))
      = .done (unplaced cs) (front us) := by
  have hgo : ∀ c ∈ cs, ∀ us, ItemNext us → ItemNext (c.tokens ++ us) := by
    intro c hc us _
    obtain ⟨name, ts, htokens⟩ := tokens_eq_cons (hcs c hc)
    exact itemNext_append ⟨_, ts, htokens, rfl⟩ us
  have hmore : ∀ c ∈ cs, ∀ us, ItemNext us →
      ∃ e, sectionEnd (front (c.tokens ++ us)) = .failed e ∧ e.committed = false := by
    intro c hc us _
    obtain ⟨name, ts, htokens⟩ := tokens_eq_cons (hcs c hc)
    rw [htokens]
    exact sectionEnd_front_quoted name (ts ++ us)
  have hloop := manyUntil_front
    (fun c hc us hus => ⟨_, chain_front (hcs c hc) hus, hus.begins.1⟩) hgo hmore hus.itemNext
    hus.sectionEnd (next_flatMap hgo hus.itemNext).begins.1
  exact bind_of_done _ hloop

lemma layer_front {l : Layer × List ComponentDecl} (hl : ∀ c ∈ l.2, c.chain ≠ [])
    {us : List Token} (hus : LayerNext us) :
    layer (front (archSection l ++ us)) = .done (unplaced l) (front us) := by
  obtain ⟨key, cs⟩ := l
  have hkey : Layer.ofKey? key.word = some key := by cases key <;> rfl
  have hheader : ∀ vs, header (front (.identifier key.word :: .mark .colon :: vs))
      = .done ⟨key.word, .origin⟩ (back vs) := fun _ => rfl
  rw [archSection, layer, here_bind_apply, List.cons_append, List.cons_append,
    bind_of_done _ (hheader _), bind_of_done _ (components_back hl hus), hkey]
  rfl

lemma componentsOf_sections (d : ArchDecl) :
    componentsOf .presentation (unplaced d.sections) = unplaced d.presentation ∧
      componentsOf .gateway (unplaced d.sections) = unplaced d.gateway := by
  simp [ArchDecl.sections, componentsOf, unplaced]

/-- A name that may be left out, before a block. -/
lemma optionalName_back (name : Option Text) (items : List (List Token)) (us : List Token)
    (f : Option Text → Parser α) :
    (gap >>= fun _ => optional anyName >>= fun found => gap >>= fun _ => f found)
      (back ((name.elim [] fun n => [quoted n]) ++ braced items ++ us))
        = f (unplaced name) (front (braced items ++ us)) := by
  cases name with
  | none =>
      have hnone : optional anyName (front (braced items ++ us))
          = .done none (front (braced items ++ us)) := optional_of_open rfl rfl
      have hgap : ∀ g : Unit → Parser α,
          (gap >>= g) (front (braced items ++ us)) = g () (front (braced items ++ us)) := fun g =>
        congrArg (g ()) (dropWhile_trivia_cons rfl _)
      rw [Option.elim_none, List.nil_append, gap_bind_braced, bind_of_done _ hnone, hgap]
      rfl
  | some name =>
      rw [Option.elim_some, List.append_assoc, List.cons_append, List.nil_append,
        gap_bind_back rfl, bind_of_done _ (optional_of_done (anyName_front name _)),
        gap_bind_braced]
      rfl

lemma archBody_back {d : ArchDecl} (hd : d.Writable) (us : List Token) :
    archBody .origin (back (d.tokens ++ us)) = .done ⟨.arch (unplaced d), .origin⟩ (back us) := by
  have hchains : ∀ l ∈ d.sections, ∀ c ∈ l.2, c.chain ≠ [] := by
    rw [ArchDecl.Writable, List.forall_mem_append] at hd
    exact List.forall_mem_cons.2 ⟨hd.1, List.forall_mem_singleton.2 hd.2⟩
  have hblock : block layer (front (braced (d.sections.map archSection) ++ us))
      = .done (unplaced d.sections, .origin) (back us) :=
    block_front
      (fun l hl us hus => ⟨_, layer_front (hchains l hl) hus, hus.itemNext.begins.2⟩)
      (fun l _ us _ => .inr ⟨_, _, rfl⟩) (fun _ hus => hus.itemNext)
      (fun l _ => ⟨_, _, rfl, nofun⟩) us (.inl ⟨us, rfl⟩)
  obtain ⟨hpresentation, hgateway⟩ := componentsOf_sections d
  rw [ArchDecl.tokens, archBody, optionalName_back, bind_of_done _ hblock]
  dsimp only
  rw [hpresentation, hgateway]
  rfl

/-! ## Declarations -/

lemma gap_block_back {item : Parser α} [Consumes item] {items : List (List Token)}
    {found : List α} {us : List Token}
    (hblock : block item (front (braced items ++ us)) = .done (found, .origin) (back us))
    (f : List α × Span → Parser β) :
    (gap >>= fun _ => block item >>= f) (back (braced items ++ us))
      = f (found, .origin) (back us) :=
  (gap_bind_braced items us _).trans (bind_of_done f hblock)

lemma opensItem_actorKindToken (kind : String) : opensItem (actorKindToken kind) = true ∧
    actorKindToken kind ≠ .mark .rightBrace := by
  unfold actorKindToken
  split <;> exact ⟨rfl, nofun⟩

lemma gap1_item_back {item : Parser α} {t : Token} (ht : t.isTrivia = false) {us : List Token}
    {a : α} {r : Tokens} (hitem : item (front (t :: us)) = .done a r) (f : α → Parser β) :
    (gap1 >>= fun _ => item >>= f) (back (t :: us)) = f a r :=
  (gap1_bind_back ht us _).trans (bind_of_done f hitem)

/-- Behind its keyword a declaration is read as it was written. -/
lemma declarationBody_back {d : Declaration} (hd : d.Writable) (us : List Token) : ∃ k ts,
    d.tokens = .keyword k :: ts ∧ declarationKeywordOf (.keyword k) = some k ∧
      declarationBody .origin k (back (ts ++ us)) = .done (placed d) (back us) := by
  cases d with
  | actor d =>
      have hkind := not_trivia_of_opensItem (opensItem_actorKindToken d.kind.value).1
      exact ⟨.actor, d.tokens, rfl, rfl, gap1_item_back hkind (actor_front d us) _⟩
  | actors ds =>
      have hblock : block actor (front (braced (ds.map ActorDecl.tokens) ++ us))
          = .done (unplaced ds, .origin) (back us) :=
        block_words (fun d _ us _ => actor_front d us)
          (fun d _ => ⟨_, _, rfl, opensItem_actorKindToken d.kind.value⟩) us
      exact ⟨.actors, braced (ds.map ActorDecl.tokens), rfl, rfl, gap_block_back hblock _⟩
  | domain d => exact ⟨.domain, d.tokens, rfl, rfl, gap1_item_back rfl (domain_front d us) _⟩
  | domains ds =>
      have hblock : block domain (front (braced (ds.map DomainDecl.tokens) ++ us))
          = .done (ds.map placed, .origin) (back us) :=
        block_words (fun d _ us _ => domain_front d us) (fun d _ => ⟨_, _, rfl, rfl, nofun⟩) us
      have hbody : declarationBody .origin .domains (back (braced (ds.map DomainDecl.tokens) ++ us))
          = .done ⟨.domains ((ds.map placed).map (·.value)), .origin⟩ (back us) :=
        gap_block_back hblock _
      rw [map_value_placed] at hbody
      exact ⟨.domains, braced (ds.map DomainDecl.tokens), rfl, rfl, hbody⟩
  | service d => exact ⟨.service, d.tokens, rfl, rfl, gap1_item_back rfl (service_front hd us) _⟩
  | services ds =>
      have hblock : block service (front (braced (ds.map ServiceDecl.tokens) ++ us))
          = .done (ds.map placed, .origin) (back us) :=
        block_words (fun d hmem us _ => service_front (hd d hmem) us)
          (fun d _ => ⟨_, _, rfl, rfl, nofun⟩) us
      have hbody : declarationBody .origin .services
          (back (braced (ds.map ServiceDecl.tokens) ++ us))
          = .done ⟨.services ((ds.map placed).map (·.value)), .origin⟩ (back us) :=
        gap_block_back hblock _
      rw [map_value_placed] at hbody
      exact ⟨.services, braced (ds.map ServiceDecl.tokens), rfl, rfl, hbody⟩
  | exposure d => exact ⟨.exposure, d.tokens, rfl, rfl, exposureBody_back d us⟩
  | arch d => exact ⟨.arch, d.tokens, rfl, rfl, archBody_back hd us⟩
  | useCase d => exact absurd hd id

lemma declaration_front {d : Declaration} (hd : d.Writable) (us : List Token) :
    declaration (front (d.tokens ++ us)) = .done (placed d) (back us) := by
  obtain ⟨k, ts, htokens, hk, hbody⟩ := declarationBody_back hd us
  have hkey : label (.keyword .useCase) (token declarationKeywordOf)
      (front (.keyword k :: (ts ++ us))) = .done ⟨k, .origin⟩ (back (ts ++ us)) :=
    label_done.2 (token_eq_done.2 ⟨placed (.keyword k), rfl, hk, rfl⟩)
  rw [htokens, List.cons_append]
  exact label_done.2 ((bind_of_done _ hkey).trans (commit_done.2 hbody))

/-! ## Programs -/

/-- A declaration alone is a program. -/
lemma declarations_front {d : Declaration} (hd : d.Writable) :
    declarations (front d.tokens) = .done [placed d] [] := by
  have hread : declaration (front d.tokens) = .done (placed d) [] := by
    have hread := declaration_front hd []
    rw [List.append_nil] at hread
    exact hread
  have hend : manyUntil Token.isTrivia atEnd declaration [] = .done ([], ()) [] :=
    manyUntil_of_stop declaration atEnd rfl rfl
  obtain ⟨k, ts, htokens, -⟩ := declarationBody_back hd []
  rw [htokens] at hread ⊢
  have hfirst := dropWhile_trivia_cons (t := placed (.keyword k)) rfl (back ts)
  have hloop := manyUntil_of_done declaration atEnd hfirst rfl rfl hread
  rw [hend] at hloop
  exact bind_of_done _ hloop

/-- A line end before a declaration is skipped. -/
lemma declarations_newline (s : Tokens) :
    declarations (placed .newline :: s) = declarations s := by
  have hblank : Blank [placed .newline] := by simp [Blank, Token.isTrivia]
  have hskip := manyUntil_blank_append declaration atEnd hblank s
  rw [List.singleton_append] at hskip
  rw [declarations, bind_apply, bind_apply, hskip]

lemma map_placed_lineByLine (ts ts' : List Token) (lists : List (List Token)) :
    (lineByLine (ts :: ts' :: lists)).map placed
      = front ts ++ placed .newline :: (lineByLine (ts' :: lists)).map placed := by
  rw [lineByLine, List.map_cons, List.map_cons, List.intercalate_cons_cons, List.append_assoc,
    List.map_append]
  rfl

/-- Declarations are read line by line. -/
lemma declarations_lines {ds : List Declaration} (hds : ∀ d ∈ ds, d.Writable) :
    declarations ((lineByLine (ds.map Declaration.tokens)).map placed)
      = .done (ds.map placed) [] := by
  induction ds with
  | nil => exact bind_of_done _ (manyUntil_of_stop declaration atEnd rfl rfl)
  | cons d ds ih =>
      rw [List.forall_mem_cons] at hds
      have hline := declarations_front hds.1
      cases ds with
      | nil =>
          rw [List.map_singleton, lineByLine, List.map_singleton, List.intercalate_singleton]
          exact hline
      | cons d' ds =>
          have hlines := ih hds.2
          rw [List.map_cons] at hlines
          rw [List.map_cons, List.map_cons, map_placed_lineByLine, declarations_append hline,
            declarations_newline, hlines]
          rfl

/-- **Written declarations are read back.**  The text of a program is accepted, and what is read
from it are the same declarations, but for the places where they stand. -/
theorem declarations_written {ds : List Declaration} (h : ∀ d ∈ ds, d.Writable) :
    ∃ ts found, tokensOf (written ds) = .ok ts ∧ declarationsOfTokens ts = .ok found ∧
      unplaced (found.map (·.value)) = unplaced ds := by
  obtain ⟨ts, hts, hvalues⟩ := tokensOf_written h
  -- the tokens are known but for their places, which reading does not look at
  have hplaced : unplaced ts = (lineByLine (ds.map Declaration.tokens)).map placed := by
    rw [← hvalues, List.map_map]
    rfl
  have hread : unplaced (declarations ts) = .done (ds.map placed) [] := by
    rw [← declarations_unplaced, hplaced, declarations_lines h]
  cases hfound : declarations ts with
  | failed e => rw [hfound] at hread; cases hread
  | done found r =>
      rw [hfound] at hread
      injection hread with hvalues
      refine ⟨ts, found, hts, by rw [declarationsOfTokens, hfound], ?_⟩
      rw [← map_value_located, hvalues, map_value_placed]

/-- A program with declarations of every kind that can be written. -/
def marketplace : List Declaration :=
  let text : String → Text := fun value => ⟨value, .origin⟩
  [.actors [⟨text "user", text "Buyer \"B2B\""⟩, ⟨text "service", text "Clock"⟩],
    .actor ⟨text "user", text "Zoë"⟩,
    .domains [⟨text "Trade", [text "Orders", text "when"]⟩, ⟨text "", []⟩],
    .domain ⟨text "Money", [text "Line\nand\rreturn"]⟩,
    .services [⟨text "Empty", []⟩, ⟨text "Db", [.dataStores [text "C:\\db"]]⟩],
    .service ⟨text "Shop", [.domains [text "Trade", text "Money"], .language (text "c++")]⟩,
    .service ⟨text "Shop", [.deployment ⟨text "canary",
      [⟨text "10%", text "test"⟩, ⟨text "2.5%", text "live"⟩]⟩]⟩,
    .service ⟨text "Shop", [.deployment ⟨text "blue-green", []⟩]⟩,
    .exposure ⟨text "API", [text "partners"], [], [text "Edge", text "Edge"]⟩,
    .arch ⟨none, [⟨[⟨text "Web", [⟨text "ssl", none⟩, ⟨text "port", some (text "8")⟩]⟩,
      ⟨text "to", []⟩]⟩], []⟩,
    .arch ⟨some (text "Main"), [], [⟨[⟨text "Edge", []⟩]⟩, ⟨[⟨text "gateway", []⟩]⟩]⟩]

/-- Its lines, which are read back. -/
theorem declarations_written_marketplace :
    marketplace.map (fun d => String.ofList (writtenLine d.tokens)) =
        ["actors \x7b user \"Buyer \\\"B2B\\\"\" service \"Clock\" \x7d",
          "actor user \"Zoë\"",
          "domains \x7b \"Trade\" \x7b \"Orders\" \"when\" \x7d \"\" \x7b \x7d \x7d",
          "domain \"Money\" \x7b \"Line\\nand\\rreturn\" \x7d",
          "services \x7b \"Empty\" \x7b \x7d \"Db\" \x7b data-stores : \"C:\\\\db\" \x7d \x7d",
          "service \"Shop\" \x7b domains : \"Trade\" , \"Money\" language : \"c++\" \x7d",
          "service \"Shop\" \x7b deployment : canary ( 10% -> \"test\" , 2.5% -> \"live\" ) \x7d",
          "service \"Shop\" \x7b deployment : blue-green \x7d",
          "exposure \"API\" \x7b to : \"partners\" through : \"Edge\" , \"Edge\" \x7d",
          "arch \x7b presentation : \"Web\" [ \"ssl\" , \"port\" : \"8\" ] > \"to\" gateway : \x7d",
          "arch \"Main\" \x7b presentation : gateway : \"Edge\" \"gateway\" \x7d"] ∧
      ∃ ts found, tokensOf (written marketplace) = .ok ts ∧ declarationsOfTokens ts = .ok found ∧
        unplaced (found.map (·.value)) = unplaced marketplace := by
  have huser : isIdentifier "user" = true := rfl
  have hcanary : isIdentifier "canary" = true := rfl
  have hblueGreen : isIdentifier "blue-green" = true := rfl
  have hwhole : IsPercentage "10%" :=
    ⟨['1', '0'], .whole nofun (List.all_eq_true.1 rfl), rfl⟩
  have hdecimal : Decimal (['2'] ++ '.' :: ['5']) :=
    .point nofun (List.all_eq_true.1 rfl) nofun (List.all_eq_true.1 rfl)
  have hpoint : IsPercentage "2.5%" := ⟨_, hdecimal, rfl⟩
  have hwritable : ∀ d ∈ marketplace, d.Writable := by
    simp [marketplace, Declaration.Writable, ActorDecl.Writable, ServiceDecl.Writable,
      PropertyDecl.Writable, DeploymentDecl.Writable, ArchDecl.Writable, huser, hcanary,
      hblueGreen, hwhole, hpoint]
  exact ⟨by decide +kernel, declarations_written hwritable⟩

end ArchLang
