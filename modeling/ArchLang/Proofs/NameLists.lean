import ArchLang.Proofs.Lookahead

/-!
# A comma behind a list of names

A list of names may end with a comma.  What stands behind the comma decides what becomes of it: a
name that follows belongs to the list, even if it is meant as the key of the next line.

* `follower?` — the next token that counts.
* `Declaration.listed` — the names in the lists of a declaration.
* `MoreNames w others r` — what is read of a list behind one of its names, as a relation with one
  case for each way in which a list goes on or ends.
* `Line p l` — a line of a body, that is, a key, a colon and a value that may list the names `l`.
* `TakesComma` — what one comma more behind a name does to a parser: nothing when no name follows,
  and otherwise that name goes to the list and its colon is refused.
* `Edits p l` — each name in `l` stands among the tokens, and if no comma follows it `TakesComma`
  holds there.

The step is `edits_manyUntil_line`, the loop over the lines of a body.  From there it goes through
blocks to whole programs; what stands before a list is read as before (`Proofs.Lookahead`).
-/

namespace ArchLang

open ArchLang.Parser ArchLang.Grammar

variable {α β : Type}

/-! ## What follows -/

/-- The first token that counts. -/
def follower? (s : Tokens) : Option Token :=
  (s.find? fun t => !t.value.isTrivia).map (·.value)

lemma follower?_of_blank {s : Tokens} (hs : Blank s) : follower? s = none := by
  rw [follower?, List.find?_eq_none.2 fun t ht => by simp [hs t ht]]
  rfl

lemma follower?_append {g w : Tokens} {x : Located Token} (hg : Blank g)
    (hx : x.value.isTrivia = false) : follower? (g ++ x :: w) = some x.value := by
  rw [follower?, List.find?_append, List.find?_eq_none.2 fun t ht => by simp [hg t ht],
    Option.none_or, List.find?_cons_of_pos (by simp [hx])]
  rfl

lemma exists_of_follower? {s : Tokens} {t : Token} (h : follower? s = some t) :
    ∃ g x w, s = g ++ x :: w ∧ Blank g ∧ x.value = t ∧ x.value.isTrivia = false := by
  rcases exists_blank_append s with hs | ⟨g, x, w, rfl, hg, hx⟩
  · rw [follower?_of_blank hs] at h
    cases h
  · rw [follower?_append hg hx] at h
    exact ⟨g, x, w, rfl, hg, Option.some.inj h, hx⟩

lemma follower?_of_around {m : Mark} {s r : Tokens} (h : around m s = .done () r) :
    follower? s = some (.mark m) := by
  obtain ⟨u, rfl, g, x, g', rfl, hg, hx, -⟩ := around_eq_done h
  rw [List.append_assoc, List.cons_append, follower?_append hg (by rw [hx]; rfl), hx]

/-! ## The names of a list -/

/-- The names in the list of a property line, if it has one. -/
def PropertyDecl.listed : PropertyDecl → List Text
  | domains names => names
  | dataStores names => names
  | language _ => []
  | deployment _ => []

/-- The names in the lists of a service. -/
def ServiceDecl.listed (service : ServiceDecl) : List Text :=
  service.properties.flatMap PropertyDecl.listed

/-- The names in the lists of an exposure. -/
def ExposureDecl.listed (exposure : ExposureDecl) : List Text :=
  exposure.audience ++ exposure.exposed ++ exposure.gateways

/-- The names in the lists of a declaration. -/
def Declaration.listed : Declaration → List Text
  | service decl => decl.listed
  | services decls => decls.flatMap ServiceDecl.listed
  | exposure decl => decl.listed
  | _ => []

namespace Grammar

/-- What is read of a list behind one of its names: the names behind it and the tokens left. -/
inductive MoreNames : Tokens → List Text → Tokens → Prop where
  /-- no comma -/
  | stop {w : Tokens} : follower? w ≠ some (.mark .comma) → MoreNames w [] w
  /-- a trailing comma -/
  | trailing {g w : Tokens} {c : Located Token} : Blank g → c.value = .mark .comma →
      (follower? w).bind nameOf = none → MoreNames (g ++ c :: w) [] w
  | more {g g' w r : Tokens} {c y : Located Token} {name : String} {others : List Text} :
      Blank g → c.value = .mark .comma → Blank g' → nameOf y.value = some name →
      MoreNames w others r → MoreNames (g ++ c :: (g' ++ y :: w)) (⟨name, y.span⟩ :: others) r

lemma exists_moreNames (w : Tokens) : ∃ others r, MoreNames w others r := by
  induction hlen : w.length using Nat.strong_induction_on generalizing w with
  | _ k ih =>
      by_cases hcomma : follower? w = some (.mark .comma)
      · obtain ⟨g, c, w, rfl, hg, hc, -⟩ := exists_of_follower? hcomma
        cases hname : (follower? w).bind nameOf with
        | none => exact ⟨[], w, .trailing hg hc hname⟩
        | some name =>
            obtain ⟨_, hnext, hname⟩ := Option.bind_eq_some_iff.1 hname
            obtain ⟨g', y, w, rfl, hg', rfl, -⟩ := exists_of_follower? hnext
            have hlt : w.length < k := by
              simp only [List.length_append, List.length_cons] at hlen
              omega
            obtain ⟨others, r, h⟩ := ih w.length hlt w rfl
            exact ⟨_, r, .more hg hc hg' hname h⟩
      · exact ⟨[], w, .stop hcomma⟩

/-- No comma follows a name exactly if it is the last of its list and the list ends with it. -/
lemma MoreNames.no_comma_iff {w r : Tokens} {others : List Text} (h : MoreNames w others r) :
    follower? w ≠ some (.mark .comma) ↔ others = [] ∧ w = r := by
  have hcomma : ∀ {g w : Tokens} {c : Located Token}, Blank g → c.value = .mark .comma →
      follower? (g ++ c :: w) = some (.mark .comma) := fun hg hc => by
    rw [follower?_append hg (by rw [hc]; rfl), hc]
  cases h with
  | stop h => exact ⟨fun _ => ⟨rfl, rfl⟩, fun _ => h⟩
  | @trailing g _ c hg hc =>
      refine ⟨fun hne => absurd (hcomma hg hc) hne, fun hend => ?_⟩
      have hlen := congrArg List.length hend.2
      simp only [List.length_append, List.length_cons] at hlen
      omega
  | more hg hc => exact ⟨fun hne => absurd (hcomma hg hc) hne, fun hend => (nomatch hend.1)⟩

lemma listComma_of_comma {g w : Tokens} {c : Located Token} (hg : Blank g)
    (hc : c.value = .mark .comma) (p : Unit → Parser α) :
    (listComma >>= p) (g ++ c :: w) = p () (w.dropWhile fun t => t.value.isTrivia) :=
  bind_of_done p (around_of_eq hg hc)

/-- Without a comma neither a separator nor a trailing comma is read. -/
lemma failed_of_no_comma {w : Tokens} (h : follower? w ≠ some (.mark .comma)) :
    (∃ e, around .comma w = .failed e ∧ e.committed = false) ∧
      optional (gap >>= fun _ => mark .comma) w = .done none w := by
  rcases exists_blank_append w with hw | ⟨g, x, w, rfl, hg, hx⟩
  · have hmark : (gap >>= fun _ => mark .comma) w = .failed ⟨false, [.mark .comma], [], none⟩ := by
      rw [gap_bind_of_blank _ hw, mark_nil]
    exact ⟨⟨_, around_of_blank hw, rfl⟩, optional_of_open hmark rfl⟩
  · rw [follower?_append hg hx] at h
    have hne : x.value ≠ .mark .comma := fun hx => h (congrArg some hx)
    have hmark : (gap >>= fun _ => mark .comma) (g ++ x :: w)
        = .failed ⟨false, [.mark .comma], x :: w, none⟩ := by
      rw [gap_bind_append _ hg hx, mark_cons_of_ne w hne]
    exact ⟨⟨_, around_of_ne hg hx hne, rfl⟩, optional_of_open hmark rfl⟩

lemma MoreNames.many_eq {w r : Tokens} {others : List Text} (h : MoreNames w others r) :
    ∃ r', many (listComma >>= fun _ => anyName) w = .done others r' ∧
      ∃ o, optional (gap >>= fun _ => mark .comma) r' = .done o r := by
  induction h with
  | @stop w h =>
      obtain ⟨⟨e, he, hopen⟩, hoptional⟩ := failed_of_no_comma h
      have hitem : (listComma >>= fun _ => anyName) w = .failed e := bind_of_failed _ he
      refine ⟨w, ?_, none, hoptional⟩
      rw [many_of_failed _ hitem, hopen]
      rfl
  | @trailing g w c hg hc hname =>
      have hfailed : ∃ e, anyName (w.dropWhile fun t => t.value.isTrivia) = .failed e ∧
          e.committed = false := by
        rcases exists_blank_append w with hw | ⟨g', y, w, rfl, hg', hy⟩
        · rw [dropWhile_trivia_of_blank hw]
          exact ⟨_, anyName_nil, rfl⟩
        · rw [follower?_append hg' hy] at hname
          rw [dropWhile_trivia_append hg' hy]
          exact ⟨_, anyName_cons_of_none w hname, rfl⟩
      obtain ⟨e, he, hopen⟩ := hfailed
      have hitem : (listComma >>= fun _ => anyName) (g ++ c :: w) = .failed e :=
        (listComma_of_comma hg hc _).trans he
      refine ⟨g ++ c :: w, ?_, some c.span, optional_of_done ?_⟩
      · rw [many_of_failed _ hitem, hopen]
        rfl
      · rw [gap_bind_append _ hg (by rw [hc]; rfl)]
        exact mark_cons_of_eq w hc
  | @more g g' w r c y name others hg hc hg' hy _ ih =>
      obtain ⟨r', hmany, htail⟩ := ih
      have hitem : (listComma >>= fun _ => anyName) (g ++ c :: (g' ++ y :: w))
          = .done ⟨name, y.span⟩ w := by
        rw [listComma_of_comma hg hc, dropWhile_trivia_append hg' (not_trivia_of_name hy)]
        exact anyName_cons_of_some w hy
      refine ⟨r', ?_, htail⟩
      rw [many_of_done _ hitem, hmany]
      rfl

lemma MoreNames.names_eq {w r : Tokens} {others : List Text} (h : MoreNames w others r)
    {y : Located Token} {name : String} (hy : nameOf y.value = some name) :
    names (y :: w) = .done (⟨name, y.span⟩ :: others) r := by
  obtain ⟨r', hmany, o, hoptional⟩ := h.many_eq
  have hlist : separated anyName listComma (y :: w) = .done (⟨name, y.span⟩ :: others) r' := by
    rw [separated, bind_of_done _ (anyName_cons_of_some w hy), bind_of_done _ hmany]
    rfl
  rw [names, bind_of_done _ (label_done.2 hlist), bind_of_done _ hoptional]
  rfl

lemma names_eq_done {s r : Tokens} {found : List Text} (h : names s = .done found r) :
    ∃ y w name others, s = y :: w ∧ nameOf y.value = some name ∧ MoreNames w others r ∧
      found = ⟨name, y.span⟩ :: others := by
  obtain ⟨y, w, rfl, name, hy⟩ : ∃ y w, s = y :: w ∧ ∃ name, nameOf y.value = some name := by
    unfold names separated at h
    obtain ⟨found, r', hlist, -⟩ := bind_eq_done.1 h
    obtain ⟨first, r'', hfirst, -⟩ := bind_eq_done.1 (label_done.1 hlist)
    obtain ⟨y, rfl, hy, -⟩ := token_eq_done.1 (label_done.1 hfirst)
    exact ⟨y, _, rfl, _, hy⟩
  obtain ⟨others, r', hmore⟩ := exists_moreNames w
  rw [hmore.names_eq hy] at h
  cases h
  exact ⟨y, w, name, others, rfl, hy, hmore, rfl⟩

/-- A token is a name, and this is its text and place. -/
def IsName (x : Text) (tok : Located Token) : Prop :=
  nameOf tok.value = some x.value ∧ tok.span = x.span

/-- Each name of a list stands somewhere among the tokens, and what stands behind it makes out the
names behind it. -/
lemma MoreNames.exists_name {w r : Tokens} {others : List Text} (h : MoreNames w others r)
    {x : Text} (hx : x ∈ others) :
    ∃ u tok post before behind, w = u ++ tok :: post ∧ IsName x tok ∧ MoreNames post behind r ∧
      others = before ++ x :: behind ∧
      ∀ {post' behind' r'}, MoreNames post' behind' r' →
        MoreNames (u ++ tok :: post') (before ++ x :: behind') r' := by
  induction h with
  | stop => cases hx
  | trailing => cases hx
  | @more g g' w r c y name others hg hc hg' hy hmore ih =>
      rcases List.mem_cons.1 hx with rfl | hx
      · exact ⟨g ++ c :: g', y, w, [], others, by simp, ⟨hy, rfl⟩, hmore, rfl, fun h => by
          simpa using .more hg hc hg' hy h⟩
      · obtain ⟨u, tok, post, before, behind, rfl, htok, hpost, rfl, hread⟩ := ih hx
        exact ⟨g ++ c :: (g' ++ y :: u), tok, post, ⟨name, y.span⟩ :: before, behind, by simp, htok,
          hpost, rfl, fun h => by simpa using .more hg hc hg' hy (hread h)⟩

/-- The same for the names of a whole list. -/
lemma exists_name_of_names {s r : Tokens} {found : List Text} (h : names s = .done found r)
    {x : Text} (hx : x ∈ found) :
    ∃ u tok post before behind, s = u ++ tok :: post ∧ IsName x tok ∧ MoreNames post behind r ∧
      found = before ++ x :: behind ∧
      ∀ {post' behind' r'}, MoreNames post' behind' r' →
        names (u ++ tok :: post') = .done (before ++ x :: behind') r' := by
  obtain ⟨y, w, name, others, rfl, hy, hmore, rfl⟩ := names_eq_done h
  rcases List.mem_cons.1 hx with rfl | hx
  · exact ⟨[], y, w, [], others, rfl, ⟨hy, rfl⟩, hmore, rfl, fun h => h.names_eq hy⟩
  · obtain ⟨u, tok, post, before, behind, rfl, htok, hpost, rfl, hread⟩ := hmore.exists_name hx
    exact ⟨y :: u, tok, post, ⟨name, y.span⟩ :: before, behind, rfl, htok, hpost, rfl,
      fun h => (hread h).names_eq hy⟩

end Grammar

/-! ## Lines that list names -/

lemma guarded_of_isName {x : Text} {tok : Located Token} (h : IsName x tok) (u : Tokens) :
    Guarded .significant (u ++ [tok]) :=
  ⟨tok, by simp, by simpa [Guard.holds] using not_trivia_of_name h.1⟩

namespace Parser

/-- A reader of lines, each a key, a colon and a value that may list names. -/
class Line (p : Parser α) (l : α → List Text) : Prop where
  /-- What stands behind a name makes out the names behind it, and nothing else of the line. -/
  exists_name : ∀ {s a r}, p s = .done a r → ∀ x ∈ l a,
    ∃ u tok post behind, ∃ build : List Text → α, s = u ++ tok :: post ∧ IsName x tok ∧
      Guarded (.mark .colon) u ∧ MoreNames post behind r ∧ a = build behind ∧
      ∀ {post' behind' r'}, MoreNames post' behind' r' →
        p (u ++ tok :: post') = .done (build behind') r'
  key : ∀ {y w a r}, p (y :: w) = .done a r →
    (∀ m, y.value ≠ .mark m) ∧ follower? w = some (.mark .colon)
  mark : ∀ {y w m}, y.value = .mark m → ∃ e, p (y :: w) = .failed e ∧ e.rest = y :: w

/-- The names of a line that lists names behind its key. -/
lemma exists_name_of_line {κ : Type} {listed : α → List Text} (key : Parser κ)
    (value : Tokens → κ → Parser α) [Forward key] [Closed key key]
    (hvalue : ∀ k, (∃ build : List Text → α, (∀ found, listed (build found) = found) ∧
        ∀ start, value start k
          = around .colon >>= fun _ => names >>= fun found => pure (build found))
      ∨ ∀ {start s a r}, value start k s = .done a r → listed a = [])
    {s r : Tokens} {a : α} (h : (here >>= fun start => key >>= value start) s = .done a r)
    {x : Text} (hx : x ∈ listed a) :
    ∃ u tok post behind, ∃ build : List Text → α, s = u ++ tok :: post ∧ IsName x tok ∧
      Guarded (.mark .colon) u ∧ MoreNames post behind r ∧ a = build behind ∧
      ∀ {post' behind' r'}, MoreNames post' behind' r' →
        (here >>= fun start => key >>= value start) (u ++ tok :: post')
          = .done (build behind') r' := by
  rw [here_bind_apply] at h
  obtain ⟨k, s', hkey, hrest⟩ := bind_eq_done.1 h
  rcases hvalue k with ⟨build, hlisted, hvalue⟩ | hnil
  · rw [hvalue] at hrest
    obtain ⟨_, s'', found, hcolon, hnames, rfl⟩ := pair_eq_done hrest
    rw [hlisted] at hx
    obtain ⟨u, tok, post, before, behind, rfl, htok, hmore, rfl, hread⟩ :=
      exists_name_of_names hnames hx
    obtain ⟨v, rfl, hv⟩ := around_eq_done hcolon
    obtain ⟨w, rfl⟩ := exists_taken hkey
    refine ⟨w ++ (v ++ u), tok, post, behind, fun behind => build (before ++ x :: behind), by simp,
      htok, ?_, hmore, rfl, fun {post' _ _} h => ?_⟩
    · obtain ⟨g, c, g', rfl, -, hc, -⟩ := hv
      exact ⟨c, by simp, by simp [Guard.holds, hc]⟩
    · have hkey' : key (w ++ (v ++ (u ++ tok :: post'))) = .done k (v ++ (u ++ tok :: post')) :=
        Closed.done (p := key) (by simpa using hkey) _
      have hcolon' : around .colon (v ++ ((u ++ [tok]) ++ post'))
          = .done () ((u ++ [tok]) ++ post') :=
        Glances.done (p := around .colon) (t := post) (by simpa using hcolon)
          (guarded_of_isName htok u) post'
      simp only [List.append_assoc, List.singleton_append] at hkey' hcolon' ⊢
      refine (bind_of_done _ hkey').trans ?_
      rw [hvalue]
      exact (bind_of_done _ hcolon').trans (bind_of_done _ (hread h))
  · rw [hnil hrest] at hx
    cases hx

end Parser

namespace Grammar

instance : Line property PropertyDecl.listed where
  exists_name h x hx := by
    refine exists_name_of_line (label .serviceProperty (token propertyKeyOf))
      (fun start key => around .colon >>= fun _ => propertyValue start key.value)
      (fun key => ?_) h hx
    by_cases hdomains : key.value = "domains"
    · exact Or.inl ⟨.domains, fun _ => rfl, fun start => by rw [propertyValue, if_pos hdomains]⟩
    by_cases hstores : key.value = "data-stores"
    · exact Or.inl ⟨.dataStores, fun _ => rfl, fun start => by
        rw [propertyValue, if_neg hdomains, if_pos hstores]⟩
    refine Or.inr fun {start s a r} h => ?_
    obtain ⟨_, s', -, hvalue⟩ := bind_eq_done.1 h
    rw [propertyValue, if_neg hdomains, if_neg hstores] at hvalue
    split_ifs at hvalue
    · obtain ⟨name, r', -, hpure⟩ := bind_eq_done.1 hvalue
      cases hpure
      rfl
    · obtain ⟨d, r', -, hpure⟩ := bind_eq_done.1 hvalue
      cases hpure
      rfl
    · cases hvalue
  key {y w a r} h := by
    rw [property, here_bind_apply] at h
    obtain ⟨key, s', hkey, hrest⟩ := bind_eq_done.1 h
    obtain ⟨y', hs, hy, -⟩ := token_eq_done.1 (label_done.1 hkey)
    cases hs
    obtain ⟨_, s'', hcolon, -⟩ := bind_eq_done.1 hrest
    exact ⟨fun m hm => (by rw [hm] at hy; cases hy), follower?_of_around hcolon⟩
  mark {y w m} hy := by
    have hkey : label .serviceProperty (token propertyKeyOf) (y :: w)
        = .failed ⟨false, [.serviceProperty], y :: w, none⟩ := by
      simp [label, token, propertyKeyOf, hy]
    exact ⟨_, (here_bind_apply _ _).trans (bind_of_failed _ hkey), rfl⟩

instance : Line exposureLine fun line => line.2 where
  exists_name h x hx := by
    refine exists_name_of_line bareName
      (fun start key => exposureLineOf start (ExposureKey.ofKey? key.value)) (fun key => ?_) h hx
    cases ExposureKey.ofKey? key.value with
    | none => exact Or.inr fun h => (nomatch h)
    | some field => exact Or.inl ⟨fun found => (field, found), fun _ => rfl, fun _ => rfl⟩
  key {y w a r} h := by
    rw [exposureLine, here_bind_apply] at h
    obtain ⟨key, s', hkey, hrest⟩ := bind_eq_done.1 h
    obtain ⟨y', hs, hy, -⟩ := token_eq_done.1 (label_done.1 hkey)
    cases hs
    refine ⟨fun m hm => (by rw [hm] at hy; cases hy), ?_⟩
    cases hfield : ExposureKey.ofKey? key.value with
    | none => rw [hfield] at hrest; cases hrest
    | some field =>
        rw [hfield] at hrest
        obtain ⟨_, s'', hcolon, -⟩ := bind_eq_done.1 hrest
        exact follower?_of_around hcolon
  mark {y w m} hy := by
    have hkey : bareName (y :: w) = .failed ⟨false, [.identifier], y :: w, none⟩ := by
      simp [bareName, label, token, identifierOf, hy]
    exact ⟨_, (here_bind_apply _ _).trans (bind_of_failed _ hkey), rfl⟩

end Grammar

/-! ## One comma more -/

/-- What a comma behind the last name of a list does to a reader: nothing when no name follows it,
and otherwise that name goes to the list and its colon is refused. -/
structure TakesComma (p : Parser α) (u : Tokens) (tok : Located Token) (post : Tokens) (a : α)
    (r : Tokens) : Prop where
  mark_eq : ∀ m, follower? post = some (.mark m) → m = .rightBrace
  inert : ∀ c, c.value = .mark .comma → (follower? post).bind nameOf = none →
    p (u ++ tok :: c :: post) = .done a r
  refused : ∀ c, c.value = .mark .comma → (follower? post).bind nameOf ≠ none →
    ∃ e, p (u ++ tok :: c :: post) = .failed e ∧ ¬ Blank e.rest

/-- A reader that ends as another one does takes the comma as the other one does. -/
lemma TakesComma.imp {p : Parser α} {p' : Parser β} {u u' post r r' : Tokens} {tok : Located Token}
    {a : α} {b : β} (h : TakesComma p u tok post a r)
    (hdone : ∀ {s}, p (u ++ tok :: s) = .done a r → p' (u' ++ tok :: s) = .done b r')
    (hfailed : ∀ {s e}, p (u ++ tok :: s) = .failed e →
      ∃ e', p' (u' ++ tok :: s) = .failed e' ∧ e'.rest = e.rest) :
    TakesComma p' u' tok post b r' where
  mark_eq := h.mark_eq
  inert c hc hname := hdone (h.inert c hc hname)
  refused c hc hname := by
    obtain ⟨e, he, hrest⟩ := h.refused c hc hname
    obtain ⟨e', he', heq⟩ := hfailed he
    exact ⟨e', he', heq ▸ hrest⟩

namespace Parser

/-- Each name that is listed stands among the tokens, behind a colon, and if no comma follows it
one comma more does to the reader what it does to its lines. -/
class Edits (p : Parser α) (listed : α → List Text) : Prop where
  exists_name : ∀ {s a r}, p s = .done a r → ∀ x ∈ listed a, ∃ u tok post,
    s = u ++ tok :: post ∧ IsName x tok ∧ Guarded (.mark .colon) u ∧
      (follower? post ≠ some (.mark .comma) → TakesComma p u tok post a r)

section Edits

variable {listed : α → List Text} {listed' : β → List Text}

lemma edits_of_eq_nil {p : Parser α} (h : ∀ {s a r}, p s = .done a r → listed a = []) :
    Edits p listed :=
  ⟨fun hp x hx => by rw [h hp] at hx; cases hx⟩

instance edits_label (what : Expected) (p : Parser α) [Edits p listed] :
    Edits (label what p) listed := by
  refine ⟨fun {s a r} h x hx => ?_⟩
  obtain ⟨u, tok, post, hs, htok, hu, hcomma⟩ := Edits.exists_name (label_done.1 h) x hx
  exact ⟨u, tok, post, hs, htok, hu, fun hne => (hcomma hne).imp label_done.2
    fun he => ⟨_, label_of_failed what he, rfl⟩⟩

instance edits_commit (p : Parser α) [Edits p listed] : Edits (commit p) listed := by
  refine ⟨fun {s a r} h x hx => ?_⟩
  obtain ⟨u, tok, post, hs, htok, hu, hcomma⟩ := Edits.exists_name (commit_done.1 h) x hx
  exact ⟨u, tok, post, hs, htok, hu, fun hne => (hcomma hne).imp commit_done.2
    fun he => ⟨_, commit_of_failed he, rfl⟩⟩

/-- What stands before a list is read as before. -/
instance edits_bind (p : Parser α) (f : α → Parser β) [Forward p] [Glances (some .significant) p p]
    [∀ a, Edits (f a) listed'] : Edits (p >>= f) listed' := by
  refine ⟨fun {s b r} h x hx => ?_⟩
  obtain ⟨a, s', hp, hf⟩ := bind_eq_done.1 h
  obtain ⟨w, rfl⟩ := exists_taken hp
  obtain ⟨u, tok, post, rfl, htok, hu, hcomma⟩ := Edits.exists_name hf x hx
  have hread : ∀ {post'}, (p >>= f) (w ++ u ++ tok :: post') = f a (u ++ tok :: post') := by
    intro post'
    have hp' : p (w ++ ((u ++ [tok]) ++ post')) = .done a ((u ++ [tok]) ++ post') :=
      Glances.done (p := p) (t := post) (by simpa using hp) (guarded_of_isName htok u) post'
    simp only [List.append_assoc, List.singleton_append] at hp' ⊢
    exact bind_of_done f hp'
  exact ⟨w ++ u, tok, post, by simp, htok, guarded_append w hu, fun hne =>
    (hcomma hne).imp hread.trans fun he => ⟨_, hread.trans he, rfl⟩⟩

lemma edits_bind_pure {p : Parser α} (listed : α → List Text) [Edits p listed] (g : α → β)
    (hg : ∀ a, listed' (g a) ⊆ listed a) : Edits (p >>= fun a => pure (g a)) listed' := by
  refine ⟨fun {s b r} h x hx => ?_⟩
  obtain ⟨a, hp, rfl⟩ := bind_pure_eq_done h
  obtain ⟨u, tok, post, hs, htok, hu, hcomma⟩ := Edits.exists_name hp x (hg a hx)
  exact ⟨u, tok, post, hs, htok, hu, fun hne => (hcomma hne).imp (bind_of_done _)
    fun he => ⟨_, bind_of_failed _ he, rfl⟩⟩

/-- Tokens with a name among them begin alike whatever stands behind it. -/
lemma exists_cons {u post w : Tokens} {tok y : Located Token} (h : y :: w = u ++ tok :: post) :
    ∃ v, ∀ post', u ++ tok :: post' = y :: (v ++ post') := by
  cases u with
  | nil =>
      cases h
      exact ⟨[], fun _ => rfl⟩
  | cons y' u =>
      cases h
      exact ⟨u ++ [tok], fun _ => by simp⟩

section Loops

variable (stop : Parser β) (item : Parser α) [Consumes item]

omit [Consumes item] in
/-- The same token stops a loop or does not, whatever stands behind it. -/
lemma stop_failed [Glimpses stop] {y : Located Token} {w : Tokens} {e : Failure}
    (hs : stop (y :: w) = .failed e) (he : e.committed = false) (w' : Tokens) :
    ∃ e', stop (y :: w') = .failed e' ∧ e'.committed = false := by
  rcases alike_cases (Glimpses.alike (p := stop) y w w') with
    ⟨b, r, r', hs', -⟩ | ⟨e₁, e₂, h₁, h₂, h⟩
  · rw [hs] at hs'
    cases hs'
  · rw [hs] at h₁
    cases h₁
    exact ⟨e₂, h₂, h ▸ he⟩

/-- In front of a line with a name a loop reads the same item, whatever stands behind the name. -/
lemma manyUntil_before_name [Forward item] [Glimpses stop] [Glances (some (.mark .colon)) item item]
    {g w v u post : Tokens} {y tok : Located Token} {e : Failure} {a : α} (hg : Blank g)
    (hy : y.value.isTrivia = false) (hs : stop (y :: w) = .failed e) (he : e.committed = false)
    (hw : y :: w = v ++ (u ++ tok :: post)) (hi : item (y :: w) = .done a (u ++ tok :: post))
    (hu : Guarded (.mark .colon) u) (post' : Tokens) :
    manyUntil Token.isTrivia stop item (g ++ v ++ u ++ tok :: post')
      = (manyUntil Token.isTrivia stop item (u ++ tok :: post')).map
          fun found => (a :: found.1, found.2) := by
  obtain ⟨v', hv⟩ := exists_cons (u := v ++ u) (hw.trans (List.append_assoc _ _ _).symm)
  obtain ⟨e', hs', he'⟩ := stop_failed stop hs he (v' ++ post')
  rw [hw] at hi
  have hi' : item (v ++ ((u ++ [tok]) ++ post')) = .done a ((u ++ [tok]) ++ post') :=
    Glances.done (p := item) (t := post) (by simpa using hi) (by
      obtain ⟨c, hc, hcolon⟩ := hu
      exact ⟨c, by simp [hc], hcolon⟩) post'
  simp only [List.append_assoc, List.singleton_append] at hi' hv ⊢
  rw [manyUntil_blank_append item stop hg]
  rw [hv post'] at hi' ⊢
  exact manyUntil_of_done item stop (dropWhile_trivia_cons hy _) hs' he' hi'

/-- Each name stands among the tokens of an item, and the items before that one are read as
before. -/
lemma edits_manyUntil_of_first [Forward item] [Glimpses stop]
    [Glances (some (.mark .colon)) item item]
    (first : ∀ {y w e a r' found r}, y.value.isTrivia = false → stop (y :: w) = .failed e →
      e.committed = false → item (y :: w) = .done a r' →
      manyUntil Token.isTrivia stop item r' = .done found r → ∀ x ∈ listed a, ∃ u tok post,
        y :: w = u ++ tok :: post ∧ IsName x tok ∧ Guarded (.mark .colon) u ∧
          (follower? post ≠ some (.mark .comma) →
            TakesComma (manyUntil Token.isTrivia stop item) u tok post (a :: found.1, found.2) r)) :
    Edits (manyUntil Token.isTrivia stop item) fun found => found.1.flatMap listed := by
  refine ⟨fun {s found r} h x hx => ?_⟩
  induction hlen : s.length using Nat.strong_induction_on generalizing s found with
  | _ k ih =>
      rcases exists_blank_append s with hs | ⟨g, y, w, rfl, hg, hy⟩
      · rw [eq_nil_of_blank item stop hs h] at hx
        cases hx
      rw [manyUntil_blank_append item stop hg] at h
      rcases exists_turn item stop hy h with ⟨b, -, rfl⟩ | ⟨e, a, r', found', hs, he, hi, hm, rfl⟩
      · cases hx
      rw [List.flatMap_cons, List.mem_append] at hx
      rcases hx with hx | hx
      · obtain ⟨u, tok, post, hw, htok, hu, hcomma⟩ := first hy hs he hi hm x hx
        refine ⟨g ++ u, tok, post, by rw [hw, List.append_assoc], htok, guarded_append g hu,
          fun hne => (hcomma hne).imp (fun h => ?_) fun {_ e} h => ⟨e, ?_, rfl⟩⟩
        · rwa [List.append_assoc, manyUntil_blank_append item stop hg]
        · rwa [List.append_assoc, manyUntil_blank_append item stop hg]
      · have hlt : r'.length < k := by
          have hshort := Consumes.lt hi
          rw [List.length_append] at hlen
          omega
        obtain ⟨u, tok, post, rfl, htok, hu, hcomma⟩ := ih r'.length hlt hm hx rfl
        obtain ⟨v, hw⟩ := exists_taken hi
        have hread := manyUntil_before_name stop item hg hy hs he hw hi hu
        refine ⟨g ++ v ++ u, tok, post, by rw [hw]; simp, htok, guarded_append _ hu, fun hne =>
          (hcomma hne).imp (fun h => ?_) fun {_ e} h => ⟨e, ?_, rfl⟩⟩
        · rw [hread, h]
          rfl
        · rw [hread, h]
          rfl

/-- A loop over items that end by themselves. -/
instance edits_manyUntil [Forward item] [Glimpses stop] [Closed item item] [Edits item listed] :
    Edits (manyUntil Token.isTrivia stop item) fun found => found.1.flatMap listed := by
  refine edits_manyUntil_of_first stop item fun {y w e a r' found r} hy hs he hi hm x hx => ?_
  obtain ⟨u, tok, post, hw, htok, hu, hcomma⟩ := Edits.exists_name hi x hx
  obtain ⟨v, hv⟩ := exists_cons hw
  refine ⟨u, tok, post, hw, htok, hu, fun hne => (hcomma hne).imp (fun {s} h => ?_)
    fun {s e} h => ?_⟩
  · obtain ⟨e', hs', he'⟩ := stop_failed stop hs he (v ++ s)
    rw [hv] at h ⊢
    rw [manyUntil_of_done item stop (dropWhile_trivia_cons hy _) hs' he' h, hm]
    rfl
  · obtain ⟨e', hs', he'⟩ := stop_failed stop hs he (v ++ s)
    rw [hv] at h ⊢
    exact ⟨e, manyUntil_of_failed item stop (dropWhile_trivia_cons hy _) hs' he' h, rfl⟩

section Lines

variable (listed) [Forward item] [Line item listed]

include listed

/-- In front of the lines of a body stands its closing brace, or a key and then a colon. -/
lemma front_of_lines {post r : Tokens} {found : List α × Span}
    (h : manyUntil Token.isTrivia (Grammar.mark .rightBrace) item post = .done found r) :
    follower? post = some (.mark .rightBrace) ∨
      ∃ g z w, post = g ++ z :: w ∧ Blank g ∧ z.value.isTrivia = false ∧
        (∀ m, z.value ≠ .mark m) ∧ follower? w = some (.mark .colon) := by
  rcases exists_blank_append post with hpost | ⟨g, z, w, rfl, hg, hz⟩
  · obtain ⟨u, rfl, hu⟩ := guarded_of_manyUntil item h
    exact absurd (blank_append.1 hpost).1 hu.not_blank
  rw [manyUntil_blank_append item _ hg] at h
  rcases exists_turn item _ hz h with ⟨b, hstop, -⟩ | ⟨_, a, _, _, -, -, hitem, -, -⟩
  · obtain ⟨z', hcons, hbrace⟩ := mark_eq_done hstop
    cases hcons
    exact Or.inl (by rw [follower?_append hg hz, hbrace])
  · obtain ⟨hkey, hcolon⟩ := Line.key (p := item) (l := listed) hitem
    exact Or.inr ⟨g, z, w, rfl, hg, hz, hkey, hcolon⟩

omit [Forward item] in
/-- A colon does not stand in front of the lines of a body. -/
lemma lines_failed_of_colon {w : Tokens} (h : follower? w = some (.mark .colon)) :
    ∃ e, manyUntil Token.isTrivia (Grammar.mark .rightBrace) item w = .failed e ∧
      ¬ Blank e.rest := by
  obtain ⟨g, k, w, rfl, hg, hk, hsig⟩ := exists_of_follower? h
  obtain ⟨e, he, hrest⟩ := Line.mark (p := item) (l := listed) (w := w) hk
  have hbrace : k.value ≠ .mark .rightBrace := by simp [hk]
  refine ⟨e, ?_, hrest ▸ not_blank_cons hsig w⟩
  rw [manyUntil_blank_append item _ hg]
  exact manyUntil_of_failed item _ (dropWhile_trivia_cons hsig w) (mark_cons_of_ne w hbrace) rfl he

/-- A loop over lines.  Behind a name that goes to a list against the will of its author, the loop
meets the colon of that name. -/
instance edits_manyUntil_line [Glances (some (.mark .colon)) item item] :
    Edits (manyUntil Token.isTrivia (Grammar.mark .rightBrace) item)
      fun found => found.1.flatMap listed := by
  refine edits_manyUntil_of_first _ item fun {y w e a r' found r} hy hs he hi hm x hx => ?_
  obtain ⟨u, tok, post, behind, build, hw, htok, hu, hmore, rfl, hread⟩ := Line.exists_name hi x hx
  obtain ⟨v, hv⟩ := exists_cons hw
  refine ⟨u, tok, post, hw, htok, hu, fun hne => ?_⟩
  obtain ⟨rfl, rfl⟩ := hmore.no_comma_iff.1 hne
  have hfront := front_of_lines listed item hm
  -- the loop behind the list, however the line with the list was read
  have hturn : ∀ {s b r'}, item (u ++ tok :: s) = .done b r' →
      manyUntil Token.isTrivia (Grammar.mark .rightBrace) item (u ++ tok :: s)
        = (manyUntil Token.isTrivia (Grammar.mark .rightBrace) item r').map
            fun found => (b :: found.1, found.2) := fun {s b r'} h => by
    obtain ⟨e', hs', he'⟩ := stop_failed (Grammar.mark .rightBrace) hs he (v ++ s)
    rw [hv] at h ⊢
    exact manyUntil_of_done item _ (dropWhile_trivia_cons hy _) hs' he' h
  refine ⟨fun m hmark => ?_, fun c hc hname => ?_, fun c hc hname => ?_⟩
  · rcases hfront with hbrace | ⟨g, z, post, rfl, hg, hz, hkey, -⟩
    · exact Token.mark.inj (Option.some.inj (hmark.symm.trans hbrace))
    · rw [follower?_append hg hz] at hmark
      exact absurd (Option.some.inj hmark) (hkey m)
  · have hitem : item (u ++ tok :: c :: post) = .done (build []) post :=
      hread (.trailing blank_nil hc hname)
    rw [hturn hitem, hm]
    rfl
  · rcases hfront with hbrace | ⟨g, z, post, rfl, hg, hz, -, hcolon⟩
    · rw [hbrace] at hname
      exact absurd rfl hname
    rw [follower?_append hg hz] at hname
    obtain ⟨name, hz'⟩ := Option.ne_none_iff_exists'.1 hname
    have hitem : item (u ++ tok :: c :: (g ++ z :: post)) = .done (build [⟨name, z.span⟩]) post :=
      hread (.more blank_nil hc hg hz' (.stop (by simp [hcolon])))
    obtain ⟨e', hloop, hrest⟩ := lines_failed_of_colon listed item hcolon
    exact ⟨e', by rw [hturn hitem, hloop]; rfl, hrest⟩

end Lines

end Loops

end Edits

end Parser

namespace Grammar

/-! ### Declarations -/

section Block

variable {listed : α → List Text} (item : Parser α) [Consumes item] [Forward item]

instance [Edits (manyUntil Token.isTrivia (mark .rightBrace) item) fun found =>
      found.1.flatMap listed] : Edits (block item) fun body => body.1.flatMap listed := by
  have (opening : Span) : Edits
      (manyUntil Token.isTrivia (mark .rightBrace) item >>= fun body =>
        pure (body.1, opening.union body.2))
      fun body => body.1.flatMap listed :=
    edits_bind_pure (fun found => found.1.flatMap listed) _ fun _ => List.Subset.refl _
  unfold block
  infer_instance

end Block

instance : Edits service fun decl => decl.value.listed := by
  have (name : Text) : Edits (block property >>= fun body =>
        pure (⟨⟨name, body.1⟩, name.span.union body.2⟩ : Located ServiceDecl))
      fun decl => decl.value.listed :=
    edits_bind_pure (fun body => body.1.flatMap PropertyDecl.listed) _ fun _ => List.Subset.refl _
  unfold service
  infer_instance

instance (start : Span) : Edits (serviceBody start) fun d => d.value.listed := by
  have : Edits (service >>= fun found =>
        pure (⟨.service found.value, start.union found.span⟩ : Located Declaration))
      fun d => d.value.listed :=
    edits_bind_pure (fun decl => decl.value.listed) _ fun _ => List.Subset.refl _
  unfold serviceBody
  infer_instance

instance (start : Span) : Edits (servicesBody start) fun d => d.value.listed := by
  have : Edits (block service >>= fun body =>
        pure (⟨.services (body.1.map (·.value)), start.union body.2⟩ : Located Declaration))
      fun d => d.value.listed :=
    edits_bind_pure (fun body => body.1.flatMap fun decl => decl.value.listed) _ fun body => by
      simp [Declaration.listed, List.flatMap_map]
  unfold servicesBody
  infer_instance

lemma namesOf_subset (field : ExposureKey) (lines : List (ExposureKey × List Text)) :
    namesOf field lines ⊆ lines.flatMap fun line => line.2 := by
  intro x hx
  obtain ⟨line, hline, hx⟩ := List.mem_flatMap.1 hx
  split_ifs at hx with hfield
  · exact List.mem_flatMap.2 ⟨line, hline, hx⟩
  · cases hx

instance (start : Span) : Edits (exposureBody start) fun d => d.value.listed := by
  have (name : Text) : Edits (block exposureLine >>= fun body =>
        pure (⟨.exposure ⟨name, namesOf .audience body.1, namesOf .exposed body.1,
          namesOf .gateways body.1⟩, start.union body.2⟩ : Located Declaration))
      fun d => d.value.listed :=
    edits_bind_pure (fun body => body.1.flatMap fun line => line.2) _ fun body =>
      List.append_subset.2 ⟨List.append_subset.2 ⟨namesOf_subset _ _, namesOf_subset _ _⟩,
        namesOf_subset _ _⟩
  unfold exposureBody
  infer_instance

instance (start : Span) (k : Keyword) :
    Edits (declarationBody start k) fun d => d.value.listed := by
  cases k with
  | services => exact inferInstanceAs (Edits (servicesBody start) _)
  | service => exact inferInstanceAs (Edits (serviceBody start) _)
  | exposure => exact inferInstanceAs (Edits (exposureBody start) _)
  | _ =>
      -- nothing is listed by the others
      refine edits_of_eq_nil fun {s a r} h => ?_
      repeat obtain ⟨_, _, -, h⟩ := bind_eq_done.1 h
      cases h
      rfl

instance : Edits declaration fun d => d.value.listed := by unfold declaration; infer_instance

instance : Edits declarations fun ds => ds.flatMap fun d => d.value.listed := by
  have : Edits (manyUntil Token.isTrivia atEnd declaration) fun found =>
      found.1.flatMap fun d => d.value.listed := edits_manyUntil _ _
  unfold declarations
  exact edits_bind_pure _ _ fun _ => List.Subset.refl _

end Grammar

end ArchLang
