import ArchLang.Proofs.Readers
import Mathlib.Data.List.Flatten
import Mathlib.Data.List.Forall2
import Mathlib.Tactic.Common

/-!
# Texts and their tokens

Every text of a declaration was read from one token and has the span of that token.  The texts of
one list were read one after another, so their tokens stand in the order of the list.

* `textRead t` — the text that a token gives to a record, whichever reader it meets.
* `IsTextOf x t` — the text `x` was read from the token `t`.
* `Declaration.textLists` — the texts of a declaration, in the order in which they were written.
  The lines of an exposure and the sections of an architecture are sorted by their keys when they
  are stored, so there is a list for each key.
* `TextsFrom s xs r` — the texts `xs` were read from some of the tokens of `s` in front of `r`.
* **`textsFrom_declaration`** — so was every list of a declaration.

`TextsFrom` is carried through the grammar reader by reader.  A step that reads no text only drops
tokens (`TextsFrom.after`, `TextsFrom.before`), and two steps that do are joined
(`TextsFrom.trans`); the loops are joined once for all readers of an item (`textsFrom_many`,
`textsFrom_manyUntil`, `textsFrom_separated`).
-/

namespace ArchLang

open ArchLang.Parser ArchLang.Grammar

/-! ## The texts of a record -/

/-- Kind and name. -/
def ActorDecl.texts (d : ActorDecl) : List Text := [d.kind, d.name]

/-- The name, then the sub-domains. -/
def DomainDecl.texts (d : DomainDecl) : List Text := d.name :: d.subDomains

/-- Percentage and target. -/
def RuleDecl.texts (d : RuleDecl) : List Text := [d.percentage, d.target]

/-- The kind, then the rules. -/
def DeploymentDecl.texts (d : DeploymentDecl) : List Text :=
  d.kind :: d.rules.flatMap RuleDecl.texts

/-- What stands behind the key. -/
def PropertyDecl.texts : PropertyDecl → List Text
  | domains names => names
  | dataStores names => names
  | language name => [name]
  | deployment d => d.texts

/-- The name, then the properties. -/
def ServiceDecl.texts (d : ServiceDecl) : List Text :=
  d.name :: d.properties.flatMap PropertyDecl.texts

/-- The key, then the value if there is one. -/
def ModifierDecl.texts (d : ModifierDecl) : List Text := d.key :: d.value.toList

/-- The name, then the modifiers. -/
def NodeDecl.texts (d : NodeDecl) : List Text := d.name :: d.modifiers.flatMap ModifierDecl.texts

/-- The texts of the nodes. -/
def ComponentDecl.texts (d : ComponentDecl) : List Text := d.chain.flatMap NodeDecl.texts

/-- All texts of a declaration but those in the lines of a use case, each list in the order in which
it was written. -/
def Declaration.textLists : Declaration → List (List Text)
  | actor d => [d.texts]
  | actors ds => [ds.flatMap ActorDecl.texts]
  | domain d => [d.texts]
  | domains ds => [ds.flatMap DomainDecl.texts]
  | service d => [d.texts]
  | services ds => [ds.flatMap ServiceDecl.texts]
  | exposure d => [d.name :: d.audience, d.name :: d.exposed, d.name :: d.gateways]
  | arch d => [d.name.toList ++ d.presentation.flatMap ComponentDecl.texts,
      d.name.toList ++ d.gateway.flatMap ComponentDecl.texts]
  | useCase d => [[d.name]]

/-! ## Texts and tokens -/

/-- The text that a token gives to a record. -/
def textRead : Token → Option String
  | .identifier text | .stringLiteral text | .number text => some text
  | .percentage digits => some (digits ++ "%")
  | .keyword .service => some "service"
  | _ => none

/-- The text was read from the token. -/
structure IsTextOf (x : Text) (t : Located Token) : Prop where
  span : x.span = t.span
  value : textRead t.value = some x.value

/-- The texts were read from some of the tokens in front of `r`, one after another. -/
def TextsFrom (s : Tokens) (xs : List Text) (r : Tokens) : Prop :=
  ∃ u, s = u ++ r ∧ List.SublistForall₂ IsTextOf xs u

namespace TextsFrom

variable {s s' r : Tokens} {xs ys : List Text}

lemma of_suffix (h : r <:+ s) : TextsFrom s [] r := by
  obtain ⟨u, rfl⟩ := h
  exact ⟨u, rfl, .nil⟩

lemma trans (h : TextsFrom s xs s') (h' : TextsFrom s' ys r) : TextsFrom s (xs ++ ys) r := by
  obtain ⟨u, rfl, hu⟩ := h
  obtain ⟨v, rfl, hv⟩ := h'
  obtain ⟨us, hus, husub⟩ := List.sublistForall₂_iff.1 hu
  obtain ⟨vs, hvs, hvsub⟩ := List.sublistForall₂_iff.1 hv
  exact ⟨u ++ v, (List.append_assoc _ _ _).symm,
    List.sublistForall₂_iff.2 ⟨us ++ vs, List.rel_append hus hvs, husub.append hvsub⟩⟩

lemma after (h : TextsFrom s' xs r) (hs : s' <:+ s) : TextsFrom s xs r := (of_suffix hs).trans h

lemma before (h : TextsFrom s xs s') (hr : r <:+ s') : TextsFrom s xs r := by
  have hxs := h.trans (of_suffix hr)
  rwa [List.append_nil] at hxs

/-- Fewer texts were read from fewer tokens. -/
lemma sublist (h : TextsFrom s xs r) (hys : ys.Sublist xs) : TextsFrom s ys r := by
  obtain ⟨u, rfl, hu⟩ := h
  refine ⟨u, rfl, ?_⟩
  induction hu generalizing ys with
  | nil => rw [List.sublist_nil.1 hys]; exact .nil
  | cons hx _ ih =>
      cases hys with
      | cons _ hys => exact .cons_right (ih hys)
      | cons_cons _ hys => exact .cons hx (ih hys)
  | cons_right _ ih => exact .cons_right (ih hys)

end TextsFrom

/-! ## Combinators -/

/-- What the readers of a text accept. -/
def textReaders : List (Token → Option String) :=
  [nameOf, identifierOf, actorKindOf, percentageOf, modifierValueOf]

lemma textRead_of_accept {accept : Token → Option String} (haccept : accept ∈ textReaders)
    {t : Token} {text : String} (h : accept t = some text) : textRead t = some text := by
  simp only [textReaders, List.mem_cons, List.not_mem_nil, or_false] at haccept
  rcases haccept with rfl | rfl | rfl | rfl | rfl <;> cases t with
  | keyword k => cases k <;> first | exact h | cases h
  | _ => first | exact h | cases h

lemma optional_eq_some {α : Type} {p : Parser α} {s r : Tokens} {a : α}
    (h : optional p s = .done (some a) r) : p s = .done a r := by
  cases hp : p s with
  | done a' r' =>
      rw [optional_of_done hp] at h
      cases h
      rfl
  | failed e =>
      cases he : e.committed with
      | true => rw [optional_of_committed hp he] at h; cases h
      | false => rw [optional_of_open hp he] at h; cases h

lemma textsFrom_token {accept : Token → Option String} (haccept : accept ∈ textReaders)
    {what : Expected} {s r : Tokens} {x : Text} (h : label what (token accept) s = .done x r) :
    TextsFrom s [x] r := by
  obtain ⟨t, rfl, ht, hspan⟩ := token_eq_done.1 (label_done.1 h)
  exact ⟨[t], rfl, .cons ⟨hspan, textRead_of_accept haccept ht⟩ .nil⟩

section Loops

variable {α β : Type} {item : Parser α} [Consumes item] {texts : α → List Text}
  (hitem : ∀ {s a r}, item s = .done a r → TextsFrom s (texts a) r)

include hitem

lemma textsFrom_many {s r : Tokens} {as : List α} (h : many item s = .done as r) :
    TextsFrom s (as.flatMap texts) r := by
  fun_induction many item s generalizing as r with
  | case1 => cases h
  | case2 => cases h; exact .of_suffix (List.suffix_refl _)
  | case3 s a r' ha ih =>
      cases hm : many item r' with
      | failed e => rw [hm] at h; cases h
      | done as' r'' =>
          rw [hm] at h
          cases h
          exact (hitem ha).trans (ih hm)

lemma textsFrom_manyUntil {stop : Parser β} [Forward stop] {s r : Tokens} {found : List α × β}
    (h : manyUntil Token.isTrivia stop item s = .done found r) :
    TextsFrom s (found.1.flatMap texts) r := by
  refine manyUntil_induction item stop (motive := fun s as => TextsFrom s (as.flatMap texts) r) h
    ?blank ?done ?turn
  case blank => exact fun _ hs => hs.after (List.suffix_append _ _)
  case done => exact fun hstop => .of_suffix (suffix_of_done hstop)
  case turn => exact fun _ _ ha hs => (hitem ha).trans hs

lemma textsFrom_separated {separator : Parser β} [Keeps separator] [Forward separator]
    {s r : Tokens} {as : List α} (h : separated item separator s = .done as r) :
    TextsFrom s (as.flatMap texts) r := by
  obtain ⟨first, s', others, hfirst, hothers, rfl⟩ := pair_eq_done h
  refine (hitem hfirst).trans (textsFrom_many (fun h => ?_) hothers)
  obtain ⟨_, s'', hseparator, h⟩ := bind_eq_done.1 h
  exact (hitem h).after (suffix_of_done hseparator)

lemma textsFrom_block {s r : Tokens} {body : List α × Span} (h : block item s = .done body r) :
    TextsFrom s (body.1.flatMap texts) r := by
  obtain ⟨opening, s', found, hopening, hfound, rfl⟩ := block_eq_done h
  exact (textsFrom_manyUntil hitem hfound).after (suffix_of_done hopening)

end Loops

/-! ## Names, actors and domains -/

section Readers

variable {s r : Tokens}

lemma textsFrom_anyName {x : Text} (h : anyName s = .done x r) : TextsFrom s [x] r :=
  textsFrom_token (by simp [textReaders]) h

lemma textsFrom_bareName {x : Text} (h : bareName s = .done x r) : TextsFrom s [x] r :=
  textsFrom_token (by simp [textReaders]) h

lemma textsFrom_names {xs : List Text} (h : names s = .done xs r) : TextsFrom s xs r := by
  obtain ⟨found, s', _, hfound, hcomma, rfl⟩ := pair_eq_done h
  have htexts := textsFrom_separated textsFrom_anyName (label_done.1 hfound)
  rw [List.flatMap_singleton'] at htexts
  exact htexts.before (suffix_of_done hcomma)

lemma textsFrom_actor {d : ActorDecl} (h : actor s = .done d r) : TextsFrom s d.texts r := by
  obtain ⟨kind, s₁, s₂, name, hkind, hgap, hname, rfl⟩ := actor_eq_done h
  have hkind := textsFrom_token (by simp [textReaders]) hkind
  exact hkind.trans ((textsFrom_anyName hname).after (suffix_of_done hgap))

lemma textsFrom_domain {d : Located DomainDecl} (h : domain s = .done d r) :
    TextsFrom s d.value.texts r := by
  obtain ⟨name, s₁, s₂, body, hname, hgap, hbody, rfl⟩ := domain_eq_done h
  have hbody := textsFrom_block textsFrom_anyName hbody
  rw [List.flatMap_singleton'] at hbody
  exact (textsFrom_anyName hname).trans (hbody.after (suffix_of_done hgap))

/-! ## Services -/

lemma textsFrom_rule {d : RuleDecl} (h : rule s = .done d r) : TextsFrom s d.texts r := by
  obtain ⟨percentage, s₁, s₂, target, hpercentage, harrow, htarget, rfl⟩ := apart_eq_done h
  have hpercentage := textsFrom_token (by simp [textReaders]) hpercentage
  exact hpercentage.trans ((textsFrom_anyName htarget).after (suffix_of_done harrow))

lemma textsFrom_rules {ds : List RuleDecl} (h : rules s = .done ds r) :
    TextsFrom s (ds.flatMap RuleDecl.texts) r := by
  obtain ⟨_, s₁, hgap, h⟩ := bind_eq_done.1 (commit_done.1 h)
  obtain ⟨found, s₂, s₃, _, hfound, hgap', hclosing, rfl⟩ := apart_eq_done h
  exact ((textsFrom_separated textsFrom_rule hfound).before
    ((suffix_of_done hclosing).trans (suffix_of_done hgap'))).after (suffix_of_done hgap)

lemma textsFrom_rollout {d : DeploymentDecl} (h : rollout s = .done d r) :
    TextsFrom s d.texts r := by
  rw [rollout_eq] at h
  obtain ⟨kind, s₁, hkind, h⟩ := bind_eq_done.1 h
  obtain ⟨opening, s₂, hopening, h⟩ := bind_eq_done.1 h
  have hkind := textsFrom_bareName hkind
  cases opening with
  | none =>
      cases h
      exact hkind.before (suffix_of_done hopening)
  | some _ =>
      obtain ⟨found, hfound, rfl⟩ := bind_pure_eq_done h
      exact hkind.trans ((textsFrom_rules hfound).after (suffix_of_done hopening))

lemma textsFrom_propertyValue {start : Tokens} {key : String} {d : PropertyDecl}
    (h : propertyValue start key s = .done d r) : TextsFrom s d.texts r := by
  unfold propertyValue at h
  split at h
  · obtain ⟨found, hfound, rfl⟩ := bind_pure_eq_done h
    exact textsFrom_names hfound
  · split at h
    · obtain ⟨found, hfound, rfl⟩ := bind_pure_eq_done h
      exact textsFrom_names hfound
    · split at h
      · obtain ⟨name, hname, rfl⟩ := bind_pure_eq_done h
        exact textsFrom_anyName hname
      · split at h
        · obtain ⟨deployment, hdeployment, rfl⟩ := bind_pure_eq_done h
          exact textsFrom_rollout hdeployment
        · cases h

lemma textsFrom_property {d : PropertyDecl} (h : property s = .done d r) :
    TextsFrom s d.texts r := by
  rw [property, here_bind_apply] at h
  obtain ⟨key, s₁, hkey, h⟩ := bind_eq_done.1 h
  obtain ⟨_, s₂, hcolon, h⟩ := bind_eq_done.1 h
  exact (textsFrom_propertyValue h).after ((suffix_of_done hcolon).trans (suffix_of_done hkey))

lemma textsFrom_service {d : Located ServiceDecl} (h : service s = .done d r) :
    TextsFrom s d.value.texts r := by
  obtain ⟨name, s₁, s₂, body, hname, hgap, hbody, rfl⟩ := service_eq_done h
  have hbody := textsFrom_block textsFrom_property hbody
  exact (textsFrom_anyName hname).trans (hbody.after (suffix_of_done hgap))

/-! ## Exposures -/

lemma textsFrom_exposureLine {line : ExposureKey × List Text} (h : exposureLine s = .done line r) :
    TextsFrom s line.2 r := by
  rw [exposureLine, here_bind_apply] at h
  obtain ⟨key, s₁, hkey, h⟩ := bind_eq_done.1 h
  cases hfield : ExposureKey.ofKey? key.value with
  | none => rw [hfield] at h; cases h
  | some field =>
      rw [hfield] at h
      obtain ⟨_, s₂, hcolon, h⟩ := bind_eq_done.1 h
      obtain ⟨found, s₃, hfound, h⟩ := bind_eq_done.1 h
      cases h
      exact (textsFrom_names hfound).after ((suffix_of_done hcolon).trans (suffix_of_done hkey))

/-! ## Architectures -/

lemma textsFrom_modifier {d : ModifierDecl} (h : modifier s = .done d r) :
    TextsFrom s d.texts r := by
  obtain ⟨key, s₁, value, hkey, hvalue, rfl⟩ := pair_eq_done h
  refine (textsFrom_anyName hkey).trans ?_
  cases value with
  | none => exact .of_suffix (suffix_of_done hvalue)
  | some value =>
      obtain ⟨_, s₃, hcolon, hvalue⟩ := bind_eq_done.1 (optional_eq_some hvalue)
      have hvalue := textsFrom_token (by simp [textReaders]) hvalue
      exact hvalue.after (suffix_of_done hcolon)

lemma textsFrom_modifiers {ds : List ModifierDecl} (h : modifiers s = .done ds r) :
    TextsFrom s (ds.flatMap ModifierDecl.texts) r := by
  obtain ⟨_, s₁, hgap, h⟩ := bind_eq_done.1 (commit_done.1 h)
  obtain ⟨found, s₂, s₃, _, hfound, hgap', hclosing, rfl⟩ := apart_eq_done h
  exact ((textsFrom_separated textsFrom_modifier hfound).before
    ((suffix_of_done hclosing).trans (suffix_of_done hgap'))).after (suffix_of_done hgap)

lemma textsFrom_node {d : NodeDecl} (h : node s = .done d r) : TextsFrom s d.texts r := by
  obtain ⟨name, s₁, found, hname, hfound, rfl⟩ := pair_eq_done h
  refine (textsFrom_anyName hname).trans ?_
  cases found with
  | none => exact .of_suffix (suffix_of_done hfound)
  | some found =>
      obtain ⟨_, s₃, hblanks, h⟩ := bind_eq_done.1 (optional_eq_some hfound)
      obtain ⟨_, s₄, hopening, h⟩ := bind_eq_done.1 h
      exact (textsFrom_modifiers h).after ((suffix_of_done hopening).trans (suffix_of_done hblanks))

lemma textsFrom_chain {d : ComponentDecl} (h : chain s = .done d r) : TextsFrom s d.texts r :=
  textsFrom_separated textsFrom_node (chain_eq_done h)

lemma textsFrom_components {ds : List ComponentDecl} (h : components s = .done ds r) :
    TextsFrom s (ds.flatMap ComponentDecl.texts) r := by
  obtain ⟨found, hfound, rfl⟩ := components_eq_done h
  exact textsFrom_manyUntil textsFrom_chain hfound

lemma textsFrom_layer {l : Layer × List ComponentDecl} (h : layer s = .done l r) :
    TextsFrom s (l.2.flatMap ComponentDecl.texts) r := by
  obtain ⟨key, s', hkey, hcomponents, -⟩ := layer_eq_done h
  exact (textsFrom_components hcomponents).after (suffix_of_done hkey)

end Readers

/-! ## Declarations -/

/-- What was written under one key, among all that was written. -/
lemma flatMap_key_sublist {κ α : Type} [DecidableEq κ] (k : κ) (lines : List (κ × List α)) :
    (lines.flatMap fun line => if line.1 = k then line.2 else []).Sublist
      (lines.flatMap (·.2)) := by
  refine List.Sublist.flatMap_right lines fun line _ => ?_
  split
  · exact List.Sublist.refl _
  · exact List.nil_sublist _

section Bodies

variable {start : Span} {s r : Tokens} {d : Located Declaration}

lemma textsFrom_actorBody (h : actorBody start s = .done d r) :
    ∀ xs ∈ d.value.textLists, TextsFrom s xs r := by
  obtain ⟨s', found, hgap, hfound, rfl⟩ := actorBody_eq_done h
  exact List.forall_mem_singleton.2 ((textsFrom_actor hfound).after (suffix_of_done hgap))

lemma textsFrom_actorsBody (h : actorsBody start s = .done d r) :
    ∀ xs ∈ d.value.textLists, TextsFrom s xs r := by
  obtain ⟨s', body, hgap, hbody, rfl⟩ := actorsBody_eq_done h
  have hbody := textsFrom_block textsFrom_actor hbody
  exact List.forall_mem_singleton.2 (hbody.after (suffix_of_done hgap))

lemma textsFrom_domainBody (h : domainBody start s = .done d r) :
    ∀ xs ∈ d.value.textLists, TextsFrom s xs r := by
  obtain ⟨s', found, hgap, hfound, rfl⟩ := domainBody_eq_done h
  exact List.forall_mem_singleton.2 ((textsFrom_domain hfound).after (suffix_of_done hgap))

lemma textsFrom_domainsBody (h : domainsBody start s = .done d r) :
    ∀ xs ∈ d.value.textLists, TextsFrom s xs r := by
  obtain ⟨s', body, hgap, hbody, rfl⟩ := domainsBody_eq_done h
  refine List.forall_mem_singleton.2 ?_
  rw [List.flatMap_map]
  exact (textsFrom_block textsFrom_domain hbody).after (suffix_of_done hgap)

lemma textsFrom_serviceBody (h : serviceBody start s = .done d r) :
    ∀ xs ∈ d.value.textLists, TextsFrom s xs r := by
  obtain ⟨s', found, hgap, hfound, rfl⟩ := serviceBody_eq_done h
  exact List.forall_mem_singleton.2 ((textsFrom_service hfound).after (suffix_of_done hgap))

lemma textsFrom_servicesBody (h : servicesBody start s = .done d r) :
    ∀ xs ∈ d.value.textLists, TextsFrom s xs r := by
  obtain ⟨s', body, hgap, hbody, rfl⟩ := servicesBody_eq_done h
  refine List.forall_mem_singleton.2 ?_
  rw [List.flatMap_map]
  exact (textsFrom_block textsFrom_service hbody).after (suffix_of_done hgap)

lemma textsFrom_exposureBody (h : exposureBody start s = .done d r) :
    ∀ xs ∈ d.value.textLists, TextsFrom s xs r := by
  obtain ⟨s₁, name, s₂, s₃, body, hgap, hname, hgap', hbody, rfl⟩ := exposureBody_eq_done h
  have hlines : TextsFrom s (name :: body.1.flatMap (·.2)) r :=
    ((textsFrom_anyName hname).trans ((textsFrom_block textsFrom_exposureLine hbody).after
      (suffix_of_done hgap'))).after (suffix_of_done hgap)
  have hfield (field : ExposureKey) : TextsFrom s (name :: namesOf field body.1) r :=
    hlines.sublist ((flatMap_key_sublist field body.1).cons_cons name)
  exact List.forall_mem_cons.2 ⟨hfield .audience, List.forall_mem_cons.2
    ⟨hfield .exposed, List.forall_mem_singleton.2 (hfield .gateways)⟩⟩

lemma textsFrom_optional_name {name : Option Text} (h : optional anyName s = .done name r) :
    TextsFrom s name.toList r := by
  cases name with
  | none => exact .of_suffix (suffix_of_done h)
  | some name => exact textsFrom_anyName (optional_eq_some h)

lemma textsFrom_archBody (h : archBody start s = .done d r) :
    ∀ xs ∈ d.value.textLists, TextsFrom s xs r := by
  obtain ⟨s₁, name, s₂, s₃, body, hgap, hname, hgap', hbody, rfl⟩ := archBody_eq_done h
  have hsections := textsFrom_block textsFrom_layer hbody
  rw [← List.flatMap_assoc] at hsections
  have hlayers :
      TextsFrom s (name.toList ++ (body.1.flatMap (·.2)).flatMap ComponentDecl.texts) r :=
    ((textsFrom_optional_name hname).trans (hsections.after (suffix_of_done hgap'))).after
      (suffix_of_done hgap)
  have hlayer (layer : Layer) :
      TextsFrom s (name.toList ++ (componentsOf layer body.1).flatMap ComponentDecl.texts) r :=
    hlayers.sublist (((flatMap_key_sublist layer body.1).flatMap _).append_left _)
  exact List.forall_mem_cons.2
    ⟨hlayer .presentation, List.forall_mem_singleton.2 (hlayer .gateway)⟩

lemma textsFrom_useCaseBody (h : useCaseBody start s = .done d r) :
    ∀ xs ∈ d.value.textLists, TextsFrom s xs r := by
  obtain ⟨s₁, name, s₂, s₃, body, hgap, hname, hgap', hbody, rfl⟩ := useCaseBody_eq_done h
  exact List.forall_mem_singleton.2 (((textsFrom_anyName hname).before
    ((suffix_of_done hbody).trans (suffix_of_done hgap'))).after (suffix_of_done hgap))

/-- **Texts come from tokens.**  The texts of each list of a declaration were read from its tokens,
one after another. -/
theorem textsFrom_declaration (h : declaration s = .done d r) :
    ∀ xs ∈ d.value.textLists, TextsFrom s xs r := by
  obtain ⟨t, k, s', rfl, -, hk, hbody⟩ := declaration_eq_done h
  have htexts : ∀ xs ∈ d.value.textLists, TextsFrom s' xs r := by
    cases k with
    | actors => exact textsFrom_actorsBody hbody
    | actor => exact textsFrom_actorBody hbody
    | domains => exact textsFrom_domainsBody hbody
    | domain => exact textsFrom_domainBody hbody
    | services => exact textsFrom_servicesBody hbody
    | service => exact textsFrom_serviceBody hbody
    | exposure => exact textsFrom_exposureBody hbody
    | arch => exact textsFrom_archBody hbody
    | useCase => exact textsFrom_useCaseBody hbody
    | when | dataStores => cases hk
  exact fun xs hxs => (htexts xs hxs).after (List.suffix_cons t s')

end Bodies

end ArchLang
