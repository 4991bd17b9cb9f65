import ArchLang.Proofs.Reading
import Mathlib.Tactic.Common

/-!
# What a reader of a construct has read

A reader of the grammar is a few steps in a row and a record made of what they gave.  For each such
reader one lemma says which steps were taken and what the record is, so that a later proof meets
the parts of a construct and never the steps that lead to them.

* `block_eq_done`, `actor_eq_done`, `domain_eq_done`, `service_eq_done`, `scenario_eq_done`,
  `layer_eq_done`, … — the parts of a declaration.
* `actorBody_eq_done`, …, `useCaseBody_eq_done` — what stands behind a keyword.
* `declaration_eq_done` — a declaration is its keyword and what stands behind it.
* **`keyword_of_declarationBody`** — another keyword gives another kind of declaration.
-/

namespace ArchLang

namespace Grammar

open ArchLang.Parser

variable {s r : Tokens}

/-! ## The parts of a declaration -/

section Parts

variable {α : Type}

lemma block_eq_done {item : Parser α} [Consumes item] {body : List α × Span}
    (h : block item s = .done body r) :
    ∃ opening s' found, mark .leftBrace s = .done opening s' ∧
      manyUntil Token.isTrivia (mark .rightBrace) item s' = .done found r ∧
      body = (found.1, opening.union found.2) := pair_eq_done h

lemma actor_eq_done {d : ActorDecl} (h : actor s = .done d r) :
    ∃ kind s₁ s₂ name, label .actorKind (token actorKindOf) s = .done kind s₁ ∧
      gap1 s₁ = .done () s₂ ∧ anyName s₂ = .done name r ∧ d = ⟨kind, name⟩ := apart_eq_done h

lemma domain_eq_done {d : Located DomainDecl} (h : domain s = .done d r) :
    ∃ name s₁ s₂ body, anyName s = .done name s₁ ∧ gap s₁ = .done () s₂ ∧
      block anyName s₂ = .done body r ∧ d = ⟨⟨name, body.1⟩, name.span.union body.2⟩ :=
  apart_eq_done h

lemma service_eq_done {d : Located ServiceDecl} (h : service s = .done d r) :
    ∃ name s₁ s₂ body, anyName s = .done name s₁ ∧ gap s₁ = .done () s₂ ∧
      block property s₂ = .done body r ∧ d = ⟨⟨name, body.1⟩, name.span.union body.2⟩ :=
  apart_eq_done h

lemma scenario_eq_done {d : ScenarioDecl} (h : scenario s = .done d r) :
    ∃ opening s' below, trigger s = .done opening s' ∧
      manyUntil Token.isTrivia scenarioEnd action s' = .done below r ∧ d = ⟨opening, below.1⟩ :=
  pair_eq_done h

lemma chain_eq_done {d : ComponentDecl} (h : chain s = .done d r) :
    separated node (around .greater) s = .done d.chain r := by
  obtain ⟨found, hfound, rfl⟩ := bind_pure_eq_done h
  exact label_done.1 hfound

lemma components_eq_done {ds : List ComponentDecl} (h : components s = .done ds r) :
    ∃ found, manyUntil Token.isTrivia sectionEnd chain s = .done found r ∧ ds = found.1 :=
  bind_pure_eq_done h

/-- A section is kept only under a key that stands for a layer. -/
lemma layer_eq_done {l : Layer × List ComponentDecl} (h : layer s = .done l r) :
    ∃ key s', header s = .done key s' ∧ components s' = .done l.2 r ∧
      Layer.ofKey? key.value = some l.1 := by
  rw [layer, here_bind_apply] at h
  obtain ⟨key, s', hkey, h⟩ := bind_eq_done.1 h
  obtain ⟨found, s'', hfound, h⟩ := bind_eq_done.1 h
  cases hlayer : Layer.ofKey? key.value with
  | none =>
      rw [hlayer] at h
      cases h
  | some layer =>
      rw [hlayer] at h
      cases h
      exact ⟨key, s', hkey, hfound, hlayer⟩

end Parts

/-! ## Behind a keyword -/

section Bodies

variable {start : Span} {d : Located Declaration}

lemma actorBody_eq_done (h : actorBody start s = .done d r) :
    ∃ s' found, gap1 s = .done () s' ∧ actor s' = .done found r ∧
      d = ⟨.actor found, start.union found.name.span⟩ := by
  obtain ⟨_, s', found, h⟩ := pair_eq_done h
  exact ⟨s', found, h⟩

lemma actorsBody_eq_done (h : actorsBody start s = .done d r) :
    ∃ s' body, gap s = .done () s' ∧ block actor s' = .done body r ∧
      d = ⟨.actors body.1, start.union body.2⟩ := by
  obtain ⟨_, s', body, h⟩ := pair_eq_done h
  exact ⟨s', body, h⟩

lemma domainBody_eq_done (h : domainBody start s = .done d r) :
    ∃ s' found, gap1 s = .done () s' ∧ domain s' = .done found r ∧
      d = ⟨.domain found.value, start.union found.span⟩ := by
  obtain ⟨_, s', found, h⟩ := pair_eq_done h
  exact ⟨s', found, h⟩

lemma domainsBody_eq_done (h : domainsBody start s = .done d r) :
    ∃ s' body, gap s = .done () s' ∧ block domain s' = .done body r ∧
      d = ⟨.domains (body.1.map (·.value)), start.union body.2⟩ := by
  obtain ⟨_, s', body, h⟩ := pair_eq_done h
  exact ⟨s', body, h⟩

lemma serviceBody_eq_done (h : serviceBody start s = .done d r) :
    ∃ s' found, gap1 s = .done () s' ∧ service s' = .done found r ∧
      d = ⟨.service found.value, start.union found.span⟩ := by
  obtain ⟨_, s', found, h⟩ := pair_eq_done h
  exact ⟨s', found, h⟩

lemma servicesBody_eq_done (h : servicesBody start s = .done d r) :
    ∃ s' body, gap s = .done () s' ∧ block service s' = .done body r ∧
      d = ⟨.services (body.1.map (·.value)), start.union body.2⟩ := by
  obtain ⟨_, s', body, h⟩ := pair_eq_done h
  exact ⟨s', body, h⟩

lemma exposureBody_eq_done (h : exposureBody start s = .done d r) :
    ∃ s₁ name s₂ s₃ body, gap1 s = .done () s₁ ∧ anyName s₁ = .done name s₂ ∧
      gap s₂ = .done () s₃ ∧ block exposureLine s₃ = .done body r ∧
      d = ⟨.exposure ⟨name, namesOf .audience body.1, namesOf .exposed body.1,
        namesOf .gateways body.1⟩, start.union body.2⟩ := by
  obtain ⟨_, s₁, hgap1, h⟩ := bind_eq_done.1 h
  obtain ⟨name, s₂, s₃, body, h⟩ := apart_eq_done h
  exact ⟨s₁, name, s₂, s₃, body, hgap1, h⟩

lemma archBody_eq_done (h : archBody start s = .done d r) :
    ∃ s₁ name s₂ s₃ body, gap s = .done () s₁ ∧ optional anyName s₁ = .done name s₂ ∧
      gap s₂ = .done () s₃ ∧ block layer s₃ = .done body r ∧
      d = ⟨.arch ⟨name, componentsOf .presentation body.1, componentsOf .gateway body.1⟩,
        start.union body.2⟩ := by
  obtain ⟨_, s₁, hgap, h⟩ := bind_eq_done.1 h
  obtain ⟨name, s₂, s₃, body, h⟩ := apart_eq_done h
  exact ⟨s₁, name, s₂, s₃, body, hgap, h⟩

lemma useCaseBody_eq_done (h : useCaseBody start s = .done d r) :
    ∃ s₁ name s₂ s₃ body, gap1 s = .done () s₁ ∧ anyName s₁ = .done name s₂ ∧
      gap s₂ = .done () s₃ ∧ block scenario s₃ = .done body r ∧
      d = ⟨.useCase ⟨name, body.1⟩, start.union body.2⟩ := by
  obtain ⟨_, s₁, hgap1, h⟩ := bind_eq_done.1 h
  obtain ⟨name, s₂, s₃, body, h⟩ := apart_eq_done h
  exact ⟨s₁, name, s₂, s₃, body, hgap1, h⟩

end Bodies

/-! ## Keywords -/

lemma eq_keyword_of_declarationKeywordOf {t : Token} {k : Keyword}
    (h : declarationKeywordOf t = some k) : t = .keyword k := by
  cases t with
  | keyword k' => cases k' <;> cases h <;> rfl
  | _ => cases h

/-- A declaration is read as its keyword and a body of that kind. -/
lemma declaration_eq_done {d : Located Declaration} (h : declaration s = .done d r) :
    ∃ t k s', s = t :: s' ∧ t.value = .keyword k ∧ declarationKeywordOf (.keyword k) = some k ∧
      declarationBody t.span k s' = .done d r := by
  obtain ⟨⟨k, span⟩, s', hopening, hbody⟩ := bind_eq_done.1 (label_done.1 h)
  obtain ⟨t, rfl, ht, rfl⟩ := token_eq_done.1 (label_done.1 hopening)
  have hvalue := eq_keyword_of_declarationKeywordOf ht
  exact ⟨t, k, s', rfl, hvalue, hvalue ▸ ht, commit_done.1 hbody⟩

end Grammar

/-- The keyword that a declaration begins with. -/
def Declaration.keyword : Declaration → Keyword
  | actor _ => .actor
  | actors _ => .actors
  | domain _ => .domain
  | domains _ => .domains
  | service _ => .service
  | services _ => .services
  | exposure _ => .exposure
  | arch _ => .arch
  | useCase _ => .useCase

open Grammar in
/-- **Keywords.**  What is read behind a keyword is a declaration with that keyword. -/
theorem keyword_of_declarationBody {start : Span} {k : Keyword} {s r : Tokens}
    {d : Located Declaration} (h : declarationBody start k s = .done d r)
    (hk : declarationKeywordOf (.keyword k) = some k) : d.value.keyword = k := by
  cases k with
  | when | dataStores => cases hk
  | actor =>
      obtain ⟨_, _, -, -, rfl⟩ := actorBody_eq_done h
      rfl
  | actors =>
      obtain ⟨_, _, -, -, rfl⟩ := actorsBody_eq_done h
      rfl
  | domain =>
      obtain ⟨_, _, -, -, rfl⟩ := domainBody_eq_done h
      rfl
  | domains =>
      obtain ⟨_, _, -, -, rfl⟩ := domainsBody_eq_done h
      rfl
  | service =>
      obtain ⟨_, _, -, -, rfl⟩ := serviceBody_eq_done h
      rfl
  | services =>
      obtain ⟨_, _, -, -, rfl⟩ := servicesBody_eq_done h
      rfl
  | exposure =>
      obtain ⟨_, _, _, _, _, -, -, -, -, rfl⟩ := exposureBody_eq_done h
      rfl
  | arch =>
      obtain ⟨_, _, _, _, _, -, -, -, -, rfl⟩ := archBody_eq_done h
      rfl
  | useCase =>
      obtain ⟨_, _, _, _, _, -, -, -, -, rfl⟩ := useCaseBody_eq_done h
      rfl

end ArchLang
