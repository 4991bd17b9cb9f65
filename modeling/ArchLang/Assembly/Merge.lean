import ArchLang.Model.Entity
import ArchLang.Model.Service
import ArchLang.Ordered.Map
import ArchLang.Policy

/-!
# Merging entities of one name

A domain or a service may be declared in many places.  Merging gives one entity per name, in the
order in which the names were first seen.

* Sets are united in first-seen order.
* The policy decides between two languages.
* Deployments of one kind unite their rules.  Deployments of different kinds never mix: the policy
  picks one of them whole.

`Domain.mergeAll` and `Service.mergeAll` merge lists, `Service.merge` and `Deployment.merge` two
values.
-/

namespace ArchLang

/-- One domain with the sub-domains of both, under the name of the first. -/
def Domain.merge (existing incoming : Domain) : Domain :=
  ⟨existing.name, existing.subDomains.union incoming.subDomains⟩

/-- Of two languages the policy picks one; a language that is not set never wins. -/
def mergeLanguage (policy : ConflictPolicy) : Option String → Option String → Option String
  | some current, some other => some (policy.choose current other)
  | current, other => current.or other

theorem mergeLanguage_ne {policy : ConflictPolicy} {a b : Option String} (ha : a ≠ some "")
    (hb : b ≠ some "") : mergeLanguage policy a b ≠ some "" := by
  cases a <;> cases b <;> cases policy <;> simp_all [mergeLanguage, ConflictPolicy.choose]

/-- Rules of one kind are united; of two kinds the policy picks one with its rules. -/
def Deployment.merge (policy : ConflictPolicy) : Deployment → Deployment → Deployment
  | existing, .unset => existing
  | .unset, incoming => incoming
  | .planned kind rules, .planned kind' rules' =>
    if kind = kind' then .planned kind (rules.union rules')
    else policy.choose (.planned kind rules) (.planned kind' rules')

/-- One service with what both say, under the name of the first. -/
def Service.merge (policy : ConflictPolicy) (existing incoming : Service) : Service where
  name := existing.name
  domains := existing.domains.union incoming.domains
  dataStores := existing.dataStores.union incoming.dataStores
  language := mergeLanguage policy existing.language incoming.language
  deployment := existing.deployment.merge policy incoming.deployment
  language_ne := mergeLanguage_ne existing.language_ne incoming.language_ne

/-- Merge domains of one name; names keep their first-seen order. -/
def Domain.mergeAll (domains : List Domain) : List Domain :=
  (OrderedMap.gather Domain.merge (domains.map fun d => (d.name, d))).values

/-- Merge services of one name; names keep their first-seen order. -/
def Service.mergeAll (policy : ConflictPolicy) (services : List Service) : List Service :=
  (OrderedMap.gather (Service.merge policy) (services.map fun s => (s.name, s))).values

end ArchLang
