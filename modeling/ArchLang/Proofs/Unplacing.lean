import ArchLang.Assembly.Program
import ArchLang.Proofs.Places

/-!
# The model knows no places

Declarations keep the places of their texts for diagnostics.  The model is assembled from the texts
alone, so declarations that were read at other places make the same model.  Each entity is read off
its own declaration; only use cases are numbered through, by how many numbers the declarations
before them draw, and that does not depend on places either.

* `map_map_unplaced`, `filterMap_unplaced`, `flatMap_parts_unplaced` — lists of what reads no
  places.
* `ofDecl_unplaced_*` — one entity.
* **`ofDeclarations_unplaced`** — declarations without their places make the same model.
-/

namespace ArchLang

/-! ## Lists -/

section Lists

variable {α β : Type}

/-- What reads no places reads the same without places. -/
lemma map_map_unplaced [Placed α] {f : α → β} (h : ∀ a, f (unplaced a) = f a) (xs : List α) :
    (unplaced xs).map f = xs.map f := by
  change (xs.map unplaced).map f = xs.map f
  rw [List.map_map]
  exact List.map_congr_left fun a _ => h a

lemma filterMap_unplaced [Placed α] {f : α → Option β} (h : ∀ a, f (unplaced a) = f a)
    (xs : List α) : (unplaced xs).filterMap f = xs.filterMap f := by
  change (xs.map unplaced).filterMap f = xs.filterMap f
  rw [List.filterMap_map]
  exact List.filterMap_congr fun a _ => h a

lemma flatMap_parts_unplaced [Placed α] (parts : Declaration → List α)
    (h : ∀ d, parts (unplaced d) = unplaced (parts d)) (ds : List Declaration) :
    (unplaced ds).flatMap parts = unplaced (ds.flatMap parts) := by
  change (ds.map unplaced).flatMap parts = (ds.flatMap parts).map unplaced
  rw [List.flatMap_map, List.map_flatMap]
  exact List.flatMap_congr fun d _ => h d

end Lists

/-! ## Entities -/

lemma plainTexts_unplaced (texts : List Text) : plainTexts (unplaced texts) = plainTexts texts :=
  map_map_unplaced (fun _ => rfl) texts

lemma ofDecl_unplaced_domain (d : DomainDecl) : Domain.ofDecl (unplaced d) = Domain.ofDecl d := by
  change Domain.mk d.name.value (.ofList (plainTexts (unplaced d.subDomains))) = _
  rw [plainTexts_unplaced]
  rfl

lemma ofDecl_unplaced_deployment (d : DeploymentDecl) :
    Deployment.ofDecl (unplaced d) = Deployment.ofDecl d := by
  change Deployment.planned d.kind.value (.ofList ((unplaced d.rules).map _)) = _
  rw [map_map_unplaced fun _ => rfl]
  rfl

lemma ofProperty_unplaced (name : String) (p : PropertyDecl) :
    Service.ofProperty name (unplaced p) = Service.ofProperty name p := by
  cases p with
  | domains names => exact congrArg (Service.named name).setDomains (plainTexts_unplaced names)
  | dataStores names =>
      exact congrArg (Service.named name).setDataStores (plainTexts_unplaced names)
  | language text => rfl
  | deployment d => exact congrArg (Service.named name).setDeployment (ofDecl_unplaced_deployment d)

lemma ofDecl_unplaced_service (d : ServiceDecl) :
    Service.ofDecl (unplaced d) = Service.ofDecl d := by
  change (d.properties.map unplaced).foldl _ _ = d.properties.foldl _ _
  rw [List.foldl_map]
  exact congrArg (fun f => d.properties.foldl f _)
    (funext fun s => funext fun p => congrArg (s.merge .firstWins) (ofProperty_unplaced _ p))

lemma ofDecl_unplaced_exposure (d : ExposureDecl) :
    Exposure.ofDecl (unplaced d) = Exposure.ofDecl d := by
  change Exposure.mk d.name.value (plainTexts (unplaced d.audience))
    (plainTexts (unplaced d.exposed)) (plainTexts (unplaced d.gateways)) = _
  rw [plainTexts_unplaced, plainTexts_unplaced, plainTexts_unplaced]
  rfl

lemma ofDecl_unplaced_node (d : NodeDecl) : Node.ofDecl (unplaced d) = Node.ofDecl d := by
  change Node.mk d.name.value ((unplaced d.modifiers).map _) = _
  rw [map_map_unplaced]
  · rfl
  · rintro ⟨key, _ | value⟩ <;> rfl

lemma ofDecl?_unplaced (d : ComponentDecl) : Component.ofDecl? (unplaced d) = Component.ofDecl? d :=
  congrArg Component.ofChain? (map_map_unplaced ofDecl_unplaced_node d.chain)

lemma ofDecl_unplaced_arch (d : ArchDecl) :
    Architecture.ofDecl (unplaced d) = Architecture.ofDecl d := by
  change Architecture.mk ((unplaced d.name).map _) ((unplaced d.presentation).filterMap _)
    ((unplaced d.gateway).filterMap _) = _
  rw [filterMap_unplaced ofDecl?_unplaced, filterMap_unplaced ofDecl?_unplaced]
  cases d with
  | mk name presentation gateway => cases name <;> rfl

/-! ## Use cases -/

lemma draws_unplaced_scenario (d : ScenarioDecl) : (unplaced d).draws = d.draws := by
  change (d.actions.map unplaced).length + 1 = _
  rw [List.length_map]
  rfl

lemma numbered_unplaced_scenario (n : ℕ) (d : ScenarioDecl) :
    Scenario.numbered n (unplaced d) = Scenario.numbered n d := by
  change Scenario.mk _ (d.trigger.value.mapPhrase joinPhrase)
    (stepsFrom (n + 1) ((unplaced d.actions).map (·.value))) = _
  rw [map_map_unplaced fun _ => rfl]
  rfl

lemma scenariosFrom_unplaced (n : ℕ) (ds : List ScenarioDecl) :
    scenariosFrom n (unplaced ds) = scenariosFrom n ds := by
  induction ds generalizing n with
  | nil => rfl
  | cons d ds ih =>
      change Scenario.numbered n (unplaced d)
        :: scenariosFrom (n + (unplaced d).draws) (unplaced ds) = _
      rw [numbered_unplaced_scenario, draws_unplaced_scenario, ih]
      rfl

lemma draws_unplaced_useCase (d : UseCaseDecl) : (unplaced d).draws = d.draws := by
  change (d.scenarios.map unplaced).foldr (fun s n => s.draws + n) 0 = _
  rw [List.foldr_map]
  simp only [draws_unplaced_scenario]
  rfl

lemma useCasesFrom_unplaced (n : ℕ) (ds : List UseCaseDecl) :
    useCasesFrom n (unplaced ds) = useCasesFrom n ds := by
  induction ds generalizing n with
  | nil => rfl
  | cons d ds ih =>
      change UseCase.mk d.name.value (scenariosFrom n (unplaced d.scenarios))
        :: useCasesFrom (n + (unplaced d).draws) (unplaced ds) = _
      rw [scenariosFrom_unplaced, draws_unplaced_useCase, ih]
      rfl

/-! ## Programs -/

lemma entities_unplaced (ds : List Declaration) :
    Entities.ofDeclarations (unplaced ds) = Entities.ofDeclarations ds := by
  unfold Entities.ofDeclarations
  rw [flatMap_parts_unplaced Declaration.actorDecls fun d => by cases d <;> rfl,
    flatMap_parts_unplaced Declaration.domainDecls fun d => by cases d <;> rfl,
    flatMap_parts_unplaced Declaration.serviceDecls fun d => by cases d <;> rfl,
    flatMap_parts_unplaced Declaration.exposureDecls fun d => by cases d <;> rfl,
    flatMap_parts_unplaced Declaration.archDecls fun d => by cases d <;> rfl,
    flatMap_parts_unplaced Declaration.useCaseDecls fun d => by cases d <;> rfl,
    map_map_unplaced fun _ => rfl, map_map_unplaced ofDecl_unplaced_domain,
    map_map_unplaced ofDecl_unplaced_service, map_map_unplaced ofDecl_unplaced_exposure,
    map_map_unplaced ofDecl_unplaced_arch, useCasesFrom_unplaced]

/-- The model does not know where its declarations stood. -/
theorem ofDeclarations_unplaced (policies : Policies) (ds : List Declaration) :
    Model.ofDeclarations policies (unplaced ds) = Model.ofDeclarations policies ds := by
  unfold Model.ofDeclarations
  rw [entities_unplaced]

end ArchLang
