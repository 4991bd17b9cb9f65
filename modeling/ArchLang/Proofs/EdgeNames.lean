import ArchLang.Proofs.LineForms
import ArchLang.Proofs.Listeners
import ArchLang.Proofs.ServiceMerge

/-!
# The names at the ends of edges

An edge of a flow runs between actors, domains and channels, and whatever stands there was named by
a plain word of a trigger or an action.  Quoted text never gets there: it can be an event, a part of
a phrase or the name of a use case, and none of them is an end of an edge.

**Reading.**  `participants` collects the names of a scenario.  The form that is found for a line
takes its names from the plain words of the line (`participants_of_triggerOf`,
`visitedBy_of_actionOf`), a word is a token of the line, and the items of a loop are read somewhere
in its tokens (`exists_suffix_of_mem_manyUntil`).

**Assembly.**  Numbering a scenario keeps its participants.  Its own edges run between them, since
whoever waits for an answer has acted before (`names_of_mem_edgesFrom`); the edge of a listener
comes from a publisher, which takes part in some scenario too (`exists_scenario_of_publisher`).

* **`exists_word_of_mem_edges`** — a name at an end of an edge is a plain word of the source.
-/

namespace ArchLang

open ArchLang.Parser ArchLang.Grammar

/-! ## Participants -/

variable {π : Type}

/-- Who takes part in a trigger. -/
def Trigger.participants : Trigger π → List String
  | .external actor _ _ => [actor]
  | .event _ => []
  | .listens domain _ => [domain]

/-- Who takes part in a scenario as it is written. -/
def ScenarioDecl.participants (d : ScenarioDecl) : List String :=
  d.trigger.value.participants ++ d.actions.flatMap fun a => visitedBy a.value

/-- Who takes part in a scenario of a model. -/
def Scenario.participants (s : Scenario) : List String :=
  s.trigger.participants ++ s.actions.flatMap visitedBy

/-- The name of an endpoint, if it has one. -/
def Endpoint.names : Endpoint → List String
  | .actor name | .domain name | .channel name => [name]
  | .external => []

/-- The names at the two ends of an edge. -/
def Edge.names (e : Edge) : List String := e.source.names ++ e.target.names

/-! ## Items of loops -/

section Loops

variable {α β : Type} {item : Parser α} [Consumes item] [Forward item] {s r : Tokens}

lemma exists_suffix_of_mem_manyUntil {stop : Parser β} {found : List α × β}
    (h : manyUntil Token.isTrivia stop item s = .done found r) :
    ∀ a ∈ found.1, ∃ s' r', s' <:+ s ∧ item s' = .done a r' := by
  refine manyUntil_induction item stop (motive := fun s as =>
    ∀ a ∈ as, ∃ s' r', s' <:+ s ∧ item s' = .done a r') h ?blank ?done ?turn
  case blank =>
    intro g s as _ hs a ha
    obtain ⟨s', r', hs', hread⟩ := hs a ha
    exact ⟨s', r', hs'.trans (List.suffix_append g s), hread⟩
  case done =>
    intro s b _ a ha
    exact absurd ha List.not_mem_nil
  case turn =>
    intro y w e a r' as _ _ hread hrest
    refine List.forall_mem_cons.2 ⟨⟨_, r', List.suffix_refl _, hread⟩, fun b hb => ?_⟩
    obtain ⟨s', t, hs', ht⟩ := hrest b hb
    exact ⟨s', t, hs'.trans (suffix_of_done hread), ht⟩

end Loops

/-! ## From tokens to forms -/

/-- One of the tokens is a word of this text without quotes. -/
def HasPlainWord (s : Tokens) (text : String) : Prop :=
  ∃ t ∈ s, wordOf t.value = some (.plain text)

lemma HasPlainWord.mono {s s' : Tokens} {text : String} (h : HasPlainWord s text) (hs : s ⊆ s') :
    HasPlainWord s' text := by
  obtain ⟨t, ht, hword⟩ := h
  exact ⟨t, hs ht, hword⟩

lemma participants_of_triggerOf {line : List Word} {t : Trigger (List String)}
    (h : triggerOf line = some t) {name : String} (hname : name ∈ t.participants) :
    .plain name ∈ line := by
  revert h
  fun_cases triggerOf line with
  | case1 => rintro ⟨⟩; cases hname
  | case2 => rintro ⟨⟩; simp_all [Trigger.participants]
  | case3 => rintro ⟨⟩; simp_all [Trigger.participants]
  | case4 => rintro ⟨⟩; simp_all [Trigger.participants]
  | case5 => rintro ⟨⟩

lemma visitedBy_of_asksOf {domain : String} {rest : List Word} {a : Action (List String)}
    (h : asksOf domain rest = some a) {name : String} (hname : name ∈ visitedBy a) :
    name = domain ∨ .plain name ∈ rest := by
  revert h
  fun_cases asksOf domain rest with
  | case1 =>
      rintro ⟨⟩
      rcases List.mem_pair.1 hname with rfl | rfl
      · exact .inl rfl
      · exact .inr List.mem_cons_self
  | case2 => rintro ⟨⟩

lemma visitedBy_of_notifiesOf {domain : String} {rest : List Word} {a : Action (List String)}
    (h : notifiesOf domain rest = some a) {name : String} (hname : name ∈ visitedBy a) :
    name = domain := by
  revert h
  fun_cases notifiesOf domain rest with
  | case1 => rintro ⟨⟩; exact List.mem_singleton.1 hname
  | case2 => rintro ⟨⟩

lemma visitedBy_of_returnsOf {domain : String} {rest : List Word} {name : String}
    (hname : name ∈ visitedBy (returnsOf domain rest)) : name = domain ∨ .plain name ∈ rest := by
  revert hname
  fun_cases returnsOf domain rest with
  | case1 =>
      intro hname
      rcases List.mem_pair.1 hname with rfl | rfl
      · exact .inl rfl
      · exact .inr (List.mem_cons_of_mem _ List.mem_cons_self)
  | case2 => exact fun hname => .inl (List.mem_singleton.1 hname)
  | case3 => exact fun hname => .inl (List.mem_singleton.1 hname)

lemma visitedBy_of_actionOf {line : List Word} {a : Action (List String)}
    (h : actionOf line = some a) {name : String} (hname : name ∈ visitedBy a) :
    .plain name ∈ line := by
  have hmem {domain verb : String} {rest : List Word} (h : name = domain ∨ .plain name ∈ rest) :
      .plain name ∈ Word.plain domain :: Word.plain verb :: rest := by
    rcases h with rfl | h
    · exact List.mem_cons_self
    · exact List.mem_cons_of_mem _ (List.mem_cons_of_mem _ h)
  revert h
  fun_cases actionOf line with
  | case1 domain rest => exact fun h => hmem (visitedBy_of_asksOf h hname)
  | case2 domain rest => exact fun h => hmem (.inl (visitedBy_of_notifiesOf h hname))
  | case3 domain rest => rintro ⟨⟩; exact hmem (visitedBy_of_returnsOf hname)
  | case4 domain verb rest => rintro ⟨⟩; exact hmem (.inl (List.mem_singleton.1 hname))
  | case5 => rintro ⟨⟩

/-! ## From tokens to scenarios -/

lemma exists_token_of_words {s r : Tokens} {line : List (Located Word)}
    (h : words s = .done line r) : ∀ w ∈ line, ∃ t ∈ s, wordOf t.value = some w.value := by
  obtain ⟨u, e, rfl, hu, -⟩ := wordsOf_words h
  intro w hw
  have hmem : some w.value ∈ (significant u).map wordOf := by
    rw [hu.map_wordOf, List.map_map]
    exact List.mem_map_of_mem hw
  obtain ⟨v, hv, hword⟩ := List.mem_map.1 hmem
  obtain ⟨t, ht, rfl⟩ := List.mem_map.1 hv
  exact ⟨t, List.mem_append_left _ (List.mem_of_mem_filter ht), hword⟩

lemma hasPlainWord_of_words {s r : Tokens} {line : List (Located Word)}
    (h : words s = .done line r) {text : String} (htext : .plain text ∈ line.map (·.value)) :
    HasPlainWord s text := by
  obtain ⟨w, hw, hvalue⟩ := List.mem_map.1 htext
  obtain ⟨t, ht, hword⟩ := exists_token_of_words h w hw
  exact ⟨t, ht, hword.trans (congrArg some hvalue)⟩

lemma participants_of_trigger {s r : Tokens} {t : Located (Trigger (List String))}
    (h : trigger s = .done t r) : ∀ name ∈ t.value.participants, HasPlainWord s name := by
  intro name hname
  obtain ⟨opening, s', line, rfl, -, hline, hform, -⟩ := trigger_eq_done h
  have hword := participants_of_triggerOf hform hname
  exact (hasPlainWord_of_words hline hword).mono (List.subset_cons_self opening s')

lemma visitedBy_of_action {s r : Tokens} {a : Located (Action (List String))}
    (h : action s = .done a r) : ∀ name ∈ visitedBy a.value, HasPlainWord s name := by
  intro name hname
  obtain ⟨line, hline, hform, -⟩ := action_eq_done h
  exact hasPlainWord_of_words hline (visitedBy_of_actionOf hform hname)

lemma participants_of_scenario {s r : Tokens} {d : ScenarioDecl} (h : scenario s = .done d r) :
    ∀ name ∈ d.participants, HasPlainWord s name := by
  intro name hname
  obtain ⟨opening, s', below, hopening, hbelow, rfl⟩ := scenario_eq_done h
  rcases List.mem_append.1 hname with hname | hname
  · exact participants_of_trigger hopening name hname
  · obtain ⟨a, ha, hname⟩ := List.mem_flatMap.1 hname
    obtain ⟨u, v, hu, hread⟩ := exists_suffix_of_mem_manyUntil hbelow a ha
    exact (visitedBy_of_action hread name hname).mono (hu.trans (suffix_of_done hopening)).subset

/-! ## From tokens to use cases -/

lemma scenarios_of_useCaseBody {start : Span} {s r : Tokens} {d : Located Declaration}
    (h : useCaseBody start s = .done d r) : ∀ u ∈ d.value.useCaseDecls, ∀ x ∈ u.scenarios,
      ∃ s' r', s' <:+ s ∧ scenario s' = .done x r' := by
  obtain ⟨s₁, name, s₂, s₃, body, hgap1, hname, hgap, hbody, rfl⟩ := useCaseBody_eq_done h
  obtain ⟨opening, s₄, found, hopening, hfound, rfl⟩ := block_eq_done hbody
  refine List.forall_mem_singleton.2 fun x hx => ?_
  obtain ⟨s', r', hs', hread⟩ := exists_suffix_of_mem_manyUntil hfound x hx
  have hsuffix : s₄ <:+ s :=
    (((suffix_of_done hopening).trans (suffix_of_done hgap)).trans (suffix_of_done hname)).trans
      (suffix_of_done hgap1)
  exact ⟨s', r', hs'.trans hsuffix, hread⟩

/-- Only the form of a use case makes use cases. -/
lemma scenarios_of_declarationBody {start : Span} {k : Keyword} {s r : Tokens}
    {d : Located Declaration} (h : declarationBody start k s = .done d r) :
    ∀ u ∈ d.value.useCaseDecls, ∀ x ∈ u.scenarios,
      ∃ s' r', s' <:+ s ∧ scenario s' = .done x r' := by
  cases k with
  | useCase => exact scenarios_of_useCaseBody h
  | when => exact scenarios_of_useCaseBody h
  | dataStores => exact scenarios_of_useCaseBody h
  | _ =>
      rw [useCaseDecls_of_declarationBody h rfl nofun]
      exact nofun

lemma participants_of_declaration {s r : Tokens} {d : Located Declaration}
    (h : declaration s = .done d r) : ∀ u ∈ d.value.useCaseDecls, ∀ x ∈ u.scenarios,
      ∀ name ∈ x.participants, HasPlainWord s name := by
  intro u hu x hx name hname
  obtain ⟨t, k, s', rfl, -, -, h⟩ := declaration_eq_done h
  obtain ⟨s'', r', hs'', hread⟩ := scenarios_of_declarationBody h u hu x hx
  have hsuffix := hs''.trans (List.suffix_cons t s')
  exact (participants_of_scenario hread name hname).mono hsuffix.subset

/-- Who takes part in a scenario of a program is named by a plain word of it. -/
theorem participants_of_declarations {s r : Tokens} {ds : List (Located Declaration)}
    (h : declarations s = .done ds r) :
    ∀ u ∈ (ds.map (·.value)).flatMap Declaration.useCaseDecls, ∀ x ∈ u.scenarios,
      ∀ name ∈ x.participants, HasPlainWord s name := by
  intro u hu x hx name hname
  obtain ⟨found, hfound, rfl⟩ := declarations_eq_done h
  obtain ⟨d', hd', hu⟩ := List.mem_flatMap.1 hu
  obtain ⟨d, hd, rfl⟩ := List.mem_map.1 hd'
  obtain ⟨s'', r', hs'', hread⟩ := exists_suffix_of_mem_manyUntil hfound d hd
  exact (participants_of_declaration hread u hu x hx name hname).mono hs''.subset

/-! ## From scenarios to edges -/

lemma participants_mapPhrase {ρ : Type} (f : π → ρ) (t : Trigger π) :
    (t.mapPhrase f).participants = t.participants := by
  cases t <;> rfl

lemma visitedBy_ofWords (a : Action (List String)) :
    visitedBy (Action.ofWords a) = visitedBy a := by
  cases a <;> rfl

lemma actions_stepsFrom (n : ℕ) (as : List (Action (List String))) :
    (stepsFrom n as).map (·.action) = as.map Action.ofWords := by
  induction as generalizing n with
  | nil => rfl
  | cons a as ih => rw [stepsFrom, List.map_cons, ih, List.map_cons]

lemma actions_numbered (n : ℕ) (d : ScenarioDecl) :
    (Scenario.numbered n d).actions = d.actions.map fun a => .ofWords a.value := by
  rw [Scenario.actions, Scenario.numbered, actions_stepsFrom, List.map_map]
  rfl

/-- Numbering a scenario changes nothing in who takes part. -/
lemma participants_numbered (n : ℕ) (d : ScenarioDecl) :
    (Scenario.numbered n d).participants = d.participants := by
  rw [Scenario.participants, actions_numbered, List.flatMap_map, ScenarioDecl.participants]
  simp only [visitedBy_ofWords]
  rw [Scenario.numbered, participants_mapPhrase]

lemma exists_decl_of_mem_scenariosFrom {n : ℕ} {ds : List ScenarioDecl} {x : Scenario}
    (hx : x ∈ scenariosFrom n ds) : ∃ d ∈ ds, x.participants = d.participants := by
  induction ds generalizing n with
  | nil => exact absurd hx List.not_mem_nil
  | cons d ds ih =>
      rw [scenariosFrom, List.mem_cons] at hx
      rcases hx with rfl | hx
      · exact ⟨d, List.mem_cons_self, participants_numbered n d⟩
      · obtain ⟨d', hd', hsame⟩ := ih hx
        exact ⟨d', List.mem_cons_of_mem d hd', hsame⟩

lemma names_of_triggerEdges {actions : List (Action String)} {t : Trigger String} {e : Edge}
    (he : e ∈ triggerEdges actions t) :
    e.names ⊆ t.participants ++ actions.flatMap visitedBy := by
  intro name hname
  revert he
  fun_cases triggerEdges actions t with
  | case1 => exact nofun
  | case2 actor verb phrase first rest =>
      intro he
      obtain rfl := List.mem_singleton.1 he
      rcases List.mem_pair.1 hname with rfl | rfl
      · exact List.mem_append_left _ List.mem_cons_self
      · refine List.mem_append_right _ (List.mem_flatMap.2 ⟨first, List.mem_cons_self, ?_⟩)
        exact domain_mem_visitedBy first
  | case3 => exact nofun

/-- The edge of an action ends at what the action names or at somebody who waits. -/
lemma names_of_edgeOf? {names : List String} {callers : List Endpoint} {a : Action String}
    {e : Edge} (hcallers : ∀ c ∈ callers, c.names ⊆ names) (ha : visitedBy a ⊆ names)
    (he : edgeOf? callers a = some e) : e.names ⊆ names := by
  revert he
  fun_cases edgeOf? callers a with
  | case1 => exact nofun
  | case2 => rintro ⟨⟩; exact ha
  | case3 domain event =>
      rintro ⟨⟩
      exact List.cons_subset.2 ⟨ha List.mem_cons_self, ha⟩
  | case4 => rintro ⟨⟩; exact ha
  | case5 domain phrase =>
      rintro ⟨⟩
      refine List.cons_subset.2 ⟨ha List.mem_cons_self, ?_⟩
      -- nobody is without a name
      rcases headD_external hcallers with houtside | hcaller
      · rw [houtside]
        exact List.nil_subset _
      · exact hcaller

lemma names_of_mem_edgesFrom {names : List String} {callers : List Endpoint}
    {actions : List (Action String)} (hcallers : ∀ c ∈ callers, c.names ⊆ names)
    (hactions : ∀ a ∈ actions, visitedBy a ⊆ names) :
    ∀ e ∈ edgesFrom callers actions, e.names ⊆ names := by
  refine forall_edgesFrom hcallers (fun a ha domain hdomain => ?_)
    fun a ha _ hwaiting _ he => names_of_edgeOf? hwaiting (hactions a ha) he
  exact List.cons_subset.2 ⟨hactions a ha (caller_mem_visitedBy hdomain), List.nil_subset _⟩

lemma names_callersOf (t : Trigger String) : ∀ c ∈ callersOf t, c.names ⊆ t.participants := by
  cases t with
  | external => exact List.forall_mem_singleton.2 (List.Subset.refl _)
  | event | listens => exact nofun

/-- A scenario alone has no edges but between those who take part in it. -/
lemma names_of_mem_ofScenario {owners : Ownership} {useCase : String} {x : Scenario} {e : Edge}
    (he : e ∈ (Flow.ofScenario owners useCase x).edges) : e.names ⊆ x.participants := by
  rcases List.mem_append.1 he with he | he
  · exact names_of_triggerEdges he
  · refine names_of_mem_edgesFrom (fun c hc => ?_) (fun a ha name hname => ?_) e he
    · exact List.Subset.trans (names_callersOf x.trigger c hc) (List.subset_append_left _ _)
    · exact List.mem_append_right _ (List.mem_flatMap.2 ⟨a, ha, hname⟩)

/-! ## Publishers -/

/-- A publisher takes part in a scenario. -/
lemma exists_scenario_of_publisher {policy : ConflictPolicy} {useCases : List UseCase}
    {event publisher : String}
    (h : (publishersOf policy useCases).get? event = some publisher) :
    ∃ u ∈ useCases, ∃ x ∈ u.scenarios, publisher ∈ x.participants := by
  rw [publishersOf, OrderedMap.get?_gather, ConflictPolicy.combineAll?_choose] at h
  obtain ⟨pair, hpair, rfl⟩ := List.mem_map.1 (ConflictPolicy.mem_of_pick? h)
  obtain ⟨u, hu, hpair⟩ := List.mem_flatMap.1 (List.mem_of_mem_filter hpair)
  obtain ⟨x, hx, hpair⟩ := List.mem_flatMap.1 hpair
  obtain ⟨a, ha, hpair⟩ := List.mem_filterMap.1 hpair
  refine ⟨u, hu, x, hx, List.mem_append_right _ (List.mem_flatMap.2 ⟨a, ha, ?_⟩)⟩
  cases a with
  | notifies domain e => cases hpair; exact List.mem_cons_self
  | internal | asks | returns => cases hpair

/-! ## The whole program -/

/-- Whoever stands at an end of an edge takes part in a scenario of the model. -/
lemma exists_scenario_of_mem_edges {policies : Policies} {ds : List Declaration} {f : Flow}
    (hf : f ∈ (Model.ofDeclarations policies ds).flows) {e : Edge} (he : e ∈ f.edges)
    {name : String} (hname : name ∈ e.names) :
    ∃ u ∈ (Model.ofDeclarations policies ds).useCases, ∃ x ∈ u.scenarios,
      name ∈ x.participants := by
  have hm := Model.assembledFrom_ofDeclarations policies ds
  rw [flows_eq hm] at hf
  obtain ⟨x, hx, rfl⟩ := List.mem_map.1 hf
  have hflow := isFlow_withListener hm hx
  obtain ⟨u, hu, hx⟩ := List.mem_flatMap.1 hx
  obtain ⟨x, hxu, rfl⟩ := List.mem_map.1 hx
  generalize (Model.alone _ (u.name, x)).withListener _ = f at hflow he
  cases hflow with
  | alone => exact ⟨u, hu, x, hxu, names_of_mem_ofScenario he hname⟩
  | @linked domain event publisher ht _ hpublisher =>
      rcases List.mem_cons.1 he with rfl | he
      · rcases List.mem_pair.1 hname with rfl | rfl
        · exact exists_scenario_of_publisher hpublisher
        · refine ⟨u, hu, x, hxu, List.mem_append_left _ ?_⟩
          rw [ht]
          exact List.mem_cons_self
      · exact ⟨u, hu, x, hxu, names_of_mem_ofScenario he hname⟩

lemma mem_scenariosFrom {policies : Policies} {ds : List Declaration} {u : UseCase}
    (hu : u ∈ (Model.ofDeclarations policies ds).useCases) {x : Scenario} (hx : x ∈ u.scenarios) :
    x ∈ scenariosFrom 1 ((ds.flatMap Declaration.useCaseDecls).flatMap UseCaseDecl.scenarios) := by
  rw [← scenarios_useCasesFrom, ← Model.useCases_ofDeclarations policies]
  exact List.mem_flatMap.2 ⟨u, hu, hx⟩

/-- A flow carries the identifier of a scenario. -/
lemma exists_number_of_mem_flows {policies : Policies} {ds : List Declaration} {f : Flow}
    (hf : f ∈ (Model.ofDeclarations policies ds).flows) : ∃ n, f.scenarioId = scenarioId n := by
  have hm := Model.assembledFrom_ofDeclarations policies ds
  rw [flows_eq hm] at hf
  obtain ⟨x, hx, rfl⟩ := List.mem_map.1 hf
  rw [scenarioId_withListener]
  obtain ⟨u, hu, hx⟩ := List.mem_flatMap.1 hx
  obtain ⟨y, hy, rfl⟩ := List.mem_map.1 hx
  exact (drawnFrom_items hm).exists_number (mem_items hu hy)

/-- A source that is read: its tokens are, and their declarations. -/
lemma declarationsOf_eq_ok {source : String} {ds : List (Located Declaration)} :
    declarationsOf source = .ok ds ↔
      ∃ ts, tokensOf source = .ok ts ∧ declarationsOfTokens ts = .ok ds := by
  rw [declarationsOf]
  cases tokensOf source with
  | error e => simp
  | ok ts => cases hread : declarationsOfTokens ts <;> simp [hread]

lemma ofSource_eq_ok {policies : Policies} {source : String} {m : Model} :
    Model.ofSource policies source = .ok m ↔
      ∃ ts ds, tokensOf source = .ok ts ∧ declarationsOfTokens ts = .ok ds ∧
        m = .ofDeclarations policies (ds.map (·.value)) := by
  have hsource : Model.ofSource policies source = .ok m ↔ ∃ ds, declarationsOf source = .ok ds ∧
      m = .ofDeclarations policies (ds.map (·.value)) := by
    rw [Model.ofSource]
    cases declarationsOf source <;> simp [eq_comm]
  rw [hsource]
  simp only [declarationsOf_eq_ok]
  constructor
  · rintro ⟨ds, ⟨ts, htokens, hread⟩, rfl⟩
    exact ⟨ts, ds, htokens, hread, rfl⟩
  · rintro ⟨ts, ds, htokens, hread, rfl⟩
    exact ⟨ds, ⟨ts, htokens, hread⟩, rfl⟩

/-- **Ends of edges are plain words.**  A name at an end of an edge stands in the source as a word
without quotes. -/
theorem exists_word_of_mem_edges {policies : Policies} {source : String}
    {ts : List (Located Token)} {m : Model} (htokens : tokensOf source = .ok ts)
    (hm : Model.ofSource policies source = .ok m) {f : Flow} (hf : f ∈ m.flows) {e : Edge}
    (he : e ∈ f.edges) {name : String} (hname : name ∈ e.names) : HasPlainWord ts name := by
  obtain ⟨ts', ds, htokens', hread, rfl⟩ := ofSource_eq_ok.1 hm
  obtain rfl : ts = ts' := Except.ok.inj (htokens.symm.trans htokens')
  obtain ⟨u, hu, x, hx, hname⟩ := exists_scenario_of_mem_edges hf he hname
  obtain ⟨d, hd, hsame⟩ := exists_decl_of_mem_scenariosFrom (mem_scenariosFrom hu hx)
  obtain ⟨ud, hud, hd⟩ := List.mem_flatMap.1 hd
  exact participants_of_declarations (declarationsOfTokens_eq_ok.1 hread) ud hud d hd name
    (hsame ▸ hname)

end ArchLang
