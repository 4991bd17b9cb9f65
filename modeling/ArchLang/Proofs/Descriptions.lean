import ArchLang.Proofs.EdgeNames
import ArchLang.Proofs.FlowShape

/-!
# Descriptions and labels

A line of a scenario is told twice: as the description of its trigger or action, and as the label of
its edge.  The two are put together from different parts of the line, and parts that are missing or
empty cost no space in either.  This file says that a description is the label with who acts in
front of it.

* `afterSpace label` — a space and the label, or nothing if the label is empty.
* `joinParts_cons` — the step: a part in front of others costs one space, if they say anything.
* `Cause.description?`, `Cause.label` — what a cause says as a text of its own, and on its edge.
* `Retells s label cause text` — the text says what the cause does in the words of the label.
* **`descriptions_of_labels`** — each description in an assembled model retells the label of the
  edge beside it.

The label of an edge does not depend on who waits for an answer, so the edges of a scenario carry
the labels of its causes (`labels_alone`), and the rest is a matter of one cause at a time.
-/

namespace ArchLang

/-! ## Parts and spaces -/

/-- A space and the text, or nothing if the text is empty. -/
def afterSpace (text : String) : String := if text = "" then "" else " " ++ text

lemma afterSpace_of_ne {text : String} (h : text ≠ "") : afterSpace text = " " ++ text := if_neg h

/-- Words that begin with one that is not empty make a text. -/
lemma joinPhrase_ne_empty {word : String} (h : word ≠ "") (words : List String) :
    joinPhrase (word :: words) ≠ "" := by
  cases words with
  | nil => rwa [joinPhrase, String.intercalate_singleton]
  | cons next words => simp [joinPhrase]

/-- A part in front of others. -/
lemma joinParts_cons {part : String} (h : part ≠ "") (parts : List String) :
    joinParts (part :: parts) = part ++ afterSpace (joinParts parts) := by
  have hkept : (part :: parts).filter (· ≠ "") = part :: parts.filter (· ≠ "") :=
    List.filter_cons_of_pos (by simpa using h)
  rw [joinParts, joinParts, hkept]
  cases hparts : parts.filter (· ≠ "") with
  | nil => simp [joinPhrase, afterSpace]
  | cons next rest =>
      have hnext : next ≠ "" := by
        simpa using List.of_mem_filter (hparts ▸ List.mem_cons_self : next ∈ parts.filter (· ≠ ""))
      rw [afterSpace_of_ne (joinPhrase_ne_empty hnext rest), joinPhrase,
        String.intercalate_cons_cons, String.append_assoc]
      rfl

lemma joinParts_singleton (part : String) : joinParts [part] = part := by
  by_cases h : part = ""
  · rw [h]
    rfl
  · rw [joinParts_cons h]
    exact String.append_empty

/-! ## What a cause says -/

/-- The text on the edge of a trigger, if an actor starts the scenario. -/
def Trigger.label : Trigger String → String
  | .external _ verb phrase => joinParts [verb, phrase]
  | _ => ""

/-- The text on the edge of an action, if it has one. -/
def Action.label : Action String → String
  | .internal .. => ""
  | .asks _ _ connector phrase => joinParts [connector.getD "", phrase]
  | .notifies _ event => event
  | .returns _ _ phrase => phrase

namespace Cause

/-- The text on the edge of a cause that belongs to a line of the scenario. -/
def label (s : Scenario) : Cause → String
  | .hearing => ""
  | .starting => s.trigger.label
  | .acting a => a.label

/-- The description of the line that a cause belongs to. -/
def description? (s : Scenario) : Cause → Option String
  | .hearing => none
  | .starting => some s.trigger.description
  | .acting a => some a.description

/-- Who is named in the line of a cause. -/
def names (s : Scenario) : Cause → List String
  | .hearing => []
  | .starting => s.trigger.participants
  | .acting a => visitedBy a

end Cause

/-- The text says what the cause does in the words of the label, behind who acts on whom; an empty
label leaves no trace. -/
inductive Retells (s : Scenario) (label : String) : Cause → String → Prop where
  | starting {actor : String} : s.trigger.actor? = some actor →
      Retells s label .starting ("when " ++ actor ++ afterSpace label)
  | asks {domain target phrase : String} {connector : Option String} :
      Retells s label (.acting (.asks domain target connector phrase))
        (domain ++ " asks " ++ target ++ afterSpace label)
  | notifies {domain event : String} :
      Retells s label (.acting (.notifies domain event))
        (domain ++ " notifies \"" ++ label ++ "\"")
  | returns {domain phrase : String} :
      Retells s label (.acting (.returns domain none phrase))
        (domain ++ " returns" ++ afterSpace label)
  | returnsTo {domain target phrase : String} :
      Retells s label (.acting (.returns domain (some target) phrase))
        (domain ++ " returns" ++ afterSpace label ++ " to " ++ target)

/-! ## One line -/

lemma description_external {actor : String} (h : actor ≠ "") (verb phrase : String) :
    (Trigger.external actor verb phrase).description =
      "when " ++ actor ++ afterSpace (joinParts [verb, phrase]) := by
  rw [Trigger.description, joinParts_cons h, ← String.append_assoc]

/-- A fixed word behind the domain. -/
lemma joinParts_verb {domain verb : String} (hdomain : domain ≠ "") (hverb : verb ≠ "")
    (parts : List String) : joinParts (domain :: verb :: parts) =
      domain ++ " " ++ verb ++ afterSpace (joinParts parts) := by
  rw [joinParts_cons hdomain, joinParts_cons hverb, afterSpace_of_ne (by simp [hverb])]
  simp only [String.append_assoc]

lemma description_asks {domain target : String} (hdomain : domain ≠ "") (htarget : target ≠ "")
    (connector : Option String) (phrase : String) :
    (Action.asks domain target connector phrase).description =
      domain ++ " asks " ++ target ++ afterSpace (joinParts [connector.getD "", phrase]) := by
  have hasks : domain ++ " asks " = domain ++ " " ++ "asks" ++ " " := by
    simp only [String.append_assoc]
    rfl
  rw [Action.description, joinParts_verb hdomain (by decide), joinParts_cons htarget,
    afterSpace_of_ne (by simp [htarget]), hasks]
  simp only [String.append_assoc]

/-- The words that every answer begins with. -/
lemma joinParts_returns {domain : String} (h : domain ≠ "") (phrase : String) :
    joinParts [domain, "returns", phrase] = domain ++ " returns" ++ afterSpace phrase := by
  have hreturns : domain ++ " returns" = domain ++ " " ++ "returns" := by
    rw [String.append_assoc]
    rfl
  rw [joinParts_verb h (by decide), joinParts_singleton, hreturns]

/-- The description of a cause retells its label, if nobody in it is without a name. -/
lemma Fits.retells {s : Scenario} {cause : Cause} {e : Edge} (h : Fits s cause e)
    (hnames : ∀ name ∈ cause.names s, name ≠ "") {text : String}
    (htext : cause.description? s = some text) : Retells s (cause.label s) cause text := by
  cases h with
  | hearing => cases htext
  | @starting actor label first hactor =>
      cases htext
      cases ht : s.trigger with
      | external name verb phrase =>
          have hname : name ≠ "" := by
            refine hnames name ?_
            rw [Cause.names, ht]
            exact List.mem_cons_self
          rw [description_external hname, Cause.label, ht]
          exact .starting (by rw [ht, Trigger.actor?])
      | event | listens => rw [ht] at hactor; cases hactor
  | asks =>
      cases htext
      rw [description_asks (hnames _ List.mem_cons_self)
        (hnames _ (List.mem_cons_of_mem _ List.mem_cons_self))]
      exact .asks
  | notifies =>
      cases htext
      exact .notifies
  | returnsTo =>
      cases htext
      rw [Action.description, joinParts_returns (hnames _ List.mem_cons_self)]
      exact .returnsTo
  | returns =>
      cases htext
      rw [Action.description, joinParts_returns (hnames _ List.mem_cons_self)]
      exact .returns

/-! ## The lines of a scenario -/

/-- Whoever waits, the edges of some actions carry the labels of these actions. -/
lemma labels_edgesFrom (callers : List Endpoint) (actions : List (Action String)) :
    (edgesFrom callers actions).map (·.label) = (actions.filter hasEdge).map Action.label := by
  induction actions generalizing callers with
  | nil => rfl
  | cons a actions ih =>
      rw [edgesFrom, List.map_append, ih]
      cases a with
      | internal | asks | notifies => rfl
      | returns domain target phrase => cases target <;> rfl

lemma labels_triggerEdges (s : Scenario) :
    (triggerEdges s.actions s.trigger).map (·.label) =
      (if s.trigger.actor?.isSome ∧ s.actions ≠ [] then [.starting] else []).map
        (Cause.label s) := by
  cases ht : s.trigger with
  | external actor verb phrase =>
      cases s.actions with
      | nil => rfl
      | cons first rest =>
          rw [if_pos ⟨rfl, List.cons_ne_nil first rest⟩, List.map_singleton, Cause.label, ht]
          rfl
  | event | listens => rfl

/-- The edges of a scenario alone carry the labels of its causes. -/
lemma labels_alone (m : Model) (x : String × Scenario) :
    (m.alone x).edges.map (·.label) = x.2.causes.map (Cause.label x.2) := by
  rw [Model.alone, Flow.ofScenario, Scenario.causes, List.map_append, List.map_append,
    labels_triggerEdges, labels_edgesFrom, List.map_map]
  rfl

/-- The lines of a scenario name nobody but those who take part. -/
lemma names_of_mem_causes {s : Scenario} :
    ∀ cause ∈ s.causes, cause.names s ⊆ s.participants := by
  intro cause hcause
  cases cause with
  | hearing => exact List.nil_subset _
  | starting => exact List.subset_append_left _ _
  | acting a =>
      have ha : a ∈ s.actions := by
        rcases List.mem_append.1 hcause with hstart | hact
        · split at hstart
          · cases List.mem_singleton.1 hstart
          · cases hstart
        · obtain ⟨a', ha', ⟨⟩⟩ := List.mem_map.1 hact
          exact List.mem_of_mem_filter ha'
      exact fun name hname => List.mem_append_right _ (List.mem_flatMap.2 ⟨a, ha, hname⟩)

/-- The edge fits its cause, and the description of the cause retells the label of the edge. -/
structure Tells (s : Scenario) (cause : Cause) (e : Edge) : Prop where
  fits : Fits s cause e
  retells : ∀ text, cause.description? s = some text → Retells s e.label cause text

lemma tells_of_labels {s : Scenario} {causes : List Cause} {edges : List Edge}
    (hfits : List.Forall₂ (Fits s) causes edges)
    (hlabels : edges.map (·.label) = causes.map (Cause.label s))
    (hnames : ∀ cause ∈ causes, ∀ name ∈ cause.names s, name ≠ "") :
    List.Forall₂ (Tells s) causes edges := by
  induction hfits with
  | nil => exact .nil
  | @cons cause e _ _ hfit _ ih =>
      obtain ⟨hlabel, hlabels⟩ := List.cons.inj hlabels
      obtain ⟨hname, hnames⟩ := List.forall_mem_cons.1 hnames
      have hlabel : e.label = cause.label s := hlabel
      refine .cons ⟨hfit, fun text htext => ?_⟩ (ih hlabels hnames)
      rw [hlabel]
      exact hfit.retells hname htext

/-- The edges of a flow retell the lines of its scenario one by one, at most with the edge of a
listener in front. -/
def Retold (s : Scenario) (f : Flow) : Prop :=
  ∃ front, (front = [] ∨ front = [Cause.hearing]) ∧
    List.Forall₂ (Tells s) (front ++ s.causes) f.edges

lemma IsFlow.retold {m : Model} {x : String × Scenario} {f : Flow} (h : IsFlow m x f)
    (hnames : ∀ name ∈ x.2.participants, name ≠ "") : Retold x.2 f := by
  have htells : List.Forall₂ (Tells x.2) x.2.causes (m.alone x).edges :=
    tells_of_labels (fits_alone m x) (labels_alone m x) fun cause hcause name hname =>
      hnames name (names_of_mem_causes cause hcause hname)
  cases h with
  | linked ht => exact ⟨[.hearing], .inr rfl, .cons ⟨.hearing ht, nofun⟩ htells⟩
  | alone => exact ⟨[], .inl rfl, htells⟩

/-! ## Whole programs -/

/-- Nobody who takes part in a scenario of the program is without a name. -/
def AllNamed (ds : List Declaration) : Prop :=
  ∀ d ∈ ds, ∀ u ∈ d.useCaseDecls, ∀ x ∈ u.scenarios, ∀ name ∈ x.participants, name ≠ ""

/-- **Descriptions retell labels.**  If nobody is without a name, the description of every trigger
and action that has an edge is the label of the edge behind who acts on whom, whichever of verb,
connector and phrase are empty or missing. -/
theorem descriptions_of_labels {policies : Policies} {ds : List Declaration} (h : AllNamed ds) :
    List.Forall₂ (fun x f => Retold x.2 f) (Model.ofDeclarations policies ds).scenarios
      (Model.ofDeclarations policies ds).flows := by
  have hnamed : ∀ x ∈ (Model.ofDeclarations policies ds).scenarios,
      ∀ name ∈ x.2.participants, name ≠ "" := by
    intro x hx name hname
    obtain ⟨u, hu, hx⟩ := List.mem_flatMap.1 hx
    obtain ⟨x, hxu, rfl⟩ := List.mem_map.1 hx
    obtain ⟨decl, hdecl, hsame⟩ := exists_decl_of_mem_scenariosFrom (mem_scenariosFrom hu hxu)
    obtain ⟨ud, hud, hdecl⟩ := List.mem_flatMap.1 hdecl
    obtain ⟨d, hd, hud⟩ := List.mem_flatMap.1 hud
    exact h d hd ud hud decl hdecl name (hsame ▸ hname)
  have hflows := (List.forall₂_and_left _ _).2
    ⟨hnamed, forall₂_isFlow (Model.assembledFrom_ofDeclarations policies ds)⟩
  exact hflows.imp fun _ _ h => h.2.retold h.1

/-- A sale whose lines leave out the verb, connectors and phrases. -/
def sale : List Declaration :=
  [.useCase ⟨⟨"Sale", .origin⟩, [⟨⟨.external "Clerk" "" ["a", "sale"], .origin⟩,
    [⟨.asks "Till" "Bank" none [], .origin⟩, ⟨.asks "Bank" "Vault" (some "") ["", "now"], .origin⟩,
      ⟨.internal "Vault" "opens" none [], .origin⟩, ⟨.returns "Vault" (some "Bank") [""], .origin⟩,
      ⟨.returns "Bank" none ["the", "sum"], .origin⟩, ⟨.notifies "Till" "", .origin⟩]⟩]⟩]

theorem descriptions_of_labels_sale :
    AllNamed sale ∧
      List.Forall₂ (fun x f => Retold x.2 f) (Model.ofDeclarations {} sale).scenarios
        (Model.ofDeclarations {} sale).flows ∧
      (Model.ofDeclarations {} sale).scenarios.map
          (fun x => x.2.trigger.description :: x.2.actions.map Action.description)
        = [["when Clerk a sale", "Till asks Bank", "Bank asks Vault  now", "Vault opens",
          "Vault returns to Bank", "Bank returns the sum", "Till notifies \"\""]] ∧
      (Model.ofDeclarations {} sale).flows.map (fun f => f.edges.map (·.label))
        = [["a sale", "", " now", "", "the sum", ""]] := by
  have h : AllNamed sale := by
    unfold AllNamed
    decide
  exact ⟨h, descriptions_of_labels h, by decide, by decide⟩

end ArchLang
