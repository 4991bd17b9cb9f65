import ArchLang.Proofs.CallMatching
import ArchLang.Proofs.Listeners
import Mathlib.Data.List.Basic
import Mathlib.Data.List.Forall2
import Mathlib.Tactic.Common

/-!
# The shape of a flow

Every edge of a flow has a cause: the scenario hears an event, an actor starts it, or one of its
actions asks, notifies or answers.  This file lists the causes of a scenario in order and says what
the edge of each looks like.

* `Scenario.causes` — an external trigger if there is an action to reach, then every action that is
  not internal.
* `Fits s cause e` — the ends and the kind that a cause asks for.
* `InPlace s cause e` — where actors, channels and the outside may stand.
* `WellShaped s f` — the edges of a flow answer to the causes of its scenario one by one, at most
  with the edge of a listener in front.
* **`wellShaped_ofDeclarations`** — every flow of an assembled model is well shaped.

An answer without a target goes to whoever waits, so the proof has to know who can wait: domains,
and the actor of the trigger (`Waits`).  Actions keep it so (`forall_callersAfter`).
-/

namespace ArchLang

/-- The actor that starts a scenario, if one does. -/
def Trigger.actor? {π : Type} : Trigger π → Option String
  | .external actor _ _ => some actor
  | _ => none

/-! ## Causes -/

/-- What an edge is there for. -/
inductive Cause where
  /-- the scenario hears an event -/
  | hearing
  /-- an actor starts the scenario -/
  | starting
  /-- an action -/
  | acting (a : Action String)

/-- The cause is an answer that names no target. -/
def Cause.IsAnswer : Cause → Prop
  | .acting a => isAnswer a = true
  | _ => False

/-- The causes of a scenario alone, in order. -/
def Scenario.causes (s : Scenario) : List Cause :=
  (if s.trigger.actor?.isSome ∧ s.actions ≠ [] then [.starting] else [])
    ++ (s.actions.filter hasEdge).map .acting

/-! ## What an edge looks like -/

/-- Who can wait for an answer: a domain, or the actor that started the scenario. -/
inductive Waits (t : Trigger String) : Endpoint → Prop where
  | domain (name : String) : Waits t (.domain name)
  | actor {name : String} : t.actor? = some name → Waits t (.actor name)

/-- The ends and the kind that the cause of an edge asks for. -/
inductive Fits (s : Scenario) : Cause → Edge → Prop where
  /-- the channel of a publisher reaches the domain that listens -/
  | hearing {publisher domain event : String} : s.trigger = .listens domain event →
      Fits s .hearing ⟨.channel publisher, .domain domain, event, .listen⟩
  /-- the actor reaches the domain that acts first -/
  | starting {actor label : String} {first : Action String} : s.trigger.actor? = some actor →
      s.actions.head? = some first →
      Fits s .starting ⟨.actor actor, .domain first.domain, label, .trigger⟩
  /-- a call goes to its target -/
  | asks {domain target phrase label : String} {connector : Option String} :
      Fits s (.acting (.asks domain target connector phrase))
        ⟨.domain domain, .domain target, label, .sync⟩
  /-- news goes to the domain's own channel -/
  | notifies {domain event label : String} :
      Fits s (.acting (.notifies domain event)) ⟨.domain domain, .channel domain, label, .async⟩
  /-- an answer goes to its target -/
  | returnsTo {domain target phrase label : String} :
      Fits s (.acting (.returns domain (some target) phrase))
        ⟨.domain domain, .domain target, label, .reply⟩
  /-- an answer without one goes to whoever waits, or out of the system -/
  | returns {domain phrase label : String} {target : Endpoint} :
      target = .external ∨ Waits s.trigger target →
      Fits s (.acting (.returns domain none phrase)) ⟨.domain domain, target, label, .reply⟩

/-- Where actors, channels and the outside stand in an edge with this cause. -/
structure InPlace (s : Scenario) (cause : Cause) (e : Edge) : Prop where
  /-- nothing comes from the outside -/
  external_source : e.source ≠ .external
  /-- only an answer without a target leaves the system -/
  external_target : e.target = .external → e.kind = .reply ∧ cause.IsAnswer
  /-- an actor acts only to start the scenario, and it is that of the trigger -/
  actor_source : ∀ name, e.source = .actor name →
    e.kind = .trigger ∧ cause = .starting ∧ s.trigger.actor? = some name
  /-- only an answer without a target reaches an actor, and it is that of the trigger -/
  actor_target : ∀ name, e.target = .actor name →
    e.kind = .reply ∧ cause.IsAnswer ∧ s.trigger.actor? = some name
  /-- channels reach listeners -/
  channel_source : ∀ owner, e.source = .channel owner → e.kind = .listen
  /-- only news reaches a channel -/
  channel_target : ∀ owner, e.target = .channel owner → e.kind = .async

/-- The edges of a flow answer to the causes of its scenario one by one, at most with the edge of a
listener in front. -/
def WellShaped (s : Scenario) (f : Flow) : Prop :=
  ∃ front, (front = [] ∨ front = [Cause.hearing]) ∧
    List.Forall₂ (fun cause e => Fits s cause e ∧ InPlace s cause e) (front ++ s.causes) f.edges

/-- An edge that fits its cause has its ends where they may stand. -/
lemma Fits.inPlace {s : Scenario} {cause : Cause} {e : Edge} (h : Fits s cause e) :
    InPlace s cause e := by
  cases h with
  | hearing => constructor <;> simp
  | starting hactor => constructor <;> simp [hactor]
  | asks => constructor <;> simp
  | notifies => constructor <;> simp
  | returnsTo => constructor <;> simp
  | returns htarget =>
      rcases htarget with rfl | (name | hactor)
      · constructor <;> simp [Cause.IsAnswer, isAnswer]
      · constructor <;> simp
      · constructor <;> simp [Cause.IsAnswer, isAnswer, hactor]

/-! ## Who waits -/

section Waiting

variable {s : Scenario} {callers : List Endpoint}

lemma waits_callersOf (t : Trigger String) : ∀ c ∈ callersOf t, Waits t c := by
  intro c hc
  cases t with
  | external actor verb phrase =>
      rw [callersOf, List.mem_singleton] at hc
      rw [hc]
      exact .actor rfl
  | event => exact absurd hc List.not_mem_nil
  | listens => exact absurd hc List.not_mem_nil

/-! ## One action, and a list of them -/

/-- Internal work has no edge. -/
lemma edgeOf?_of_not_hasEdge {a : Action String} (h : hasEdge a = false) :
    edgeOf? callers a = none := by
  cases a with
  | internal => rfl
  | _ => exact absurd h (by simp [hasEdge])

/-- Any other action has one that fits. -/
lemma exists_fits_of_hasEdge (hcallers : ∀ c ∈ callers, Waits s.trigger c) {a : Action String}
    (h : hasEdge a = true) : ∃ e, edgeOf? callers a = some e ∧ Fits s (.acting a) e := by
  cases a with
  | internal => exact absurd h (by simp [hasEdge])
  | asks => exact ⟨_, rfl, .asks⟩
  | notifies => exact ⟨_, rfl, .notifies⟩
  | returns domain target phrase =>
      cases target with
      | none => exact ⟨_, rfl, .returns (headD_external hcallers)⟩
      | some target => exact ⟨_, rfl, .returnsTo⟩

/-- The edges of a list of actions fit the actions that have one, in order. -/
lemma fits_edgesFrom (hcallers : ∀ c ∈ callers, Waits s.trigger c)
    (actions : List (Action String)) :
    List.Forall₂ (Fits s) ((actions.filter hasEdge).map .acting) (edgesFrom callers actions) := by
  induction actions generalizing callers with
  | nil => exact .nil
  | cons a actions ih =>
      have hwaiting : ∀ c ∈ callersAfter callers a, Waits s.trigger c :=
        forall_callersAfter hcallers fun domain _ => .domain domain
      have hrest := ih hwaiting
      rw [edgesFrom]
      cases hedge : hasEdge a with
      | false =>
          rw [edgeOf?_of_not_hasEdge hedge, List.filter_cons_of_neg (by simp [hedge])]
          exact hrest
      | true =>
          obtain ⟨e, he, hfits⟩ := exists_fits_of_hasEdge hcallers hedge
          rw [he, List.filter_cons_of_pos hedge]
          exact .cons hfits hrest

end Waiting

/-! ## A scenario, alone and linked -/

/-- The edge of the trigger, if an actor has somebody to reach. -/
lemma fits_triggerEdges (s : Scenario) :
    List.Forall₂ (Fits s)
      (if s.trigger.actor?.isSome ∧ s.actions ≠ [] then [.starting] else [])
      (triggerEdges s.actions s.trigger) := by
  cases ht : s.trigger with
  | external actor verb phrase =>
      cases hactions : s.actions with
      | nil => exact .nil
      | cons first rest =>
          rw [if_pos ⟨rfl, List.cons_ne_nil first rest⟩]
          refine .cons (.starting ?_ ?_) .nil
          · rw [ht, Trigger.actor?]
          · rw [hactions, List.head?_cons]
  | event => exact .nil
  | listens => exact .nil

lemma fits_alone (m : Model) (x : String × Scenario) :
    List.Forall₂ (Fits x.2) x.2.causes (m.alone x).edges :=
  List.rel_append (fits_triggerEdges x.2) (fits_edgesFrom (waits_callersOf x.2.trigger) x.2.actions)

lemma IsFlow.wellShaped {m : Model} {x : String × Scenario} {f : Flow} (h : IsFlow m x f) :
    WellShaped x.2 f := by
  have keeps : ∀ cause e, Fits x.2 cause e → Fits x.2 cause e ∧ InPlace x.2 cause e :=
    fun _ _ hfits => ⟨hfits, hfits.inPlace⟩
  cases h with
  | linked ht =>
      refine ⟨[.hearing], .inr rfl, ?_⟩
      exact (List.Forall₂.cons (.hearing ht) (fits_alone m x)).imp keeps
  | alone =>
      refine ⟨[], .inl rfl, ?_⟩
      exact (fits_alone m x).imp keeps

/-- **Flows are well shaped.**  Each flow of an assembled model belongs to one scenario of the
declarations (`Model.useCases_ofDeclarations`) and has one edge for each of its causes, in order,
with the ends and the kind that the cause asks for. -/
theorem wellShaped_ofDeclarations (policies : Policies) (ds : List Declaration) :
    List.Forall₂ (fun x f => WellShaped x.2 f) (Model.ofDeclarations policies ds).scenarios
      (Model.ofDeclarations policies ds).flows :=
  (forall₂_isFlow (Model.assembledFrom_ofDeclarations policies ds)).imp fun _ _ h => h.wellShaped

end ArchLang
