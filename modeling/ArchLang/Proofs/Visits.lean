import ArchLang.Proofs.CallMatching
import ArchLang.Proofs.Listeners
import Mathlib.Data.List.Basic
import Mathlib.Data.List.Forall2
import Mathlib.Tactic.Common

/-!
# The domains that a flow visits

A flow lists the domains of its scenario next to its edges.  The two are made apart: domains are
read off the trigger and the actions, while edges come from a stack of callers, and the edge of a
listener is added when all flows are there.  This file says that they agree.

* `Scenario.domainsMet` — the domain that listens, then for each action the one that acts and the
  one that it names.
* `Covers s f` — the flow visits these domains, each where it is first met, and its edges lead to
  no other domain.
* **`covers_ofDeclarations`** — every flow of an assembled model covers its scenario.
* `Walk.foldl_start` — callers, edges and domains may as well be found in one pass.

An answer without a target goes to a domain that no word of its line names.  What is needed of the
stack is that whoever waits in it was visited when it made its call; `forall_edgesFrom` carries this
along a run.
-/

namespace ArchLang

/-! ## Domains in the order of a scenario -/

section Lines

variable {π : Type}

/-- The domain that listens, if one does. -/
def Trigger.listener? : Trigger π → Option String
  | .listens domain _ => some domain
  | _ => none

/-- The domain that an action names: the target of a call, or that of an answer if it has one. -/
def Action.target? : Action π → Option String
  | .asks _ target _ _ => some target
  | .returns _ target _ => target
  | _ => none

lemma visitedBy_eq (a : Action π) : visitedBy a = a.domain :: a.target?.toList := by
  cases a <;> rfl

lemma visitedFirst_eq (t : Trigger π) : visitedFirst t = t.listener?.toList := by
  cases t <;> rfl

end Lines

/-- The domains of a scenario as they are met, with repetitions. -/
def Scenario.domainsMet (s : Scenario) : List String :=
  s.trigger.listener?.toList ++ s.actions.flatMap fun a => a.domain :: a.target?.toList

lemma visited_eq (s : Scenario) : s.visited = .ofList s.domainsMet := by
  simp only [Scenario.visited, Scenario.domainsMet, visitedFirst_eq, ← visitedBy_eq]

/-- The flow visits the domains of its scenario, and its edges lead to no other. -/
structure Covers (s : Scenario) (f : Flow) : Prop where
  /-- each domain stands where it is first met -/
  visited : f.visitedDomains.toList = s.domainsMet.eraseDups
  /-- a domain at an end of an edge is visited -/
  ends : ∀ e ∈ f.edges, ∀ name, e.source = .domain name ∨ e.target = .domain name →
    name ∈ f.visitedDomains.toList
  /-- news goes to the channel of a domain that is visited -/
  channels : ∀ e ∈ f.edges, e.kind = .async →
    ∃ owner, e.target = .channel owner ∧ owner ∈ f.visitedDomains.toList

/-! ## Edges among domains -/

/-- If the endpoint is a domain, it is one of these. -/
def Endpoint.Among (names : List String) (p : Endpoint) : Prop :=
  ∀ name, p = .domain name → name ∈ names

/-- The ends of an edge are among these domains, and so is the owner of a channel that gets news. -/
structure Edge.Among (names : List String) (e : Edge) : Prop where
  source : e.source.Among names
  target : e.target.Among names
  channel : e.kind = .async → ∃ owner, e.target = .channel owner ∧ owner ∈ names

section Run

variable {names : List String}

lemma among_domain {name : String} (h : name ∈ names) : (Endpoint.domain name).Among names := by
  rintro _ ⟨⟩
  exact h

/-- The actor of a trigger is no domain. -/
lemma among_callersOf (t : Trigger String) : ∀ c ∈ callersOf t, c.Among names := by
  cases t with
  | external => exact List.forall_mem_singleton.2 nofun
  | event | listens => exact nofun

/-- The edge of an action leads to a domain that the action visits or to somebody who waits. -/
lemma among_edgeOf? {waiting : List Endpoint} (hwaiting : ∀ c ∈ waiting, c.Among names)
    {a : Action String} (ha : visitedBy a ⊆ names) {e : Edge} (he : edgeOf? waiting a = some e) :
    e.Among names := by
  have hdomain : a.domain ∈ names := ha (domain_mem_visitedBy a)
  cases a with
  | internal => exact absurd he nofun
  | asks domain target =>
      obtain rfl := Option.some.inj he
      exact ⟨among_domain hdomain, among_domain (ha (by simp [visitedBy])), nofun⟩
  | notifies domain event =>
      obtain rfl := Option.some.inj he
      exact ⟨among_domain hdomain, nofun, fun _ => ⟨domain, rfl, hdomain⟩⟩
  | returns domain target phrase =>
      cases target with
      | some target =>
          obtain rfl := Option.some.inj he
          exact ⟨among_domain hdomain, among_domain (ha (by simp [visitedBy])), nofun⟩
      | none =>
          obtain rfl := Option.some.inj he
          refine ⟨among_domain hdomain, ?_, nofun⟩
          show (waiting.headD .external).Among names
          rcases headD_external hwaiting with houtside | hcaller
          · rw [houtside]
            exact nofun
          · exact hcaller

lemma among_edgesFrom {callers : List Endpoint} (hcallers : ∀ c ∈ callers, c.Among names)
    {actions : List (Action String)} (hactions : ∀ a ∈ actions, visitedBy a ⊆ names) :
    ∀ e ∈ edgesFrom callers actions, e.Among names := by
  refine forall_edgesFrom hcallers (fun a ha domain hdomain => ?_)
    fun a ha _ hwaiting _ he => among_edgeOf? hwaiting (hactions a ha) he
  exact among_domain (hactions a ha (caller_mem_visitedBy hdomain))

/-- An actor reaches the domain that acts first. -/
lemma among_triggerEdges {actions : List (Action String)}
    (hactions : ∀ a ∈ actions, visitedBy a ⊆ names) (t : Trigger String) :
    ∀ e ∈ triggerEdges actions t, e.Among names := by
  cases t with
  | external actor verb phrase =>
      cases actions with
      | nil => exact nofun
      | cons first rest =>
          have hfirst : first.domain ∈ names :=
            hactions first List.mem_cons_self (domain_mem_visitedBy first)
          exact List.forall_mem_singleton.2 ⟨nofun, among_domain hfirst, nofun⟩
  | event | listens => exact nofun

end Run

/-! ## One pass -/

/-- What a walk over the actions of a scenario has found so far. -/
structure Walk where
  callers : List Endpoint
  edges : List Edge
  visited : OrderedSet String

namespace Walk

/-- Before the first action. -/
def start (s : Scenario) : Walk :=
  ⟨callersOf s.trigger, triggerEdges s.actions s.trigger, .ofList (visitedFirst s.trigger)⟩

/-- One action more: its edge goes by the callers before it. -/
def step (w : Walk) (a : Action String) : Walk :=
  ⟨callersAfter w.callers a, w.edges ++ (edgeOf? w.callers a).toList,
    w.visited.union (.ofList (visitedBy a))⟩

lemma foldl_step (w : Walk) (actions : List (Action String)) :
    actions.foldl step w =
      ⟨callersLeft w.callers actions, w.edges ++ edgesFrom w.callers actions,
        .ofList (w.visited.toList ++ actions.flatMap visitedBy)⟩ := by
  induction actions generalizing w with
  | nil => simp [callersLeft, edgesFrom]
  | cons a actions ih =>
      rw [List.foldl_cons, ih]
      simp only [step, mk.injEq]
      refine ⟨rfl, ?edges, ?visited⟩
      case edges => rw [edgesFrom, List.append_assoc]
      case visited =>
        ext1
        simp only [OrderedSet.toList_ofList, OrderedSet.toList_union, List.flatMap_cons,
          eraseDups_eraseDups_append, eraseDups_append_eraseDups, List.append_assoc]

/-- **One pass is enough.**  A walk that takes callers, edges and domains along ends with the edges
and the domains of the flow. -/
theorem foldl_start (owners : Ownership) (useCase : String) (s : Scenario) :
    s.actions.foldl step (start s) =
      ⟨callersLeft (callersOf s.trigger) s.actions, (Flow.ofScenario owners useCase s).edges,
        (Flow.ofScenario owners useCase s).visitedDomains⟩ := by
  have hvisited : OrderedSet.ofList ((start s).visited.toList ++ s.actions.flatMap visitedBy)
      = s.visited := by
    ext1
    rw [start, OrderedSet.toList_ofList, OrderedSet.toList_ofList, eraseDups_eraseDups_append]
    rfl
  rw [foldl_step, hvisited]
  rfl

end Walk

/-! ## Whole flows -/

lemma visitedBy_subset {s : Scenario} : ∀ a ∈ s.actions, visitedBy a ⊆ s.visited.toList := by
  intro a ha name hname
  exact List.mem_eraseDups.2 (List.mem_append_right _ (List.mem_flatMap.2 ⟨a, ha, hname⟩))

lemma listener_mem_visited {s : Scenario} {domain event : String}
    (h : s.trigger = .listens domain event) : domain ∈ s.visited.toList := by
  refine List.mem_eraseDups.2 (List.mem_append_left _ ?_)
  rw [h]
  exact List.mem_cons_self

/-- The edges of a scenario alone stay among the domains that it visits. -/
lemma among_alone (m : Model) (x : String × Scenario) :
    ∀ e ∈ (m.alone x).edges, e.Among x.2.visited.toList :=
  List.forall_mem_append.2 ⟨among_triggerEdges visitedBy_subset x.2.trigger,
    among_edgesFrom (among_callersOf x.2.trigger) visitedBy_subset⟩

namespace IsFlow

variable {m : Model} {x : String × Scenario} {f : Flow}

lemma visitedDomains_eq (h : IsFlow m x f) : f.visitedDomains = x.2.visited := by
  cases h <;> rfl

/-- The edge of a listener leads to the domain of the trigger. -/
lemma among (h : IsFlow m x f) : ∀ e ∈ f.edges, e.Among x.2.visited.toList := by
  cases h with
  | alone => exact among_alone m x
  | linked ht =>
      refine List.forall_mem_cons.2 ⟨⟨nofun, ?_, nofun⟩, among_alone m x⟩
      exact among_domain (listener_mem_visited ht)

lemma covers (h : IsFlow m x f) : Covers x.2 f where
  visited := by rw [h.visitedDomains_eq, visited_eq, OrderedSet.toList_ofList]
  ends e he name hname := by
    rw [h.visitedDomains_eq]
    rcases hname with hsource | htarget
    · exact (h.among e he).source name hsource
    · exact (h.among e he).target name htarget
  channels e he hkind := by
    rw [h.visitedDomains_eq]
    exact (h.among e he).channel hkind

end IsFlow

/-- **Edges lead to visited domains.**  Each flow of an assembled model lists the domains of its
scenario, one of those of the declarations (`Model.useCases_ofDeclarations`), in first-seen order.
Every domain at an end of its edges is one of them, also where an answer found its caller or a
listener was linked, and so is the owner of every channel that gets news. -/
theorem covers_ofDeclarations (policies : Policies) (ds : List Declaration) :
    List.Forall₂ (fun x f => Covers x.2 f) (Model.ofDeclarations policies ds).scenarios
      (Model.ofDeclarations policies ds).flows :=
  (forall₂_isFlow (Model.assembledFrom_ofDeclarations policies ds)).imp fun _ _ h => h.covers

end ArchLang
