import ArchLang.Proofs.Listeners
import ArchLang.Proofs.ServiceMerge
import Mathlib.Data.List.Basic
import Mathlib.Tactic.Common

/-!
# Who publishes an event

Any number of domains may publish one event, in any number of scenarios and in turn.  The map of
publishers is filled with one notification after another.  This file says what it holds in the end,
by the actions alone.

**First and last.**  The publisher of an event is settled by one action: the first that publishes
it, or the last (`SettledBy`).  What other domains published it in between does not matter, nor how
often.  An event keeps the place of its first notification, whoever publishes it later.

**Silence.**  Only notifications count (`notifications_eq_voices`), so a scenario without any may
come, go or move to any place.

* `TellsPublishers policy useCases publishers` — the map holds the events and their publishers.
* **`publishersOf_told`** — the map of publishers does, and silent scenarios do not matter for it.
* `publishersOf_eq_foldl` — the map may be written only where a notification brings something new.
-/

namespace ArchLang

variable {π : Type}

/-! ## The action that settles an event -/

/-- The event that an action publishes. -/
def Action.event? : Action π → Option String
  | .notifies _ event => some event
  | _ => none

/-- All actions of the use cases, in source order. -/
def actionsOf (useCases : List UseCase) : List (Action String) :=
  useCases.flatMap fun u => u.scenarios.flatMap Scenario.actions

/-- The domain publishes the event by the action that counts: there is none for this event before
it if the first one wins, and none behind it if the last one wins. -/
def SettledBy (policy : ConflictPolicy) (actions : List (Action String)) (event domain : String) :
    Prop :=
  ∃ before after, actions = before ++ .notifies domain event :: after ∧
    match policy with
    | .firstWins => ∀ a ∈ before, ¬ a.Publishes event
    | .lastWins => ∀ a ∈ after, ¬ a.Publishes event

/-- The map tells who publishes what. -/
structure TellsPublishers (policy : ConflictPolicy) (useCases : List UseCase)
    (publishers : OrderedMap String String) : Prop where
  /-- there are the events that actions publish, in the order of the first action for each -/
  events : publishers.keys = ((actionsOf useCases).filterMap Action.event?).eraseDups
  /-- each has the domain of the action that settles it -/
  publisher : ∀ event domain, publishers.get? event = some domain ↔
    SettledBy policy (actionsOf useCases) event domain

/-- The domain that publishes the event by this action. -/
def notifierOf? (event : String) : Action π → Option String
  | .notifies domain e => if e = event then some domain else none
  | _ => none

lemma notifierOf?_eq_some_iff {event domain : String} {a : Action π} :
    notifierOf? event a = some domain ↔ a = .notifies domain event := by
  cases a with
  | notifies d e =>
      simp only [notifierOf?, Option.ite_none_right_eq_some, Option.some.injEq,
        Action.notifies.injEq]
      exact and_comm
  | internal | asks | returns => exact ⟨nofun, nofun⟩

lemma notifierOf?_eq_none_iff {event : String} {a : Action π} :
    notifierOf? event a = none ↔ ¬ a.Publishes event := by
  cases a with
  | notifies d e => simp [notifierOf?, Action.Publishes]
  | internal | asks | returns => exact ⟨fun _ => id, fun _ => rfl⟩

/-- What a policy picks of the domains that publish an event is the one that settles it. -/
lemma pick?_notifiers_eq_some_iff {policy : ConflictPolicy} {actions : List (Action String)}
    {event domain : String} :
    policy.pick? (actions.filterMap (notifierOf? event)) = some domain ↔
      SettledBy policy actions event domain := by
  cases policy with
  | firstWins =>
      simp only [ConflictPolicy.pick?, List.head?_filterMap, List.findSome?_eq_some_iff,
        notifierOf?_eq_some_iff, notifierOf?_eq_none_iff]
      constructor
      · rintro ⟨before, _, after, rfl, rfl, hbefore⟩
        exact ⟨before, after, rfl, hbefore⟩
      · rintro ⟨before, after, rfl, hbefore⟩
        exact ⟨before, _, after, rfl, rfl, hbefore⟩
  | lastWins =>
      -- the last one is the first of the reversed list, and what stands before it there is behind
      simp only [ConflictPolicy.pick?, List.getLast?_filterMap, List.findSome?_eq_some_iff,
        notifierOf?_eq_some_iff, notifierOf?_eq_none_iff, List.reverse_eq_iff]
      constructor
      · rintro ⟨after, _, before, rfl, rfl, hafter⟩
        refine ⟨before.reverse, after.reverse, by simp, fun a ha => ?_⟩
        exact hafter a (List.mem_reverse.1 ha)
      · rintro ⟨before, after, rfl, hafter⟩
        refine ⟨after.reverse, _, before.reverse, by simp, rfl, fun a ha => ?_⟩
        exact hafter a (List.mem_reverse.1 ha)

/-! ## Notifications and actions -/

lemma notifications_eq (useCases : List UseCase) :
    notifications useCases = (actionsOf useCases).filterMap notificationOf? := by
  simp only [notifications, actionsOf, List.filterMap_flatMap]

lemma map_fst_notifications (actions : List (Action String)) :
    (actions.filterMap notificationOf?).map Prod.fst = actions.filterMap Action.event? := by
  rw [List.map_filterMap]
  refine List.filterMap_congr fun a _ => ?_
  cases a <;> rfl

lemma valuesOf_notifications (event : String) (actions : List (Action String)) :
    OrderedMap.valuesOf event (actions.filterMap notificationOf?)
      = actions.filterMap (notifierOf? event) := by
  rw [OrderedMap.valuesOf, List.filter_filterMap, List.map_filterMap]
  refine List.filterMap_congr fun a _ => ?_
  cases a with
  | notifies domain e => by_cases he : e = event <;> simp [notificationOf?, notifierOf?, he]
  | internal | asks | returns => rfl

lemma tellsPublishers_publishersOf (policy : ConflictPolicy) (useCases : List UseCase) :
    TellsPublishers policy useCases (publishersOf policy useCases) where
  events := by
    rw [publishersOf, OrderedMap.keys_gather, notifications_eq, map_fst_notifications]
  publisher event domain := by
    rw [publishersOf, OrderedMap.get?_gather, ConflictPolicy.combineAll?_choose, notifications_eq,
      valuesOf_notifications, pick?_notifiers_eq_some_iff]

/-! ## The loop -/

/-- One notification more, as a loop takes it: the map is written if the event is new or if another
domain published it so far. -/
def takeNotification (policy : ConflictPolicy) (known : OrderedMap String String)
    (notification : String × String) : OrderedMap String String :=
  if known.get? notification.1 = some notification.2 then known
  else known.insertWith policy.choose notification.1 notification.2

/-- To write only where something is new comes to the same map. -/
theorem publishersOf_eq_foldl (policy : ConflictPolicy) (useCases : List UseCase) :
    publishersOf policy useCases
      = (notifications useCases).foldl (takeNotification policy) .empty := by
  have hkeep : ∀ domain : String, policy.choose domain domain = domain := by
    intro domain
    cases policy <;> rfl
  rw [publishersOf, OrderedMap.gather]
  congr 1
  funext known notification
  rw [takeNotification]
  split
  · next hknown => exact OrderedMap.insertWith_eq_self hknown (hkeep _)
  · rfl

/-! ## Silent scenarios -/

/-- The scenario publishes nothing. -/
def Scenario.Silent (s : Scenario) : Prop := ∀ a ∈ s.actions, a.event? = none

instance : DecidablePred Scenario.Silent :=
  fun s => inferInstanceAs (Decidable (∀ a ∈ s.actions, a.event? = none))

/-- What the scenarios that publish something do, one scenario after another, without the names of
scenarios and use cases. -/
def voices (useCases : List UseCase) : List (List (Action String)) :=
  ((useCases.flatMap UseCase.scenarios).filter fun s => ¬ s.Silent).map Scenario.actions

lemma Scenario.Silent.notifications_eq_nil {s : Scenario} (h : s.Silent) :
    s.actions.filterMap notificationOf? = [] := by
  refine List.filterMap_eq_nil_iff.2 fun a ha => ?_
  have hevent := h a ha
  cases a with
  | notifies => exact absurd hevent nofun
  | internal | asks | returns => rfl

/-- All notifications are found in the scenarios that are not silent. -/
lemma notifications_eq_voices (useCases : List UseCase) :
    notifications useCases = (voices useCases).flatMap fun as => as.filterMap notificationOf? := by
  rw [voices, List.flatMap_map, flatMap_filter, List.flatMap_assoc]
  refine List.flatMap_congr fun u _ => List.flatMap_congr fun s _ => ?_
  by_cases hsilent : s.Silent
  · rw [if_neg (by simpa using hsilent), hsilent.notifications_eq_nil]
  · rw [if_pos (by simpa using hsilent)]

lemma publishersOf_congr (policy : ConflictPolicy) {useCases useCases' : List UseCase}
    (h : voices useCases = voices useCases') :
    publishersOf policy useCases = publishersOf policy useCases' := by
  rw [publishersOf, notifications_eq_voices, h, ← notifications_eq_voices, publishersOf]

/-- A silent scenario leaves no trace among the voices. -/
lemma voices_insert {s : Scenario} (h : s.Silent) (before after : List UseCase) (name : String)
    (front back : List Scenario) :
    voices (before ++ ⟨name, front ++ s :: back⟩ :: after)
      = voices (before ++ ⟨name, front ++ back⟩ :: after) := by
  simp [voices, h]

/-- **The first or the last action settles who publishes an event.**  The map of publishers holds
the events that actions publish, each at the place of its first action and with the domain that the
policy asks for.  A silent scenario may be inserted or removed anywhere, and use cases whose other
scenarios do the same in the same order have the same map, wherever silent ones stand. -/
theorem publishersOf_told (policy : ConflictPolicy) :
    (∀ useCases, TellsPublishers policy useCases (publishersOf policy useCases)) ∧
    (∀ (before after : List UseCase) (name : String) (front back : List Scenario) (s : Scenario),
      s.Silent →
        publishersOf policy (before ++ ⟨name, front ++ s :: back⟩ :: after)
          = publishersOf policy (before ++ ⟨name, front ++ back⟩ :: after)) ∧
    ∀ useCases useCases' : List UseCase, voices useCases = voices useCases' →
      publishersOf policy useCases = publishersOf policy useCases' := by
  refine ⟨tellsPublishers_publishersOf policy, ?silent, fun _ _ h => publishersOf_congr policy h⟩
  case silent =>
    intro before after name front back s h
    exact publishersOf_congr policy (voices_insert h before after name front back)

/-- The shop publishes an event. -/
def ordering : Scenario :=
  ⟨"scenario_1", .event "Start", [⟨"action_2", .notifies "Shop" "Placed"⟩]⟩

/-- The depot publishes the same event and another, and the shop the first one again. -/
def shipping : Scenario :=
  ⟨"scenario_3", .event "Noon",
    [⟨"action_4", .notifies "Depot" "Placed"⟩, ⟨"action_5", .notifies "Depot" "Sent"⟩,
      ⟨"action_6", .notifies "Shop" "Placed"⟩]⟩

/-- The clerk listens and publishes nothing. -/
def counting : Scenario :=
  ⟨"scenario_7", .listens "Clerk" "Sent", [⟨"action_8", .internal "Clerk" "counts" none ""⟩]⟩

example : (publishersOf .lastWins [⟨"Order", [ordering]⟩, ⟨"Ship", [shipping]⟩]).entries
    = [("Placed", "Shop"), ("Sent", "Depot")] := by
  decide

theorem publishersOf_told_counting :
    (counting.Silent ∧
      publishersOf .lastWins [⟨"Order", [ordering]⟩, ⟨"Ship", [shipping, counting]⟩]
        = publishersOf .lastWins [⟨"Order", [ordering]⟩, ⟨"Ship", [shipping]⟩]) ∧
    voices [⟨"Order", [ordering]⟩, ⟨"Ship", [shipping, counting]⟩]
        = voices [⟨"Order", [counting, ordering]⟩, ⟨"Ship", [shipping]⟩] ∧
      publishersOf .lastWins [⟨"Order", [ordering]⟩, ⟨"Ship", [shipping, counting]⟩]
        = publishersOf .lastWins [⟨"Order", [counting, ordering]⟩, ⟨"Ship", [shipping]⟩] := by
  have hsilent : counting.Silent := by decide
  have hvoices : voices [⟨"Order", [ordering]⟩, ⟨"Ship", [shipping, counting]⟩]
      = voices [⟨"Order", [counting, ordering]⟩, ⟨"Ship", [shipping]⟩] := by decide
  obtain ⟨_, hinsert, hmove⟩ := publishersOf_told .lastWins
  exact ⟨⟨hsilent, hinsert [⟨"Order", [ordering]⟩] [] "Ship" [shipping] [] counting hsilent⟩,
    hvoices, hmove _ _ hvoices⟩

end ArchLang
