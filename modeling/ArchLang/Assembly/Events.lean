import ArchLang.Assembly.Flows
import ArchLang.Policy

/-!
# Listeners and publishers

A scenario may listen to an event that another scenario publishes, before or after it in the source
and in any use case.  The whole program is read for publishers first; then every listener is linked
to the publisher of its event, and its flow gets one more edge in front.  Listeners of an event that
nobody publishes get nothing.

* `publishersOf` maps each event to its publisher; a policy settles events of several domains.
* `subscriptionsOf` pairs listeners with publishers.
* `Flow.withListener` adds the edge of a subscription to the flow of its scenario.
-/

namespace ArchLang

/-- The event that an action publishes, and the domain that does. -/
def notificationOf? {π : Type} : Action π → Option (String × String)
  | .notifies domain event => some (event, domain)
  | _ => none

/-- All notifications of a program, in source order. -/
def notifications (useCases : List UseCase) : List (String × String) :=
  useCases.flatMap fun u => u.scenarios.flatMap fun s => s.actions.filterMap notificationOf?

/-- The publisher of each event, in the order in which events are first published. -/
def publishersOf (policy : ConflictPolicy) (useCases : List UseCase) :
    OrderedMap String String :=
  OrderedMap.gather policy.choose (notifications useCases)

/-- The subscription of a scenario, if it listens to an event that is published. -/
def subscriptionOf? (publishers : OrderedMap String String) (useCase : String) (s : Scenario) :
    Option Subscription :=
  match s.trigger with
  | .listens domain event =>
    (publishers.get? event).map fun publisher => ⟨event, publisher, domain, useCase, s.id⟩
  | _ => none

/-- The subscriptions of a program, in the order of the listeners. -/
def subscriptionsOf (publishers : OrderedMap String String) (useCases : List UseCase) :
    List Subscription :=
  useCases.flatMap fun u => u.scenarios.filterMap (subscriptionOf? publishers u.name)

/-- The edge of a subscription: from the channel of the publisher to the listener. -/
def Subscription.edge (s : Subscription) : Edge :=
  ⟨.channel s.publisher, .domain s.listener, s.event, .listen⟩

/-- The flow with the edge of its subscription in front, if its scenario has one. -/
def Flow.withListener (subscriptions : List Subscription) (f : Flow) : Flow :=
  match subscriptions.find? fun s => s.scenarioId = f.scenarioId with
  | some s => f.prepend s.edge
  | none => f

end ArchLang
