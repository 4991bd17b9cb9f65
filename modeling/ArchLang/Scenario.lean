import ArchLang.Text.Joining

/-!
# Triggers and actions

What a line of a scenario says.  Both types leave open what a phrase is: a list of words as it is
read from a line, or the text those words make up once it is part of a model.

* `Trigger` and `Action` are the forms of a line.
* `Trigger.mapPhrase` and `Action.mapPhrase` change the phrase and nothing else.
* `Trigger.description` and `Action.description` tell a line again as text.
-/

namespace ArchLang

/-- What starts a scenario. -/
inductive Trigger (π : Type) where
  /-- an actor outside the system does something -/
  | external (actor verb : String) (phrase : π)
  /-- an event that nobody of the model needs to publish -/
  | event (event : String)
  /-- a domain waits for an event that some domain publishes -/
  | listens (domain event : String)
  deriving DecidableEq, Repr

/-- One step of a scenario. -/
inductive Action (π : Type) where
  /-- a domain works on its own -/
  | internal (domain verb : String) (connector : Option String) (phrase : π)
  /-- a domain calls another and waits for its answer -/
  | asks (domain target : String) (connector : Option String) (phrase : π)
  /-- a domain publishes an event -/
  | notifies (domain event : String)
  /-- a domain answers: the target if there is one, otherwise whoever waits -/
  | returns (domain : String) (target : Option String) (phrase : π)
  deriving DecidableEq, Repr

namespace Trigger

variable {π ρ : Type}

/-- The same trigger with another phrase. -/
def mapPhrase (f : π → ρ) : Trigger π → Trigger ρ
  | external actor verb phrase => external actor verb (f phrase)
  | event e => event e
  | listens domain e => listens domain e

/-- The event that the trigger waits for. -/
def event? : Trigger π → Option String
  | external .. => none
  | event e => some e
  | listens _ e => some e

/-- The trigger as text. -/
def description : Trigger String → String
  | external actor verb phrase => "when " ++ joinParts [actor, verb, phrase]
  | event e => "when \"" ++ e ++ "\""
  | listens domain e => "when " ++ domain ++ " listens \"" ++ e ++ "\""

end Trigger

namespace Action

variable {π ρ : Type}

/-- The same action with another phrase. -/
def mapPhrase (f : π → ρ) : Action π → Action ρ
  | internal domain verb connector phrase => internal domain verb connector (f phrase)
  | asks domain target connector phrase => asks domain target connector (f phrase)
  | notifies domain e => notifies domain e
  | returns domain target phrase => returns domain target (f phrase)

/-- The domain that acts. -/
def domain : Action π → String
  | internal d _ _ _ | asks d _ _ _ | notifies d _ | returns d _ _ => d

/-- The action as text. -/
def description : Action String → String
  | internal domain verb connector phrase =>
    joinParts [domain, verb, connector.getD "", phrase]
  | asks domain target connector phrase =>
    joinParts [domain, "asks", target, connector.getD "", phrase]
  | notifies domain e => domain ++ " notifies \"" ++ e ++ "\""
  | returns domain target phrase =>
    match target with
    | some t => joinParts [domain, "returns", phrase] ++ " to " ++ t
    | none => joinParts [domain, "returns", phrase]

end Action

end ArchLang
