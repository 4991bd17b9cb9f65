import ArchLang.Scenario

/-!
# The words of a line

A trigger or an action is one line of words.  This file says what the words mean; how they are
read is in `ArchLang.Grammar.UseCase`.

A word is plain or quoted.  Only plain words can be a subject, a verb or a connector, and only a
quoted word can be an event.  Inside a phrase a quoted word keeps its quotes.

* `triggerOf` and `actionOf` find the form of a line, if it has one.
* `isConnector` holds of the small words that may introduce a phrase.
-/

namespace ArchLang

namespace Grammar

/-- A word of a line. -/
inductive Word where
  | plain (text : String)
  | quoted (text : String)
  deriving DecidableEq, Repr

/-- A word as a part of a phrase. -/
def Word.inPhrase : Word → String
  | plain text => text
  | quoted text => "\"" ++ text ++ "\""

/-- The words that may stand between a verb, or the target of a call, and the phrase. -/
def connectors : List String :=
  ["a", "an", "the", "to", "with", "from", "in", "on", "at", "for", "by", "as", "of", "into"]

/-- Whether a text is a connector; the case of ASCII letters does not matter. -/
def isConnector (text : String) : Bool :=
  connectors.contains (String.ofList (text.toList.map Char.toLower))

/-- The words of a phrase. -/
def phrase (words : List Word) : List String := words.map Word.inPhrase

/-- A leading connector, if there is one, and the phrase behind it. -/
def splitConnector : List Word → Option String × List String
  | .plain first :: rest =>
    if isConnector first then (some first, phrase rest) else (none, phrase (.plain first :: rest))
  | words => (none, phrase words)

/-- The trigger that the words behind `when` stand for. -/
def triggerOf : List Word → Option (Trigger (List String))
  | [.quoted event] => some (.event event)
  | [.plain subject, .plain verb, .quoted event] =>
    if verb = "listens" then some (.listens subject event)
    else some (.external subject verb (phrase [.quoted event]))
  | .plain actor :: .plain verb :: rest => some (.external actor verb (phrase rest))
  | _ => none

/-- What a domain does when the verb is none of the three that the language knows. -/
def internalOf (domain verb : String) (rest : List Word) : Action (List String) :=
  .internal domain verb (splitConnector rest).1 (splitConnector rest).2

/-- A call needs a plain target. -/
def asksOf (domain : String) : List Word → Option (Action (List String))
  | .plain target :: rest =>
    some (.asks domain target (splitConnector rest).1 (splitConnector rest).2)
  | _ => none

/-- A notification is one quoted event and nothing else. -/
def notifiesOf (domain : String) : List Word → Option (Action (List String))
  | [.quoted event] => some (.notifies domain event)
  | _ => none

/-- An answer has a target exactly when `to` and a plain word follow. -/
def returnsOf (domain : String) : List Word → Action (List String)
  | .plain first :: .plain second :: rest =>
    if first = "to" then .returns domain (some second) (phrase rest)
    else .returns domain none (phrase (.plain first :: .plain second :: rest))
  | rest => .returns domain none (phrase rest)

/-- The action that the words of a line stand for. -/
def actionOf : List Word → Option (Action (List String))
  | .plain domain :: .plain verb :: rest =>
    if verb = "asks" then asksOf domain rest
    else if verb = "notifies" then notifiesOf domain rest
    else if verb = "returns" then some (returnsOf domain rest)
    else some (internalOf domain verb rest)
  | _ => none

end Grammar

end ArchLang
