import ArchLang.Token

/-!
# What a reader was looking for

A failed attempt at reading says what would have fitted.  `Expected` lists the possible answers,
and `Expected.text` words them; a message names them from the innermost construct outwards.
-/

namespace ArchLang

/-- What would have fitted at a place of the token list. -/
inductive Expected where
  | mark (m : Mark)
  | keyword (k : Keyword)
  | newline
  | name
  | identifier
  | nameList
  | actorKind
  | percentage
  | serviceProperty
  | knownServiceProperty
  | knownExposureField
  | modifierValue
  | component
  | knownArchSection
  | word
  | endOfLine
  | triggerForm
  | actionForm
  | declaration
  deriving DecidableEq, Repr

/-- The wording in a message. -/
def Expected.text : Expected → String
  | mark m => "`" ++ m.spelling ++ "`"
  | keyword k => "`" ++ k.spelling ++ "`"
  | newline => "newline"
  | name => "name"
  | identifier => "identifier"
  | nameList => "name list"
  | actorKind => "actor kind"
  | percentage => "percentage"
  | serviceProperty => "service property"
  | knownServiceProperty => "service property `domains`, `data-stores`, `language`, or `deployment`"
  | knownExposureField => "exposure field `to`, `of`, or `through`"
  | modifierValue => "modifier value"
  | component => "component"
  | knownArchSection => "arch section `presentation` or `gateway`"
  | word => "word"
  | endOfLine => "end of line"
  | triggerForm =>
    "trigger `<actor> <verb> ...`, `\"<event>\"`, or `<domain> listens \"<event>\"`"
  | actionForm => "action `<domain> asks|notifies|returns|<verb> ...`"
  | declaration => "declaration"

end ArchLang
