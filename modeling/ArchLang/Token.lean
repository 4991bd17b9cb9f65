/-!
# Tokens

The words of the language.  White space, line ends and comments are tokens too, because a line end
closes a trigger or an action inside a use case.

* `Keyword` and `Mark` enumerate the reserved words and the punctuation, each with its spelling.
* `Token.display` writes a token for a message.
* `Token.isTrivia` holds of white space, line ends and comments.
* `Keyword.ofSpelling?_spelling` says that a spelling determines its keyword.
-/

namespace ArchLang

/-- The reserved words. -/
inductive Keyword where
  | actors | actor | domains | domain | services | service | exposure | arch | useCase | when
  | dataStores
  deriving DecidableEq, Repr

namespace Keyword

/-- The word as it is written. -/
def spelling : Keyword → String
  | actors => "actors"
  | actor => "actor"
  | domains => "domains"
  | domain => "domain"
  | services => "services"
  | service => "service"
  | exposure => "exposure"
  | arch => "arch"
  | useCase => "use_case"
  | when => "when"
  | dataStores => "data-stores"

/-- All reserved words. -/
def all : List Keyword :=
  [actors, actor, domains, domain, services, service, exposure, arch, useCase, when, dataStores]

/-- The reserved word with this spelling. -/
def ofSpelling? (text : String) : Option Keyword := all.find? fun k => k.spelling = text

theorem ofSpelling?_spelling (k : Keyword) : ofSpelling? k.spelling = some k := by
  cases k <;> decide

theorem spelling_of_ofSpelling? {text : String} {k : Keyword} (h : ofSpelling? text = some k) :
    k.spelling = text := by
  simpa using List.find?_some h

end Keyword

/-- The punctuation, the two-character arrow included. -/
inductive Mark where
  | arrow | greater | colon | leftBrace | rightBrace | leftBracket | rightBracket | leftParen
  | rightParen | comma
  deriving DecidableEq, Repr

namespace Mark

/-- The mark as it is written. -/
def spelling : Mark → String
  | arrow => "->"
  | greater => ">"
  | colon => ":"
  | leftBrace => "\x7b"
  | rightBrace => "\x7d"
  | leftBracket => "["
  | rightBracket => "]"
  | leftParen => "("
  | rightParen => ")"
  | comma => ","

/-- The mark that is this single character. -/
def ofChar? : Char → Option Mark
  | '>' => some greater
  | ':' => some colon
  | '{' => some leftBrace
  | '}' => some rightBrace
  | '[' => some leftBracket
  | ']' => some rightBracket
  | '(' => some leftParen
  | ')' => some rightParen
  | ',' => some comma
  | _ => none

end Mark

/-- A word of the language. -/
inductive Token where
  | keyword (k : Keyword)
  | mark (m : Mark)
  /-- a string literal, its escapes decoded -/
  | stringLiteral (text : String)
  /-- the digits of a percentage, without the sign -/
  | percentage (digits : String)
  | number (digits : String)
  | identifier (name : String)
  /-- a comment up to its line end, without the two slashes -/
  | lineComment (text : String)
  | whitespace
  | newline
  deriving DecidableEq, Repr

namespace Token

/-- White space, line ends and comments. -/
def isTrivia : Token → Bool
  | lineComment _ | whitespace | newline => true
  | _ => false

/-- Trivia that does not end a line. -/
def isInlineTrivia : Token → Bool
  | lineComment _ | whitespace => true
  | _ => false

/-- A token as a message shows it. -/
def display : Token → String
  | keyword k => k.spelling
  | mark m => m.spelling
  | stringLiteral text => "\"" ++ text ++ "\""
  | percentage digits => digits ++ "%"
  | number digits => digits
  | identifier name => name
  | lineComment text => "//" ++ text
  | whitespace => " "
  | newline => "\\n"

end Token

end ArchLang
