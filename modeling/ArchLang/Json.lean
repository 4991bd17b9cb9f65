/-!
# JSON values and their text

The part of JSON that the export of a model needs: null, strings, arrays, and objects whose members
keep their order.

* `Json.escape` is the text of a string without its quotes.  A character below U+0020 without a
  short escape is written with four lower-case hexadecimal digits, and every other character as it
  is, quote and backslash apart.
* `Json.compact` writes a value without any blank.
* `Json.indented` writes one member or element a line, two spaces deeper than what holds it; an
  empty array or object stays on one line.
-/

namespace ArchLang

/-- A JSON value. -/
inductive Json where
  | null
  | str (text : String)
  | arr (elements : List Json)
  | obj (members : List (String × Json))
  deriving Repr

namespace Json

/-! ## Strings -/

/-- The hexadecimal digit of a number below 16. -/
def hexDigit (n : Nat) : Char := if n < 10 then Char.ofNat (48 + n) else Char.ofNat (87 + n)

/-- A character inside a string. -/
def escapeChar (c : Char) : List Char :=
  if c = '"' then ['\\', '"']
  else if c = '\\' then ['\\', '\\']
  else if c = '\n' then ['\\', 'n']
  else if c = '\r' then ['\\', 'r']
  else if c = '\t' then ['\\', 't']
  else if c = '\x08' then ['\\', 'b']
  else if c = '\x0c' then ['\\', 'f']
  else if c.toNat < 0x20 then
    ['\\', 'u', '0', '0', hexDigit (c.toNat / 16), hexDigit (c.toNat % 16)]
  else [c]

/-- The characters between the quotes of a string. -/
def escape (text : List Char) : List Char := text.flatMap escapeChar

/-- A string with its quotes. -/
def quoted (text : String) : List Char := '"' :: escape text.toList ++ ['"']

/-! ## Without blanks -/

mutual

/-- A value without any blank. -/
def compact : Json → List Char
  | null => ['n', 'u', 'l', 'l']
  | str text => quoted text
  | arr elements => '[' :: compactElements elements ++ [']']
  | obj members => '{' :: compactMembers members ++ ['}']

/-- Elements with commas between them. -/
def compactElements : List Json → List Char
  | [] => []
  | [v] => compact v
  | v :: rest => compact v ++ ',' :: compactElements rest

/-- Members with commas between them. -/
def compactMembers : List (String × Json) → List Char
  | [] => []
  | [(k, v)] => quoted k ++ ':' :: compact v
  | (k, v) :: rest => quoted k ++ ':' :: compact v ++ ',' :: compactMembers rest

end

/-! ## One member a line -/

/-- A line break and the blanks of a depth. -/
def lineBreak (depth : Nat) : List Char := '\n' :: List.replicate (2 * depth) ' '

mutual

/-- A value at a depth, one member or element a line. -/
def indented (depth : Nat) : Json → List Char
  | null => ['n', 'u', 'l', 'l']
  | str text => quoted text
  | arr [] => ['[', ']']
  | arr (v :: rest) => '[' :: indentedElements (depth + 1) (v :: rest) ++ lineBreak depth ++ [']']
  | obj [] => ['{', '}']
  | obj (m :: rest) => '{' :: indentedMembers (depth + 1) (m :: rest) ++ lineBreak depth ++ ['}']

/-- Elements, each on its own line. -/
def indentedElements (depth : Nat) : List Json → List Char
  | [] => []
  | [v] => lineBreak depth ++ indented depth v
  | v :: rest => lineBreak depth ++ indented depth v ++ ',' :: indentedElements depth rest

/-- Members, each on its own line. -/
def indentedMembers (depth : Nat) : List (String × Json) → List Char
  | [] => []
  | [(k, v)] => lineBreak depth ++ quoted k ++ ':' :: ' ' :: indented depth v
  | (k, v) :: rest =>
    lineBreak depth ++ quoted k ++ ':' :: ' ' :: indented depth v ++
      ',' :: indentedMembers depth rest

end

/-- The text of a value, one member a line or without blanks. -/
def render (pretty : Bool) (v : Json) : String :=
  String.ofList (if pretty then indented 0 v else compact v)

/-- An array of strings. -/
def strings (texts : List String) : Json := arr (texts.map str)

/-- A string, or null when there is none. -/
def nullable : Option String → Json
  | some text => str text
  | none => null

/-- A member that is left out when it has no value. -/
def optionalMember (key : String) : Option String → List (String × Json)
  | some text => [(key, str text)]
  | none => []

end Json

end ArchLang
