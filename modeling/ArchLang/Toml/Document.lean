import ArchLang.Toml.Scalar

/-!
# Reading TOML documents

A document is a list of statements, each on its own line: headers in brackets, and keys with their
values.  `Toml.parse` reads a text and fills the table of the document, statement by statement; it
gives no answer for a text that is no document.

The readers take some fuel, which `parse` computes from the length of the text; every step of a
reader that spends fuel has used up a character before.
-/

namespace ArchLang

namespace Toml

/-! ## Blanks -/

/-- The characters behind blanks on one line. -/
def skipBlanks (cs : List Char) : List Char := cs.dropWhile fun c => c = ' ' || c = '\t'

/-- The characters behind blanks, line ends and comments.  `inComment` holds between a hash sign and
its line end. -/
def skipTrivia (inComment : Bool) : List Char → Option (List Char)
  | [] => some []
  | '\n' :: rest => skipTrivia false rest
  | '\r' :: '\n' :: rest => skipTrivia false rest
  | c :: rest =>
    if inComment then if isTextChar c then skipTrivia true rest else none
    else if c = ' ' || c = '\t' then skipTrivia false rest
    else if c = '#' then skipTrivia true rest
    else some (c :: rest)

/-- The characters of the next line, when nothing but blanks and a comment is left of this one. -/
def lineEnd? (inComment : Bool) : List Char → Option (List Char)
  | [] => some []
  | '\n' :: rest => some rest
  | '\r' :: '\n' :: rest => some rest
  | c :: rest =>
    if inComment then if isTextChar c then lineEnd? true rest else none
    else if c = ' ' || c = '\t' then lineEnd? false rest
    else if c = '#' then lineEnd? true rest
    else none

/-! ## Keys -/

/-- A character of a key without quotes. -/
def isKeyChar (c : Char) : Bool := c.isAlphanum || c = '_' || c = '-'

/-- Read one part of a key. -/
def keyPart? : List Char → Option (String × List Char)
  | '"' :: rest => (basicBody rest).map fun r => (String.ofList r.1, r.2)
  | '\'' :: rest => (literalBody rest).map fun r => (String.ofList r.1, r.2)
  | cs =>
    match cs.takeWhile isKeyChar with
    | [] => none
    | word => some (String.ofList word, cs.dropWhile isKeyChar)

/-- How many parts a key may have. -/
def keyLimit : Nat := 80

/-- Read a key of at most `room` parts with points between them.  Blanks behind it are passed
over. -/
def keyParts? : Nat → List Char → Option (List String × List Char)
  | 0, _ => none
  | room + 1, cs => do
    let (part, cs) ← keyPart? (skipBlanks cs)
    match skipBlanks cs with
    | '.' :: rest => (keyParts? room rest).map fun r => (part :: r.1, r.2)
    | rest => pure ([part], rest)

/-- Read a key. -/
def key? : List Char → Option (List String × List Char) := keyParts? keyLimit

/-! ## Values -/

/-- A character of a word without quotes. -/
def isBareChar (c : Char) : Bool := isKeyChar c || c = '+' || c = '.' || c = ':'

/-- Read a word without quotes.  A blank belongs to it when it stands between a date and a time. -/
def word (cs : List Char) : List Char × List Char :=
  let first := cs.takeWhile isBareChar
  match cs.dropWhile isBareChar with
  | ' ' :: c :: rest =>
    if (date? first == some []) && c.isDigit then
      (first ++ ' ' :: (c :: rest).takeWhile isBareChar, (c :: rest).dropWhile isBareChar)
    else (first, ' ' :: c :: rest)
  | rest => (first, rest)

/-- How many arrays and tables in braces may stand inside one another. -/
def nestingLimit : Nat := 80

mutual

/-- Read a value in which `room` more arrays and tables in braces may be nested. -/
def value? : Nat → Nat → List Char → Option (Value × List Char)
  | 0, _, _ => none
  | fuel + 1, room, cs =>
    match cs with
    | '[' :: rest =>
      if room = 0 then none
      else (elements? fuel (room - 1) rest).map fun r => (.array r.1, r.2)
    | '{' :: rest =>
      if room = 0 then none
      else (members? fuel (room - 1) [] rest).map fun r => (.table .inline r.1, r.2)
    | '"' :: _ => (string? cs).map fun r => (.string (String.ofList r.1), r.2)
    | '\'' :: _ => (string? cs).map fun r => (.string (String.ofList r.1), r.2)
    | _ => (bare? (word cs).1).map fun v => (v, (word cs).2)

/-- Read the elements of an array, behind its bracket or a comma, and the closing bracket. -/
def elements? : Nat → Nat → List Char → Option (List Value × List Char)
  | 0, _, _ => none
  | fuel + 1, room, cs => do
    match ← skipTrivia false cs with
    | ']' :: rest => pure ([], rest)
    | cs =>
      let (v, cs) ← value? fuel room cs
      match ← skipTrivia false cs with
      | ',' :: rest => (elements? fuel room rest).map fun r => (v :: r.1, r.2)
      | ']' :: rest => pure ([v], rest)
      | _ => none

/-- Read the members of a table in braces, behind its brace or a comma, and the closing brace.
Lines may end anywhere in it, except inside a key. -/
def members? : Nat → Nat → Entries → List Char → Option (Entries × List Char)
  | 0, _, _, _ => none
  | fuel + 1, room, entries, cs => do
    match ← skipTrivia false cs with
    | '}' :: rest => pure (entries, rest)
    | cs =>
      let (key, cs) ← key? cs
      let cs ← sign? '=' (← skipTrivia false cs)
      let (v, cs) ← value? fuel room (← skipTrivia false cs)
      let entries ← assign v key entries
      match ← skipTrivia false cs with
      | ',' :: rest => members? fuel room entries rest
      | '}' :: rest => pure (entries, rest)
      | _ => none

end

/-! ## Statements -/

/-- A line of a document that says something. -/
inductive Statement where
  | table (path : List String)
  | element (path : List String)
  | entry (key : List String) (value : Value)

/-- Read the statement at the front of a line, up to the next line. -/
def statement? (fuel : Nat) : List Char → Option (Statement × List Char)
  | '[' :: '[' :: rest => do
    let (path, cs) ← key? rest
    let cs ← sign? ']' cs
    let cs ← sign? ']' cs
    let cs ← lineEnd? false cs
    pure (.element path, cs)
  | '[' :: rest => do
    let (path, cs) ← key? rest
    let cs ← sign? ']' cs
    let cs ← lineEnd? false cs
    pure (.table path, cs)
  | cs => do
    let (key, cs) ← key? cs
    let cs ← sign? '=' cs
    let (v, cs) ← value? fuel nestingLimit (skipBlanks cs)
    let cs ← lineEnd? false cs
    pure (.entry key v, cs)

/-- Read the statements of a document. -/
def statements? : Nat → List Char → Option (List Statement)
  | 0, _ => none
  | fuel + 1, cs => do
    match ← skipTrivia false cs with
    | [] => pure []
    | cs =>
      let (s, cs) ← statement? fuel cs
      (statements? fuel cs).map (s :: ·)

/-- Fill a document, statement by statement.  `path` is where the last header leads. -/
def fill (path : List String) (entries : Entries) : List Statement → Option Entries
  | [] => some entries
  | .table path' :: rest => (openTable path' entries).bind fun entries => fill path' entries rest
  | .element path' :: rest => (openArray path' entries).bind fun entries => fill path' entries rest
  | .entry key v :: rest =>
    (within (assign v key) path entries).bind fun entries => fill path entries rest

/-- The table of a document.  A byte order mark may stand in front. -/
def parse (text : String) : Option Entries :=
  let cs := match text.toList with
    | '\uFEFF' :: rest => rest
    | cs => cs
  (statements? (cs.length + 1) cs).bind (fill [] [])

end Toml

end ArchLang
