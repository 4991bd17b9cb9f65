import ArchLang.Declaration
import ArchLang.Grammar.Parser

/-!
# The smallest readers

Marks, keywords and names, the trivia between them, and the two shapes that most constructs have:
a comma-separated list and a braced body.

White space, line ends and comments may stand between any two tokens and mean nothing, except
inside a use case, where a line end closes a line: there `blanks` stops at it.

* `mark`, `keyword`, `anyName`, `bareName` read one token.
* `gap` passes over trivia, `gap1` insists on some, `blanks` stays on the line.
* `names` allows one comma behind its last name.
* `block` reads items up to the closing brace, with trivia between them.
-/

namespace ArchLang

namespace Grammar

open ArchLang.Parser

variable {α : Type}

/-! ## Single tokens -/

/-- Read one token of a fixed kind; the result is its place. -/
def exactly (what : Expected) (kind : Token → Bool) : Parser Span := do
  let t ← label what (token fun t => if kind t then some () else none)
  pure t.span

/-- Read a punctuation mark. -/
def mark (m : Mark) : Parser Span := exactly (.mark m) (· = .mark m)

/-- Read a reserved word. -/
def keyword (k : Keyword) : Parser Span := exactly (.keyword k) (· = .keyword k)

/-- Read a line end. -/
def lineBreak : Parser Span := exactly .newline (· = .newline)

/-- The text of a name: a bare identifier or a quoted string. -/
def nameOf : Token → Option String
  | .identifier name => some name
  | .stringLiteral text => some text
  | _ => none

/-- The text of a bare identifier. -/
def identifierOf : Token → Option String
  | .identifier name => some name
  | _ => none

/-- Read a bare identifier or a quoted string. -/
def anyName : Parser Text := label .name (token nameOf)

/-- Read a bare identifier. -/
def bareName : Parser Text := label .identifier (token identifierOf)

/-! ## Trivia -/

/-- Pass over white space, line ends and comments. -/
def gap : Parser Unit := skip Token.isTrivia

/-- Pass over white space, line ends and comments, of which there must be some. -/
def gap1 : Parser Unit := do
  let _ ← token fun t => if t.isTrivia then some () else none
  gap

/-- Pass over white space and comments, without leaving the line. -/
def blanks : Parser Unit := skip Token.isInlineTrivia

/-- Read a mark with trivia around it. -/
def around (m : Mark) : Parser Unit := do
  gap
  let _ ← mark m
  gap

instance (what : Expected) (kind : Token → Bool) : Consumes (exactly what kind) := by
  unfold exactly; infer_instance

instance (m : Mark) : Consumes (mark m) := by unfold mark; infer_instance

instance (k : Keyword) : Consumes (keyword k) := by unfold keyword; infer_instance

instance : Consumes lineBreak := by unfold lineBreak; infer_instance

instance : Consumes anyName := by unfold anyName; infer_instance

instance : Consumes bareName := by unfold bareName; infer_instance

instance : Keeps gap := by unfold gap; infer_instance

instance : Consumes gap1 := by unfold gap1; infer_instance

instance : Keeps blanks := by unfold blanks; infer_instance

instance (m : Mark) : Consumes (around m) := by unfold around; infer_instance

/-! ## Lists and bodies -/

/-- Read the comma between two members of a list. -/
def listComma : Parser Unit := around .comma

instance : Consumes listComma := by unfold listComma; infer_instance

/-- Read names with commas between them; one comma may follow the last name. -/
def names : Parser (List Text) := do
  let found ← label .nameList (separated anyName listComma)
  let _ ← optional (gap >>= fun _ => mark .comma)
  pure found

/-- Read `{ item item … }`; the result has the items and the span from brace to brace. -/
def block (item : Parser α) [Consumes item] : Parser (List α × Span) := do
  let opening ← mark .leftBrace
  let body ← manyUntil Token.isTrivia (mark .rightBrace) item
  pure (body.1, opening.union body.2)

instance : Consumes names := by unfold names; infer_instance

instance (item : Parser α) [Consumes item] : Consumes (block item) := by
  unfold block; infer_instance

end Grammar

end ArchLang
