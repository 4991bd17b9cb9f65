import ArchLang.Diagnostic
import ArchLang.Text.Blank
import ArchLang.Token

/-!
# From text to tokens

`scan` looks at the front of a text and says what stands there: a token with the characters it is
made of, or a fault with the characters read before it.  `lex` repeats that over a whole text; a
fault costs one character, and scanning goes on behind it, so that every fault of a text is found
in one pass.

* `scan` never loses a character: `lexeme_append_rest`.
* A token is made of at least one character, and a fault is left behind by dropping one, so `lex`
  ends: `length_next_lt`.
* `tokensOf` gives all tokens of a text, or all its faults.
-/

namespace ArchLang

/-! ## Classes of characters

Only ASCII letters and digits make words and numbers; every other letter is unexpected outside
strings and comments. -/

/-- A character that a word may start with. -/
def isNameStart (c : Char) : Bool := c.isAlpha || c == '_'

/-- A character that a word may go on with, hyphens apart. -/
def isNameChar (c : Char) : Bool := c.isAlphanum || c == '_'

/-! ## What stands at the front of a text -/

/-- Why no token could be read. -/
inductive Fault where
  | unterminatedString
  | invalidEscape
  | unexpectedCharacter
  deriving DecidableEq, Repr

/-- What stands at the front of a text.  `lexeme` holds the characters that were read, `rest` those
behind them. -/
inductive Scan where
  | token (token : Token) (lexeme rest : List Char)
  | fault (fault : Fault) (lexeme rest : List Char)
  deriving DecidableEq, Repr

namespace Scan

/-- The characters that were read. -/
def lexeme : Scan → List Char
  | token _ lexeme _ => lexeme
  | fault _ lexeme _ => lexeme

/-- The characters behind those that were read. -/
def rest : Scan → List Char
  | token _ _ rest => rest
  | fault _ _ rest => rest

/-- The text at which scanning goes on: behind a token, and one character further behind a
fault. -/
def next : Scan → List Char
  | token _ _ rest => rest
  | fault _ _ rest => rest.tail

end Scan

/-! ## String literals -/

/-- The character that a backslash and this letter stand for. -/
def unescape? : Char → Option Char
  | 'n' => some '\n'
  | 't' => some '\t'
  | 'r' => some '\r'
  | '\\' => some '\\'
  | '"' => some '"'
  | _ => none

/-- What stands behind an opening quote. -/
inductive StringBody where
  /-- the decoded text and the closing quote -/
  | closed (text lexeme rest : List Char)
  /-- the literal broke off, at a line break or at the end -/
  | broken (lexeme rest : List Char)
  /-- the lexeme ends with a backslash that escapes nothing -/
  | badEscape (lexeme rest : List Char)
  deriving DecidableEq, Repr

namespace StringBody

/-- A body with one more decoded character, spelled `spelling`, in front. -/
def push (decoded : Char) (spelling : List Char) : StringBody → StringBody
  | closed text lexeme rest => closed (decoded :: text) (spelling ++ lexeme) rest
  | broken lexeme rest => broken (spelling ++ lexeme) rest
  | badEscape lexeme rest => badEscape (spelling ++ lexeme) rest

/-- The characters that were read. -/
def lexeme : StringBody → List Char
  | closed _ lexeme _ => lexeme
  | broken lexeme _ => lexeme
  | badEscape lexeme _ => lexeme

/-- The characters behind those that were read. -/
def rest : StringBody → List Char
  | closed _ _ rest => rest
  | broken _ rest => rest
  | badEscape _ rest => rest

@[simp] theorem lexeme_push (d : Char) (sp : List Char) (b : StringBody) :
    (b.push d sp).lexeme = sp ++ b.lexeme := by
  cases b <;> rfl

@[simp] theorem rest_push (d : Char) (sp : List Char) (b : StringBody) :
    (b.push d sp).rest = b.rest := by
  cases b <;> rfl

end StringBody

/-- Read a string literal behind its opening quote.  A literal ends on its line. -/
def scanBody : List Char → StringBody
  | [] => .broken [] []
  | ['\\'] => .badEscape ['\\'] []
  | '\\' :: c :: cs =>
    match unescape? c with
    | some d => (scanBody cs).push d ['\\', c]
    | none => .badEscape ['\\'] (c :: cs)
  | c :: cs =>
    if c = '"' then .closed [] ['"'] cs
    else if c = '\n' ∨ c = '\r' then .broken [] (c :: cs)
    else (scanBody cs).push c [c]

/-- Reading a string literal keeps all characters. -/
theorem scanBody_append (cs : List Char) : (scanBody cs).lexeme ++ (scanBody cs).rest = cs := by
  fun_induction scanBody cs with
  | case1 => rfl
  | case2 => rfl
  | case3 c cs d _ ih => simp [ih]
  | case4 => rfl
  | case5 => simp_all [StringBody.lexeme, StringBody.rest]
  | case6 => simp [StringBody.lexeme, StringBody.rest]
  | case7 _ _ _ _ _ _ ih => simp [ih]

/-! ## Words and numbers -/

/-- The hyphenated tail of a word: any number of hyphens that each have a word character behind
them, with the word characters that follow. -/
def scanSegments : List Char → List Char × List Char
  | '-' :: c :: cs =>
    if isNameChar c then
      let word := cs.takeWhile isNameChar
      let tail := scanSegments (cs.dropWhile isNameChar)
      ('-' :: c :: word ++ tail.1, tail.2)
    else ([], '-' :: c :: cs)
  | cs => ([], cs)
termination_by cs => cs.length
decreasing_by
  exact Nat.lt_of_le_of_lt (List.dropWhile_sublist _).length_le
    (Nat.lt_succ_of_lt (Nat.lt_succ_self _))

/-- The rest of a word behind its first character. -/
def scanWordTail (cs : List Char) : List Char × List Char :=
  let tail := scanSegments (cs.dropWhile isNameChar)
  (cs.takeWhile isNameChar ++ tail.1, tail.2)

/-- A word is a keyword when it is spelled like one and no hyphen follows; otherwise it is an
identifier.  To try the literals of the keywords one after another comes to the same
(`scan_eq_wordByLiterals`). -/
def wordToken (word rest : List Char) : Token :=
  match Keyword.ofSpelling? (String.ofList word) with
  | some k => if rest.head? = some '-' then .identifier (String.ofList word) else .keyword k
  | none => .identifier (String.ofList word)

/-- The fraction behind the digits of a number: a point that has a digit behind it, and all
digits. -/
def scanFraction : List Char → List Char × List Char
  | '.' :: c :: cs =>
    if c.isDigit then ('.' :: c :: cs.takeWhile Char.isDigit, cs.dropWhile Char.isDigit)
    else ([], '.' :: c :: cs)
  | cs => ([], cs)

/-- A number or, with the sign behind it, a percentage. -/
def numberScan (digits : List Char) : List Char → Scan
  | '%' :: rest => .token (.percentage (String.ofList digits)) (digits ++ ['%']) rest
  | rest => .token (.number (String.ofList digits)) digits rest

/-! ## One token -/

/-- The token or fault at the front of the text `c :: cs`. -/
def scan (c : Char) (cs : List Char) : Scan :=
  if c = '/' then
    match cs with
    | '/' :: cs' =>
      .token (.lineComment (String.ofList (cs'.takeWhile (· ≠ '\n'))))
        ('/' :: '/' :: cs'.takeWhile (· ≠ '\n')) (cs'.dropWhile (· ≠ '\n'))
    | _ => .fault .unexpectedCharacter [] (c :: cs)
  else if c = '"' then
    match scanBody cs with
    | .closed text lexeme rest => .token (.stringLiteral (String.ofList text)) ('"' :: lexeme) rest
    | .broken lexeme rest => .fault .unterminatedString ('"' :: lexeme) rest
    | .badEscape lexeme rest => .fault .invalidEscape ('"' :: lexeme) rest
  else if c = '-' then
    match cs with
    | '>' :: cs' => .token (.mark .arrow) ['-', '>'] cs'
    | _ => .fault .unexpectedCharacter [] (c :: cs)
  else if isNameStart c then
    let tail := scanWordTail cs
    .token (wordToken (c :: tail.1) tail.2) (c :: tail.1) tail.2
  else if c.isDigit then
    let fraction := scanFraction (cs.dropWhile Char.isDigit)
    numberScan (c :: cs.takeWhile Char.isDigit ++ fraction.1) fraction.2
  else if c = '\n' then .token .newline ['\n'] cs
  else if isBlank c then
    .token .whitespace (c :: cs.takeWhile fun d => isBlank d && d ≠ '\n')
      (cs.dropWhile fun d => isBlank d && d ≠ '\n')
  else
    match Mark.ofChar? c with
    | some m => .token (.mark m) [c] cs
    | none => .fault .unexpectedCharacter [] (c :: cs)

theorem scanSegments_append (cs : List Char) :
    (scanSegments cs).1 ++ (scanSegments cs).2 = cs := by
  fun_induction scanSegments cs with
  | case1 c cs _ word tail ih =>
    simp only [tail, word, List.cons_append, List.append_assoc, ih,
      List.takeWhile_append_dropWhile]
  | case2 => rfl
  | case3 => rfl

theorem scanWordTail_append (cs : List Char) :
    (scanWordTail cs).1 ++ (scanWordTail cs).2 = cs := by
  simp [scanWordTail, scanSegments_append]

theorem scanFraction_append (cs : List Char) :
    (scanFraction cs).1 ++ (scanFraction cs).2 = cs := by
  unfold scanFraction
  split
  · split <;> simp
  · rfl

theorem numberScan_append (digits cs : List Char) :
    (numberScan digits cs).lexeme ++ (numberScan digits cs).rest = digits ++ cs := by
  unfold numberScan
  split <;> simp [Scan.lexeme, Scan.rest]

/-- Scanning keeps all characters: what was read and what is left make up the text. -/
theorem lexeme_append_rest (c : Char) (cs : List Char) :
    (scan c cs).lexeme ++ (scan c cs).rest = c :: cs := by
  have body := scanBody_append cs
  unfold scan
  split
  · split <;> simp_all [Scan.lexeme, Scan.rest]
  · split
    · split <;> simp_all [Scan.lexeme, Scan.rest, StringBody.lexeme, StringBody.rest]
    · split
      · split <;> simp_all [Scan.lexeme, Scan.rest]
      · split
        · simp [Scan.lexeme, Scan.rest, scanWordTail_append]
        · split
          · simp [numberScan_append, scanFraction_append]
          · split
            · simp_all [Scan.lexeme, Scan.rest]
            · split
              · simp [Scan.lexeme, Scan.rest]
              · split <;> simp [Scan.lexeme, Scan.rest]

/-- A token is made of at least one character. -/
theorem lexeme_ne_nil {c : Char} {cs lexeme rest : List Char} {t : Token}
    (h : scan c cs = .token t lexeme rest) : lexeme ≠ [] := by
  unfold scan numberScan at h
  grind

/-- Every step of the lexer leaves a shorter text. -/
theorem length_next_lt (c : Char) (cs : List Char) :
    (scan c cs).next.length < (c :: cs).length := by
  have whole := congrArg List.length (lexeme_append_rest c cs)
  cases h : scan c cs with
  | token t lexeme rest =>
    have := List.length_pos_iff.2 (lexeme_ne_nil h)
    simp only [h, Scan.lexeme, Scan.rest, Scan.next, List.length_append] at whole ⊢
    omega
  | fault f lexeme rest =>
    simp only [h, Scan.lexeme, Scan.rest, Scan.next, List.length_append, List.length_tail,
      List.length_cons] at whole ⊢
    omega

/-! ## A whole text -/

/-- The diagnostic of a fault that was met at `position`, in a token that starts at `start`. -/
def Fault.diagnostic (start position : Nat) : Fault → Diagnostic
  | .unterminatedString =>
    ((Diagnostic.error "unterminated string literal").setCode .unterminatedString
      |>.addLabel (.between start position) DiagnosticCode.unterminatedString.description).setHelp
      "add closing `\"` before the end of the line"
  | .invalidEscape =>
    -- the label covers the backslash, the last character that was read
    ((Diagnostic.error "invalid escape sequence").setCode .invalidEscape
      |>.addLabel (.between (position - 1) position)
        DiagnosticCode.invalidEscape.description).setHelp
      "valid escapes: `\\n`, `\\t`, `\\r`, `\\\\`, `\\\"`"
  | .unexpectedCharacter =>
    (Diagnostic.error "unexpected character").setCode .unexpectedCharacter
      |>.addLabel (.between position (position + 1)) DiagnosticCode.unexpectedCharacter.description

/-- The tokens and faults of a text whose first byte has the offset `start`, in order. -/
def lex (start : Nat) : List Char → List (Except Diagnostic (Located Token))
  | [] => []
  | c :: cs =>
    let position := start + byteLength (scan c cs).lexeme
    let item := match scan c cs with
      | .token t _ _ => .ok ⟨t, .between start position⟩
      | .fault f _ _ => .error (f.diagnostic start position)
    let behind := match scan c cs with
      | .token .. => position
      | .fault _ _ rest => position + byteLength (rest.take 1)
    item :: lex behind (scan c cs).next
termination_by cs => cs.length
decreasing_by exact length_next_lt c cs

/-- The tokens among the results of the lexer. -/
def lexedTokens : List (Except Diagnostic (Located Token)) → List (Located Token)
  | [] => []
  | .ok t :: rest => t :: lexedTokens rest
  | .error _ :: rest => lexedTokens rest

/-- The faults among the results of the lexer. -/
def lexedFaults : List (Except Diagnostic (Located Token)) → List Diagnostic
  | [] => []
  | .ok _ :: rest => lexedFaults rest
  | .error d :: rest => d :: lexedFaults rest

/-- All tokens of a source text, or all its lexical faults. -/
def tokensOf (source : String) : Except Rejection (List (Located Token)) :=
  let items := lex 0 source.toList
  match Rejection.check (lexedFaults items) with
  | .error e => .error e
  | .ok () => .ok (lexedTokens items)

end ArchLang
