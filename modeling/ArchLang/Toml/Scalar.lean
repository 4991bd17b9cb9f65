import ArchLang.Toml.Value

/-!
# TOML scalars

Strings in their four forms, numbers, booleans and dates.  Each reader takes the characters from
where the scalar starts, or, for a word without quotes, all characters of the word.

* `basicBody`, `literalBody`, `multilineBasicBody`, `multilineLiteralBody` read behind opening
  quotes and give back the text and the characters behind the closing quotes.
* `bare?` reads a word: a boolean, a number or a date.
-/

namespace ArchLang

namespace Toml

/-! ## Characters -/

/-- A character that may stand in a comment or on a line of a string: no control character, a tab
apart. -/
def isTextChar (c : Char) : Bool := c = '\t' || (0x20 ≤ c.toNat && c.toNat ≠ 0x7f)

/-- The value of a hexadecimal digit. -/
def hexValue? (c : Char) : Option Nat :=
  if c.isDigit then some (c.toNat - 48)
  else if 'a' ≤ c && c ≤ 'f' then some (c.toNat - 87)
  else if 'A' ≤ c && c ≤ 'F' then some (c.toNat - 55)
  else none

/-- The number that hexadecimal digits stand for. -/
def hexNumber? (digits : List Char) : Option Nat :=
  digits.foldl (fun n c => n.bind fun n => (hexValue? c).map fun d => 16 * n + d) (some 0)

/-- The character with the number that hexadecimal digits stand for, if there is one. -/
def hexChar? (digits : List Char) : Option Char :=
  (hexNumber? digits).bind fun n => if h : n.isValidChar then some (Char.ofNatAux n h) else none

/-- The character behind a backslash, for the escapes of one letter. -/
def escaped? : Char → Option Char
  | 'b' => some '\x08'
  | 't' => some '\t'
  | 'n' => some '\n'
  | 'f' => some '\x0c'
  | 'r' => some '\r'
  | 'e' => some '\x1b'
  | '"' => some '"'
  | '\\' => some '\\'
  | _ => none

/-! ## Strings -/

/-- A text and the characters behind it. -/
abbrev Read := Option (List Char × List Char)

/-- One more character in front of a text that was read. -/
def Read.push (c : Option Char) (r : Read) : Read :=
  c.bind fun c => r.map fun r => (c :: r.1, r.2)

/-- Read behind a double quote. -/
def basicBody : List Char → Read
  | [] => none
  | '"' :: rest => some ([], rest)
  | '\\' :: 'x' :: a :: b :: rest => Read.push (hexChar? [a, b]) (basicBody rest)
  | '\\' :: 'u' :: a :: b :: c :: d :: rest => Read.push (hexChar? [a, b, c, d]) (basicBody rest)
  | '\\' :: 'U' :: a :: b :: c :: d :: e :: f :: g :: h :: rest =>
    Read.push (hexChar? [a, b, c, d, e, f, g, h]) (basicBody rest)
  | '\\' :: c :: rest => Read.push (escaped? c) (basicBody rest)
  | c :: rest =>
    if isTextChar c && c ≠ '\\' then Read.push (some c) (basicBody rest) else none

/-- Read behind a single quote. -/
def literalBody : List Char → Read
  | [] => none
  | '\'' :: rest => some ([], rest)
  | c :: rest => if isTextChar c then Read.push (some c) (literalBody rest) else none

/-- Whether only blanks stand before the next line end. -/
def blankLine (cs : List Char) : Bool :=
  match cs.dropWhile fun c => c = ' ' || c = '\t' with
  | '\n' :: _ => true
  | '\r' :: '\n' :: _ => true
  | _ => false

/-- Read behind three double quotes.  `skipping` holds behind a backslash at the end of a line:
blanks and line ends are passed over then. -/
def multilineBasicBody (skipping : Bool) : List Char → Read
  | [] => none
  | '\n' :: rest =>
    if skipping then multilineBasicBody true rest
    else Read.push (some '\n') (multilineBasicBody false rest)
  | '\r' :: '\n' :: rest =>
    if skipping then multilineBasicBody true rest
    else Read.push (some '\n') (multilineBasicBody false rest)
  | '"' :: '"' :: '"' :: '"' :: '"' :: rest => some (['"', '"'], rest)
  | '"' :: '"' :: '"' :: '"' :: rest => some (['"'], rest)
  | '"' :: '"' :: '"' :: rest => some ([], rest)
  | '\\' :: 'x' :: a :: b :: rest =>
    Read.push (hexChar? [a, b]) (multilineBasicBody false rest)
  | '\\' :: 'u' :: a :: b :: c :: d :: rest =>
    Read.push (hexChar? [a, b, c, d]) (multilineBasicBody false rest)
  | '\\' :: 'U' :: a :: b :: c :: d :: e :: f :: g :: h :: rest =>
    Read.push (hexChar? [a, b, c, d, e, f, g, h]) (multilineBasicBody false rest)
  | '\\' :: c :: rest =>
    match escaped? c with
    | some d => Read.push (some d) (multilineBasicBody false rest)
    | none => if blankLine (c :: rest) then multilineBasicBody true (c :: rest) else none
  | c :: rest =>
    if skipping && (c = ' ' || c = '\t') then multilineBasicBody true rest
    else if isTextChar c && c ≠ '\\' then Read.push (some c) (multilineBasicBody false rest)
    else none

/-- Read behind three single quotes. -/
def multilineLiteralBody : List Char → Read
  | [] => none
  | '\n' :: rest => Read.push (some '\n') (multilineLiteralBody rest)
  | '\r' :: '\n' :: rest => Read.push (some '\n') (multilineLiteralBody rest)
  | '\'' :: '\'' :: '\'' :: '\'' :: '\'' :: rest => some (['\'', '\''], rest)
  | '\'' :: '\'' :: '\'' :: '\'' :: rest => some (['\''], rest)
  | '\'' :: '\'' :: '\'' :: rest => some ([], rest)
  | c :: rest => if isTextChar c then Read.push (some c) (multilineLiteralBody rest) else none

/-- The characters behind a line end at the front of a text over several lines. -/
def skipFirstLineEnd : List Char → List Char
  | '\n' :: rest => rest
  | '\r' :: '\n' :: rest => rest
  | cs => cs

/-- Read a string of any form. -/
def string? : List Char → Read
  | '"' :: '"' :: '"' :: rest => multilineBasicBody false (skipFirstLineEnd rest)
  | '\'' :: '\'' :: '\'' :: rest => multilineLiteralBody (skipFirstLineEnd rest)
  | '"' :: rest => basicBody rest
  | '\'' :: rest => literalBody rest
  | _ => none

/-! ## Numbers -/

/-- Digits of a class with single underscores between them; the result has no underscores. -/
def digits? (isDigit : Char → Bool) : List Char → Option (List Char)
  | [] => none
  | [c] => if isDigit c then some [c] else none
  | c :: '_' :: rest => if isDigit c then (digits? isDigit rest).map (c :: ·) else none
  | c :: rest => if isDigit c then (digits? isDigit rest).map (c :: ·) else none

/-- The number that digits of a base stand for. -/
def numberOf (base : Nat) (digits : List Char) : Nat :=
  digits.foldl (fun n c => base * n + (hexValue? c).getD 0) 0

/-- Decimal digits without a needless zero in front. -/
def decimal? (cs : List Char) : Option (List Char) :=
  match digits? Char.isDigit cs with
  | some ['0'] => some ['0']
  | some ('0' :: _) => none
  | other => other

/-- The sign in front of a word, and the word behind it. -/
def unsign : List Char → Bool × List Char
  | '-' :: rest => (true, rest)
  | '+' :: rest => (false, rest)
  | cs => (false, cs)

/-- An integer of 128 bits, with or without a sign. -/
def integerFits (negative : Bool) (n : Nat) : Bool :=
  if negative then n ≤ Nat.pow 2 127 else n < Nat.pow 2 128

/-- A decimal integer. -/
def integer? (word : List Char) : Option Value :=
  let (negative, digits) := unsign word
  (decimal? digits).map fun ds => .number (integerFits negative (numberOf 10 ds))

/-- An integer with a base in front; it has no sign. -/
def based? : List Char → Option Value
  | '0' :: 'x' :: rest =>
    (digits? (fun c => (hexValue? c).isSome) rest).map fun ds =>
      .number (integerFits false (numberOf 16 ds))
  | '0' :: 'o' :: rest =>
    (digits? (fun c => '0' ≤ c && c ≤ '7') rest).map fun ds =>
      .number (integerFits false (numberOf 8 ds))
  | '0' :: 'b' :: rest =>
    (digits? (fun c => c = '0' || c = '1') rest).map fun ds =>
      .number (integerFits false (numberOf 2 ds))
  | _ => none

/-- Whether `mantissa · 10 ^ exponent` rounds to a finite double: it must lie below the midpoint
between the greatest double and the next power of two, which has 309 digits. -/
def doubleFits (mantissa : Nat) (exponent : Int) : Bool :=
  let bound := Nat.pow 2 1024 - Nat.pow 2 970
  let size := exponent + (Nat.toDigits 10 mantissa).length
  if mantissa = 0 || size < 309 then true
  else if 309 < size then false
  else if 0 ≤ exponent then mantissa * Nat.pow 10 exponent.toNat < bound
  else mantissa < bound * Nat.pow 10 (-exponent).toNat

/-- The exponent of a float, behind its letter. -/
def exponent? (word : List Char) : Option Int :=
  let (negative, digits) := unsign word
  (digits? Char.isDigit digits).map fun ds =>
    let n : Int := numberOf 10 ds
    if negative then -n else n

/-- A decimal number with a fraction, an exponent or both. -/
def decimalFloat? (word : List Char) : Option Value := do
  let unsigned := (unsign word).2
  let mantissa := unsigned.takeWhile fun c => c ≠ 'e' && c ≠ 'E'
  let whole ← decimal? (mantissa.takeWhile (· ≠ '.'))
  let fraction ← match mantissa.dropWhile (· ≠ '.') with
    | [] => some []
    | _ :: rest => digits? Char.isDigit rest
  let exponent ← match unsigned.dropWhile fun c => c ≠ 'e' && c ≠ 'E' with
    | [] => if fraction = [] then none else some 0
    | _ :: rest => exponent? rest
  pure (.number (doubleFits (numberOf 10 (whole ++ fraction)) (exponent - fraction.length)))

/-- An infinity or not a number. -/
def specialFloat? (word : List Char) : Option Value :=
  let unsigned := (unsign word).2
  if unsigned = ['i', 'n', 'f'] || unsigned = ['n', 'a', 'n'] then some (.number true) else none

/-! ## Dates and times -/

/-- Read a number of exactly `width` digits within bounds. -/
def field? (width low high : Nat) (cs : List Char) : Option (Nat × List Char) :=
  let ds := cs.take width
  let n := numberOf 10 ds
  if ds.length = width && ds.all Char.isDigit && low ≤ n && n ≤ high then some (n, cs.drop width)
  else none

/-- The days of a month. -/
def daysIn (year month : Nat) : Nat :=
  if month = 2 then
    if (year % 4 = 0 && year % 100 ≠ 0) || year % 400 = 0 then 29 else 28
  else if month = 4 || month = 6 || month = 9 || month = 11 then 30
  else 31

/-- Read one fixed character. -/
def sign? (c : Char) : List Char → Option (List Char)
  | d :: rest => if d = c then some rest else none
  | [] => none

/-- Read `YYYY-MM-DD`. -/
def date? (cs : List Char) : Option (List Char) := do
  let (year, cs) ← field? 4 0 9999 cs
  let cs ← sign? '-' cs
  let (month, cs) ← field? 2 1 12 cs
  let cs ← sign? '-' cs
  let (_, cs) ← field? 2 1 (daysIn year month) cs
  pure cs

/-- Read the fraction of a second, if there is one. -/
def secondFraction? : List Char → Option (List Char)
  | '.' :: c :: rest => if c.isDigit then some (rest.dropWhile Char.isDigit) else none
  | '.' :: [] => none
  | cs => some cs

/-- Read `HH:MM`, with seconds and their fraction if they follow. -/
def time? (cs : List Char) : Option (List Char) := do
  let (_, cs) ← field? 2 0 23 cs
  let cs ← sign? ':' cs
  let (_, cs) ← field? 2 0 59 cs
  match cs with
  | ':' :: rest => do
    let (_, cs) ← field? 2 0 60 rest
    secondFraction? cs
  | _ => pure cs

/-- Read the offset of a time to its end: `Z`, hours and minutes, or nothing. -/
def offset? : List Char → Option Unit
  | [] => some ()
  | ['Z'] => some ()
  | ['z'] => some ()
  | c :: rest =>
    if c = '+' || c = '-' then do
      let (_, cs) ← field? 2 0 23 rest
      let cs ← sign? ':' cs
      let (_, cs) ← field? 2 0 59 cs
      if cs = [] then pure () else none
    else none

/-- A date, a time of day, or both. -/
def datetime? (word : List Char) : Option Value :=
  match date? word with
  | some [] => some .datetime
  | some (c :: rest) =>
    if c = 'T' || c = 't' || c = ' ' then
      ((time? rest).bind offset?).map fun _ => .datetime
    else none
  | none =>
    match time? word with
    | some [] => some .datetime
    | _ => none

/-- The value of a word without quotes. -/
def bare? (word : List Char) : Option Value :=
  if word = ['t', 'r', 'u', 'e'] then some (.boolean true)
  else if word = ['f', 'a', 'l', 's', 'e'] then some (.boolean false)
  else
    (integer? word).or <| (based? word).or <| (decimalFloat? word).or <|
      (specialFloat? word).or (datetime? word)

end Toml

end ArchLang
