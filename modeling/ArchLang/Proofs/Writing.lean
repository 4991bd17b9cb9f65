import ArchLang.Grammar.Architecture
import ArchLang.Grammar.Entity
import ArchLang.Proofs.Rescanning

/-!
# Writing declarations

The opposite of reading: a declaration as tokens, and tokens as text.  Whatever is free text in a
declaration, names above all, is written as a string literal, so nothing in it can be mistaken for a
reserved word or a mark.  Kinds of actors and deployments are bare words, and percentages are
written as they are.

**Texts.**  `Token.written` spells a token, `escaped` a character between quotes.  A token is
`Writable` if the lexer can read its spelling again at all: an identifier is a word and not
reserved, the digits of a percentage are a decimal number.

**Declarations.**  `Declaration.tokens` lists the tokens of a declaration, built from `listed`,
items with a mark between any two, and `braced`, items between braces.  `Declaration.Writable` says
that its kinds and percentages are of the forms that the language knows, and that lists which cannot
be empty are not.  `written` is the text of a program: blanks between tokens, line ends between
declarations.

**Reading the text.**  `LexesTo cs ts` — the text `cs` is read as the tokens `ts`, wherever it
stands.  A written token is read again when a blank, a line end or nothing follows
(`lexesTo_written`).

* **`isIdentifier_iff`**, **`isPercentage_iff`** — a text is an identifier, or a percentage, exactly
  if the lexer reads it as one.
* **`tokensOf_written`** — the text of a program is read as the tokens of its declarations, with
  white space in between.
-/

namespace ArchLang

open ArchLang.Grammar

/-! ## Tokens as text -/

/-- How a character is written between quotes. -/
def escaped (c : Char) : List Char :=
  if c = '\n' then ['\\', 'n']
  else if c = '\r' then ['\\', 'r']
  else if c = '\\' ∨ c = '"' then ['\\', c]
  else [c]

/-- A token as it is written. -/
def Token.written : Token → List Char
  | keyword k => k.spelling.toList
  | mark m => m.spelling.toList
  | stringLiteral text => '"' :: (text.toList.flatMap escaped ++ ['"'])
  | percentage digits => digits.toList ++ ['%']
  | number digits => digits.toList
  | identifier name => name.toList
  | lineComment text => '/' :: '/' :: text.toList
  | whitespace => [' ']
  | newline => ['\n']

/-- What may stand behind the first character of a word: word characters, and hyphens that have one
behind them. -/
def isWordTail : List Char → Bool
  | [] => true
  | '-' :: c :: cs => isNameChar c && isWordTail cs
  | c :: cs => isNameChar c && isWordTail cs

/-- A word that is not reserved. -/
def isIdentifier (name : String) : Bool :=
  match name.toList with
  | [] => false
  | c :: cs => isNameStart c && isWordTail cs && (Keyword.ofSpelling? name).isNone

/-- Digits, and perhaps a point with more digits behind it. -/
inductive Decimal : List Char → Prop where
  | whole {ds : List Char} : ds ≠ [] → (∀ c ∈ ds, c.isDigit = true) → Decimal ds
  | point {ds es : List Char} : ds ≠ [] → (∀ c ∈ ds, c.isDigit = true) → es ≠ [] →
      (∀ c ∈ es, c.isDigit = true) → Decimal (ds ++ '.' :: es)

/-- The tokens of declarations whose spelling is that of a token. -/
def Token.Writable : Token → Prop
  | keyword _ | mark _ | stringLiteral _ => True
  | identifier name => isIdentifier name = true
  | percentage digits => Decimal digits.toList
  | number _ | lineComment _ | whitespace | newline => False

/-! ## Declarations as tokens -/

/-- Items with a mark between any two. -/
def listed (m : Mark) : List (List Token) → List Token
  | [] => []
  | item :: items => item ++ items.flatMap (.mark m :: ·)

/-- Items between braces. -/
def braced (items : List (List Token)) : List Token :=
  .mark .leftBrace :: (items.flatten ++ [.mark .rightBrace])

/-- Items between two marks, with commas between them; no items leave no trace. -/
def wrapped (opening closing : Mark) : List (List Token) → List Token
  | [] => []
  | items => .mark opening :: (listed .comma items ++ [.mark closing])

/-- A text as a string literal. -/
def quoted (text : Text) : Token := .stringLiteral text.value

/-- Names with commas between them. -/
def quotedNames (names : List Text) : List Token :=
  listed .comma (names.map fun name => [quoted name])

/-- The word for an actor kind. -/
def actorKindToken (kind : String) : Token :=
  if kind = "service" then .keyword .service else .identifier kind

/-- `user "Zoë"`. -/
def ActorDecl.tokens (d : ActorDecl) : List Token := [actorKindToken d.kind.value, quoted d.name]

/-- `"Trade" { "Orders" "Prices" }`. -/
def DomainDecl.tokens (d : DomainDecl) : List Token :=
  quoted d.name :: braced (d.subDomains.map fun name => [quoted name])

/-- `10% -> "staging"`; the token of a percentage holds everything but the sign. -/
def RuleDecl.tokens (r : RuleDecl) : List Token :=
  [.percentage (String.ofList r.percentage.value.toList.dropLast), .mark .arrow, quoted r.target]

/-- `canary ( 10% -> "staging" )`, or the kind alone. -/
def DeploymentDecl.tokens (d : DeploymentDecl) : List Token :=
  .identifier d.kind.value :: wrapped .leftParen .rightParen (d.rules.map RuleDecl.tokens)

/-- `domains : "Trade" , "Money"`. -/
def PropertyDecl.tokens : PropertyDecl → List Token
  | domains names => .keyword .domains :: .mark .colon :: quotedNames names
  | dataStores names => .keyword .dataStores :: .mark .colon :: quotedNames names
  | language name => [.identifier "language", .mark .colon, quoted name]
  | deployment d => .identifier "deployment" :: .mark .colon :: d.tokens

/-- `"Shop" { language : "go" }`. -/
def ServiceDecl.tokens (d : ServiceDecl) : List Token :=
  quoted d.name :: braced (d.properties.map PropertyDecl.tokens)

/-- The key of a line. -/
def Grammar.ExposureKey.word : ExposureKey → String
  | audience => "to"
  | exposed => "of"
  | gateways => "through"

/-- A line of an exposure. -/
def exposureField (field : ExposureKey × List Text) : List Token :=
  .identifier field.1.word :: .mark .colon :: quotedNames field.2

/-- The lines of an exposure: only lists with names have one. -/
def ExposureDecl.fields (d : ExposureDecl) : List (ExposureKey × List Text) :=
  [(.audience, d.audience), (.exposed, d.exposed), (.gateways, d.gateways)].filter
    fun field => field.2 ≠ []

/-- `"API" { to : "partners" of : "Shop" }`. -/
def ExposureDecl.tokens (d : ExposureDecl) : List Token :=
  quoted d.name :: braced (d.fields.map exposureField)

/-- `"port" : "443"`, or the key alone. -/
def ModifierDecl.tokens (d : ModifierDecl) : List Token :=
  quoted d.key :: d.value.elim [] fun value => [.mark .colon, quoted value]

/-- `"Web" [ "ssl" , "port" : "443" ]`. -/
def NodeDecl.tokens (d : NodeDecl) : List Token :=
  quoted d.name :: wrapped .leftBracket .rightBracket (d.modifiers.map ModifierDecl.tokens)

/-- `"Web" > "Edge"`. -/
def ComponentDecl.tokens (d : ComponentDecl) : List Token :=
  listed .greater (d.chain.map NodeDecl.tokens)

/-- The key of a layer. -/
def Grammar.Layer.word : Layer → String
  | presentation => "presentation"
  | gateway => "gateway"

/-- A layer with its header. -/
def archSection (layer : Layer × List ComponentDecl) : List Token :=
  .identifier layer.1.word :: .mark .colon :: layer.2.flatMap ComponentDecl.tokens

/-- The layers of an architecture, the empty ones included. -/
def ArchDecl.sections (d : ArchDecl) : List (Layer × List ComponentDecl) :=
  [(.presentation, d.presentation), (.gateway, d.gateway)]

/-- `"Main" { presentation : "Web" gateway : }`. -/
def ArchDecl.tokens (d : ArchDecl) : List Token :=
  (d.name.elim [] fun name => [quoted name]) ++ braced (d.sections.map archSection)

/-- The tokens of a declaration.  Use cases are made of lines and are not written here. -/
def Declaration.tokens : Declaration → List Token
  | actor d => .keyword .actor :: d.tokens
  | actors ds => .keyword .actors :: braced (ds.map ActorDecl.tokens)
  | domain d => .keyword .domain :: d.tokens
  | domains ds => .keyword .domains :: braced (ds.map DomainDecl.tokens)
  | service d => .keyword .service :: d.tokens
  | services ds => .keyword .services :: braced (ds.map ServiceDecl.tokens)
  | exposure d => .keyword .exposure :: d.tokens
  | arch d => .keyword .arch :: d.tokens
  | useCase _ => []

/-- Tokens as text, with blanks between them. -/
def writtenLine (ts : List Token) : List Char := [' '].intercalate (ts.map Token.written)

/-- The text of a program: declarations with line ends between them. -/
def written (ds : List Declaration) : String :=
  String.ofList (['\n'].intercalate (ds.map fun d => writtenLine d.tokens))

/-! ## What can be written -/

/-- A decimal number with a percent sign. -/
def IsPercentage (text : String) : Prop :=
  ∃ digits, Decimal digits ∧ text.toList = digits ++ ['%']

def ActorDecl.Writable (d : ActorDecl) : Prop :=
  d.kind.value = "service" ∨ isIdentifier d.kind.value = true

def DeploymentDecl.Writable (d : DeploymentDecl) : Prop :=
  isIdentifier d.kind.value = true ∧ ∀ r ∈ d.rules, IsPercentage r.percentage.value

def PropertyDecl.Writable : PropertyDecl → Prop
  | domains names | dataStores names => names ≠ []
  | language _ => True
  | deployment d => d.Writable

def ServiceDecl.Writable (d : ServiceDecl) : Prop := ∀ p ∈ d.properties, p.Writable

def ArchDecl.Writable (d : ArchDecl) : Prop := ∀ c ∈ d.presentation ++ d.gateway, c.chain ≠ []

/-- The declarations that `written` can write. -/
def Declaration.Writable : Declaration → Prop
  | actor d => d.Writable
  | actors ds => ∀ d ∈ ds, d.Writable
  | domain _ | domains _ | exposure _ => True
  | service d => d.Writable
  | services ds => ∀ d ∈ ds, d.Writable
  | arch d => d.Writable
  | useCase _ => False

/-! ## Words, numbers and literals are scanned -/

lemma scanWordTail_cons {c : Char} (h : isNameChar c = true) (cs : List Char) :
    scanWordTail (c :: cs) = (c :: (scanWordTail cs).1, (scanWordTail cs).2) := by
  simp [scanWordTail, h]

lemma scanWordTail_hyphen {c : Char} (h : isNameChar c = true) (cs : List Char) :
    scanWordTail ('-' :: c :: cs) = ('-' :: c :: (scanWordTail cs).1, (scanWordTail cs).2) := by
  have hhyphen : isNameChar '-' = false := by decide
  simp only [scanWordTail, List.takeWhile_cons_of_neg, List.dropWhile_cons_of_neg, hhyphen,
    Bool.false_eq_true, not_false_eq_true, List.nil_append]
  rw [scanSegments, if_pos h]
  rfl

lemma scanWordTail_of_isWordTail {cs : List Char} (h : isWordTail cs = true) :
    scanWordTail cs = (cs, []) := by
  fun_induction isWordTail cs with
  | case1 => simp [scanWordTail, scanSegments]
  | case2 c cs ih =>
      rw [Bool.and_eq_true] at h
      rw [scanWordTail_hyphen h.1, ih h.2]
  | case3 c cs _ ih =>
      rw [Bool.and_eq_true] at h
      rw [scanWordTail_cons h.1, ih h.2]

lemma scan_word {c : Char} {cs : List Char} (hc : isNameStart c = true)
    (hcs : isWordTail cs = true) : scan c cs = .token (wordToken (c :: cs) []) (c :: cs) [] := by
  have hword := Front.word cs hc
  rw [scanWordTail_of_isWordTail hcs] at hword
  exact scan_eq_token_iff.2 hword

lemma scanBody_escaped (c : Char) (cs : List Char) :
    scanBody (escaped c ++ cs) = (scanBody cs).push c (escaped c) := by
  unfold escaped
  split
  next hc => subst hc; rfl
  split
  next hc => subst hc; rfl
  split
  next hc => rcases hc with rfl | rfl <;> rfl
  next hline hreturn hspecial =>
      rw [not_or] at hspecial
      rw [List.singleton_append, scanBody_cons_of_ne hspecial.1, if_neg hspecial.2,
        if_neg (not_or.2 ⟨hline, hreturn⟩)]

lemma scanBody_written (text : List Char) :
    scanBody (text.flatMap escaped ++ ['"']) = .closed text (text.flatMap escaped ++ ['"']) [] := by
  induction text with
  | nil => rfl
  | cons c text ih =>
      rw [List.flatMap_cons, List.append_assoc, scanBody_escaped, ih, StringBody.push]

section Digits

variable {ds rest : List Char} {c : Char} (hds : ∀ d ∈ ds, d.isDigit = true)
  (hc : c.isDigit = false)

include hds hc

lemma takeWhile_digits : (ds ++ c :: rest).takeWhile Char.isDigit = ds := by
  rw [List.takeWhile_append_of_pos hds, List.takeWhile_cons_of_neg (by simp [hc]), List.append_nil]

lemma dropWhile_digits : (ds ++ c :: rest).dropWhile Char.isDigit = c :: rest := by
  rw [List.dropWhile_append_of_pos hds, List.dropWhile_cons_of_neg (by simp [hc])]

end Digits

lemma scan_decimal {digits : List Char} (h : Decimal digits) : ∃ c cs, digits = c :: cs ∧
    scan c (cs ++ ['%']) = .token (.percentage (String.ofList digits)) (digits ++ ['%']) [] := by
  have hpercent : Char.isDigit '%' = false := by decide
  have hpoint : Char.isDigit '.' = false := by decide
  cases h with
  | whole hne hds =>
      obtain ⟨c, cs, rfl⟩ := List.exists_cons_of_ne_nil hne
      rw [List.forall_mem_cons] at hds
      refine ⟨c, cs, rfl, scan_eq_token_iff.2 (.number hds.1 ?_)⟩
      rw [takeWhile_digits hds.2 hpercent, dropWhile_digits hds.2 hpercent]
      simp [scanFraction, numberScan]
  | @point ds es hne hds hne' hes =>
      obtain ⟨c, cs, rfl⟩ := List.exists_cons_of_ne_nil hne
      obtain ⟨e, es, rfl⟩ := List.exists_cons_of_ne_nil hne'
      rw [List.forall_mem_cons] at hds hes
      refine ⟨c, cs ++ '.' :: e :: es, rfl, scan_eq_token_iff.2 (.number hds.1 ?_)⟩
      rw [List.append_assoc, List.cons_append, List.cons_append, takeWhile_digits hds.2 hpoint,
        dropWhile_digits hds.2 hpoint, List.cons_append, scanFraction, if_pos hes.1,
        takeWhile_digits hes.2 hpercent, dropWhile_digits hes.2 hpercent]
      simp [numberScan]

lemma exists_of_isIdentifier {name : String} (h : isIdentifier name = true) :
    ∃ c cs, name.toList = c :: cs ∧ isNameStart c = true ∧ isWordTail cs = true ∧
      Keyword.ofSpelling? name = none := by
  unfold isIdentifier at h
  split at h
  next => cases h
  next c cs hcs =>
      simp only [Bool.and_eq_true, Option.isNone_iff_eq_none] at h
      exact ⟨c, cs, hcs, h.1.1, h.1.2, h.2⟩

/-- A written token is scanned as it was. -/
lemma exists_scan_written {t : Token} (h : t.Writable) :
    ∃ c cs, t.written = c :: cs ∧ scan c cs = .token t (c :: cs) [] := by
  cases t with
  | keyword k =>
      have hstart : ∃ c cs, k.spelling.toList = c :: cs ∧ isNameStart c = true ∧
          isWordTail cs = true := by
        cases k <;> exact ⟨_, _, rfl, rfl, rfl⟩
      obtain ⟨c, cs, hspelling, hc, hcs⟩ := hstart
      have htoken : wordToken (c :: cs) [] = .keyword k :=
        wordToken_eq_keyword_iff.2 ⟨hspelling.symm, nofun⟩
      exact ⟨c, cs, hspelling, htoken ▸ scan_word hc hcs⟩
  | mark m =>
      cases m with
      | arrow => exact ⟨_, _, rfl, scan_eq_token_iff.2 (.arrow [])⟩
      | _ => exact ⟨_, _, rfl, scan_eq_token_iff.2 (.mark [] rfl)⟩
  | stringLiteral text =>
      have hliteral := Front.literal (scanBody_written text.toList)
      rw [String.ofList_toList] at hliteral
      exact ⟨_, _, rfl, scan_eq_token_iff.2 hliteral⟩
  | percentage digits =>
      obtain ⟨c, cs, hdigits, hscan⟩ := scan_decimal h
      rw [String.ofList_toList] at hscan
      refine ⟨c, cs ++ ['%'], congrArg (· ++ ['%']) hdigits, ?_⟩
      rw [hscan, hdigits]
      rfl
  | identifier name =>
      obtain ⟨c, cs, hname, hc, hcs, hfree⟩ := exists_of_isIdentifier h
      have htoken : wordToken (c :: cs) [] = .identifier name := by
        rw [wordToken, ← hname, String.ofList_toList, hfree]
      exact ⟨c, cs, hname, htoken ▸ scan_word hc hcs⟩
  | number | lineComment | whitespace | newline => exact absurd h id

/-! ## Identifiers and percentages are what is read as such -/

lemma isWordTail_cons {c : Char} (h : isNameChar c = true) (cs : List Char) :
    isWordTail (c :: cs) = isWordTail cs := by
  have hhyphen : c ≠ '-' := by
    rintro rfl
    cases h
  rw [isWordTail.eq_3 c cs (fun _ _ hc _ => hhyphen hc), h, Bool.true_and]

lemma isWordTail_append {word tail : List Char} (hword : ∀ c ∈ word, isNameChar c = true)
    (htail : isWordTail tail = true) : isWordTail (word ++ tail) = true := by
  induction word with
  | nil => exact htail
  | cons c word ih =>
      rw [List.forall_mem_cons] at hword
      rw [List.cons_append, isWordTail_cons hword.1]
      exact ih hword.2

lemma isWordTail_scanSegments (cs : List Char) : isWordTail (scanSegments cs).1 = true := by
  fun_induction scanSegments cs with
  | case1 c cs hc word tail ih =>
      rw [List.cons_append, List.cons_append, isWordTail, hc, Bool.true_and]
      exact isWordTail_append (fun _ => List.mem_takeWhile_imp) ih
  | case2 => rfl
  | case3 => rfl

lemma isWordTail_scanWordTail (cs : List Char) : isWordTail (scanWordTail cs).1 = true :=
  isWordTail_append (fun _ => List.mem_takeWhile_imp) (isWordTail_scanSegments _)

lemma scan_of_tokensOf {source : String} {t : Token} {span : Span}
    (h : tokensOf source = .ok [⟨t, span⟩]) :
    ∃ c cs, source.toList = c :: cs ∧ scan c cs = .token t (c :: cs) [] := by
  have hlexed := tokensOf_eq_ok_iff.1 h
  generalize source.toList = text at hlexed
  cases hlexed with
  | @cons _ c cs lexeme rest _ _ hscan hrest =>
      cases hrest
      have htext := text_of_scan hscan
      rw [List.append_nil] at htext
      exact ⟨c, cs, rfl, htext ▸ hscan⟩

lemma tokensOf_written_token {t : Token} (h : t.Writable) :
    ∃ span, tokensOf (String.ofList t.written) = .ok [⟨t, span⟩] := by
  obtain ⟨c, cs, hwritten, hscan⟩ := exists_scan_written h
  have hlexed : Lexed 0 (c :: cs) _ := .cons hscan (.nil _)
  exact ⟨_, tokensOf_eq_ok_iff.2 (by rw [String.toList_ofList, hwritten]; exact hlexed)⟩

lemma identifier_of_scan {c : Char} {cs lexeme rest : List Char} {name : String}
    (h : scan c cs = .token (.identifier name) lexeme rest) (hend : rest.head? ≠ some '-') :
    isIdentifier name = true := by
  have hfront := scan_eq_token_iff.1 h
  generalize ht : Token.identifier name = t at hfront
  cases hfront with
  | word cs hc =>
      have htail := isWordTail_scanWordTail cs
      unfold wordToken at ht
      split at ht
      next hreserved =>
          rw [if_neg hend] at ht
          cases ht
      next hfree =>
          cases ht
          simp only [isIdentifier, String.toList_ofList, hc, htail, hfree]
          rfl
  | number _ hscan =>
      obtain ⟨_, rfl⟩ | ⟨_, rfl⟩ := number_or_percentage_of_numberScan hscan <;> cases ht
  | comment | literal | arrow | newline | blank | mark => cases ht

lemma decimal_digits {c : Char} (hc : c.isDigit = true) (cs : List Char) :
    Decimal (c :: cs.takeWhile Char.isDigit ++ (scanFraction (cs.dropWhile Char.isDigit)).1) := by
  have hwhole : ∀ d ∈ c :: cs.takeWhile Char.isDigit, d.isDigit = true :=
    List.forall_mem_cons.2 ⟨hc, fun _ => List.mem_takeWhile_imp⟩
  fun_cases scanFraction (cs.dropWhile Char.isDigit) with
  | case1 e es he =>
      exact .point (List.cons_ne_nil _ _) hwhole (List.cons_ne_nil _ _)
        (List.forall_mem_cons.2 ⟨he, fun _ => List.mem_takeWhile_imp⟩)
  | case2 | case3 =>
      rw [List.append_nil]
      exact .whole (List.cons_ne_nil _ _) hwhole

lemma percentage_of_scan {c : Char} {cs lexeme rest : List Char} {digits : String}
    (h : scan c cs = .token (.percentage digits) lexeme rest) :
    Decimal digits.toList ∧ lexeme = digits.toList ++ ['%'] := by
  have hfront := scan_eq_token_iff.1 h
  generalize ht : Token.percentage digits = t at hfront
  cases hfront with
  | number hc hscan =>
      have hdecimal := decimal_digits hc cs
      unfold numberScan at hscan
      split at hscan <;> cases hscan <;> cases ht
      rw [String.toList_ofList]
      exact ⟨hdecimal, rfl⟩
  | word =>
      obtain ⟨_, h⟩ | h := keyword_or_identifier_of_wordToken ht.symm <;> cases h
  | comment | literal | arrow | newline | blank | mark => cases ht

/-- An identifier is what is read as one. -/
theorem isIdentifier_iff {name : String} :
    isIdentifier name = true ↔ ∃ span, tokensOf name = .ok [⟨.identifier name, span⟩] := by
  constructor
  · intro h
    have hread := tokensOf_written_token (t := .identifier name) h
    rwa [Token.written, String.ofList_toList] at hread
  · rintro ⟨span, h⟩
    obtain ⟨c, cs, -, hscan⟩ := scan_of_tokensOf h
    exact identifier_of_scan hscan nofun

/-- A percentage is what is read as one. -/
theorem isPercentage_iff {text : String} :
    IsPercentage text ↔ ∃ digits span, tokensOf text = .ok [⟨.percentage digits, span⟩] := by
  constructor
  · rintro ⟨digits, hdigits, htext⟩
    have hwritable : (Token.percentage (String.ofList digits)).Writable := by
      rw [Token.Writable, String.toList_ofList]
      exact hdigits
    have hread := tokensOf_written_token hwritable
    rw [Token.written, String.toList_ofList, ← htext, String.ofList_toList] at hread
    exact ⟨_, hread⟩
  · rintro ⟨digits, span, h⟩
    obtain ⟨c, cs, htext, hscan⟩ := scan_of_tokensOf h
    obtain ⟨hdecimal, hlexeme⟩ := percentage_of_scan hscan
    exact ⟨digits.toList, hdecimal, htext.trans hlexeme⟩

/-! ## What may stand behind a written token -/

/-- Nothing comes next, or a blank. -/
def BlankNext (rest : List Char) : Prop := ∀ c ∈ rest.head?, isBlank c = true

lemma not_isNameChar_of_isBlank {c : Char} (h : isBlank c = true) : isNameChar c = false := by
  have hstart := not_isNameStart_of_isBlank h
  rw [isNameStart, Bool.or_eq_false_iff] at hstart
  rw [isNameChar, Char.isAlphanum, hstart.1, hstart.2, not_isDigit_of_isBlank h]
  rfl

lemma BlankNext.ne {rest : List Char} (h : BlankNext rest) {c : Char} (hc : isBlank c = false) :
    rest.head? ≠ some c := by
  intro hhead
  rw [h c hhead] at hc
  cases hc

lemma BlankNext.wordEnds {rest : List Char} (h : BlankNext rest) : WordEnds rest := by
  refine ⟨fun c hc => not_isNameChar_of_isBlank (h c hc), fun {c cs} hrest => ?_⟩
  exact absurd (congrArg List.head? hrest) (h.ne (by decide))

lemma BlankNext.closes {rest : List Char} (h : BlankNext rest) {t : Token} (ht : t.Writable) :
    Closes t rest := by
  cases t with
  | keyword k => exact ⟨h.wordEnds, h.ne (by decide)⟩
  | identifier name =>
      obtain ⟨-, -, -, -, -, hfree⟩ := exists_of_isIdentifier ht
      exact ⟨h.wordEnds, fun hreserved => absurd hfree hreserved⟩
  | mark | stringLiteral | percentage => trivial
  | number | lineComment | whitespace | newline => exact absurd ht id

/-! ## Text and tokens -/

/-- The text is read as these tokens, wherever it stands. -/
def LexesTo (cs : List Char) (ts : List Token) : Prop :=
  ∀ offset, ∃ us, Lexed offset cs us ∧ us.map (·.value) = ts

lemma lexesTo_nil : LexesTo [] [] := fun offset => ⟨[], .nil offset, rfl⟩

lemma lexesTo_cons {c : Char} {cs lexeme rest : List Char} {t : Token} {ts : List Token}
    (hscan : scan c cs = .token t lexeme rest) (h : LexesTo rest ts) :
    LexesTo (c :: cs) (t :: ts) := by
  intro offset
  obtain ⟨us, hus, hvalues⟩ := h (offset + byteLength lexeme)
  exact ⟨_, .cons hscan hus, congrArg (t :: ·) hvalues⟩

lemma lexesTo_written {t : Token} (ht : t.Writable) {rest : List Char} (hrest : BlankNext rest)
    {ts : List Token} (h : LexesTo rest ts) : LexesTo (t.written ++ rest) (t :: ts) := by
  obtain ⟨c, cs, hwritten, hscan⟩ := exists_scan_written ht
  obtain ⟨l, hl, hscan⟩ := scan_again hscan (hrest.closes ht)
  obtain rfl := (List.cons.inj hl).2
  rw [hwritten]
  exact lexesTo_cons hscan h

/-- No blank stands at the front of a written token. -/
lemma stops_written {t : Token} (ht : t.Writable) (rest : List Char) :
    Stops (fun c => isBlank c && c ≠ '\n') (t.written ++ rest) := by
  obtain ⟨c, cs, hwritten, hscan⟩ := exists_scan_written ht
  intro d hd
  obtain rfl : c = d := by simpa [hwritten] using hd
  by_contra hblank
  simp only [Bool.not_eq_false, Bool.and_eq_true, decide_eq_true_eq] at hblank
  have hspace := scan_eq_token_iff.2 (Front.blank cs hblank.1 hblank.2)
  rw [hscan] at hspace
  injection hspace with htoken
  rw [htoken] at ht
  exact ht

lemma lexesTo_blank {t : Token} (ht : t.Writable) {rest : List Char} {ts : List Token}
    (h : LexesTo (t.written ++ rest) ts) :
    LexesTo (' ' :: (t.written ++ rest)) (.whitespace :: ts) := by
  have hstops := stops_written ht rest
  have hscan := scan_eq_token_iff.2
    (Front.blank (t.written ++ rest) (show isBlank ' ' = true by decide) (by decide))
  rw [takeWhile_of_stops hstops, dropWhile_of_stops hstops] at hscan
  exact lexesTo_cons hscan h

lemma lexesTo_newline {rest : List Char} {ts : List Token} (h : LexesTo rest ts) :
    LexesTo ('\n' :: rest) (.newline :: ts) :=
  lexesTo_cons (scan_eq_token_iff.2 (.newline rest)) h

/-! ## Whole programs -/

/-- Tokens with a blank before each of them. -/
def behind (ts : List Token) : List Token := ts.flatMap fun t => [.whitespace, t]

/-- Tokens with a blank between any two of them. -/
def spaced : List Token → List Token
  | [] => []
  | t :: ts => t :: behind ts

/-- Lists of tokens with a line end between any two, and blanks inside the lists. -/
def lineByLine (lists : List (List Token)) : List Token :=
  [Token.newline].intercalate (lists.map spaced)

lemma intercalate_cons {α : Type} (a : α) (x : List α) (xs : List (List α)) :
    [a].intercalate (x :: xs) = x ++ xs.flatMap (a :: ·) := by
  induction xs generalizing x with
  | nil => simp
  | cons y ys ih => rw [List.intercalate_cons_cons, ih, List.flatMap_cons, List.append_assoc]; rfl

lemma lexesTo_behind {ts : List Token} (hts : ∀ t ∈ ts, t.Writable) {rest : List Char}
    (hrest : BlankNext rest) {us : List Token} (h : LexesTo rest us) :
    BlankNext ((ts.map Token.written).flatMap (' ' :: ·) ++ rest) ∧
      LexesTo ((ts.map Token.written).flatMap (' ' :: ·) ++ rest) (behind ts ++ us) := by
  induction ts with
  | nil => exact ⟨hrest, h⟩
  | cons t ts ih =>
      rw [List.forall_mem_cons] at hts
      obtain ⟨hnext, hlexes⟩ := ih hts.2
      have hblank := lexesTo_blank hts.1 (lexesTo_written hts.1 hnext hlexes)
      rw [List.map_cons, List.flatMap_cons, List.append_assoc]
      exact ⟨fun c hc => by cases hc; decide, hblank⟩

lemma lexesTo_line {ts : List Token} (hts : ∀ t ∈ ts, t.Writable) {rest : List Char}
    (hrest : BlankNext rest) {us : List Token} (h : LexesTo rest us) :
    LexesTo (writtenLine ts ++ rest) (spaced ts ++ us) := by
  cases ts with
  | nil => exact h
  | cons t ts =>
      rw [List.forall_mem_cons] at hts
      obtain ⟨hnext, hlexes⟩ := lexesTo_behind hts.2 hrest h
      rw [writtenLine, List.map_cons, intercalate_cons, List.append_assoc]
      exact lexesTo_written hts.1 hnext hlexes

/-- Lines of tokens are read again. -/
lemma lexesTo_lines {lists : List (List Token)} (h : ∀ ts ∈ lists, ∀ t ∈ ts, t.Writable) :
    LexesTo (['\n'].intercalate (lists.map writtenLine)) (lineByLine lists) := by
  have hend : BlankNext [] := fun _ hc => nomatch hc
  have hnewline : ∀ rest, BlankNext ('\n' :: rest) := fun _ _ hc => by cases hc; decide
  rw [lineByLine]
  induction lists with
  | nil => exact lexesTo_nil
  | cons ts lists ih =>
      rw [List.forall_mem_cons] at h
      cases lists with
      | nil => simpa using lexesTo_line h.1 hend lexesTo_nil
      | cons ts' lists =>
          have hline := lexesTo_line h.1 (hnewline _) (lexesTo_newline (ih h.2))
          simpa [List.intercalate_cons_cons] using hline

/-! ## The tokens of declarations can be written -/

lemma writable_listed {m : Mark} {items : List (List Token)}
    (h : ∀ item ∈ items, ∀ t ∈ item, t.Writable) : ∀ t ∈ listed m items, t.Writable := by
  cases items with
  | nil => exact nofun
  | cons item items =>
      rw [List.forall_mem_cons] at h
      refine List.forall_mem_append.2 ⟨h.1, fun t ht => ?_⟩
      obtain ⟨item', hitem', ht⟩ := List.mem_flatMap.1 ht
      rcases List.mem_cons.1 ht with rfl | ht
      · trivial
      · exact h.2 item' hitem' t ht

lemma writable_braced {items : List (List Token)}
    (h : ∀ item ∈ items, ∀ t ∈ item, t.Writable) : ∀ t ∈ braced items, t.Writable := by
  refine List.forall_mem_cons.2 ⟨trivial, List.forall_mem_append.2 ⟨fun t ht => ?_, ?_⟩⟩
  · obtain ⟨item, hitem, ht⟩ := List.mem_flatten.1 ht
    exact h item hitem t ht
  · exact List.forall_mem_singleton.2 trivial

lemma writable_wrapped {opening closing : Mark} {items : List (List Token)}
    (h : ∀ item ∈ items, ∀ t ∈ item, t.Writable) :
    ∀ t ∈ wrapped opening closing items, t.Writable := by
  cases items with
  | nil => exact nofun
  | cons item items =>
      exact List.forall_mem_cons.2 ⟨trivial, List.forall_mem_append.2
        ⟨writable_listed h, List.forall_mem_singleton.2 trivial⟩⟩

lemma writable_quotedNames (names : List Text) : ∀ t ∈ quotedNames names, t.Writable := by
  refine writable_listed (List.forall_mem_map.2 fun name _ => ?_)
  exact List.forall_mem_singleton.2 trivial

lemma ActorDecl.Writable.tokens {d : ActorDecl} (h : d.Writable) : ∀ t ∈ d.tokens, t.Writable := by
  refine List.forall_mem_cons.2 ⟨?_, List.forall_mem_singleton.2 trivial⟩
  unfold actorKindToken
  split
  next => trivial
  next hservice => exact h.resolve_left hservice

lemma DomainDecl.writable_tokens (d : DomainDecl) : ∀ t ∈ d.tokens, t.Writable := by
  refine List.forall_mem_cons.2 ⟨trivial, writable_braced (List.forall_mem_map.2 fun _ _ => ?_)⟩
  exact List.forall_mem_singleton.2 trivial

lemma IsPercentage.writable {text : String} (h : IsPercentage text) :
    (Token.percentage (String.ofList text.toList.dropLast)).Writable := by
  obtain ⟨digits, hdigits, htext⟩ := h
  rw [Token.Writable, String.toList_ofList, htext, List.dropLast_concat]
  exact hdigits

lemma DeploymentDecl.Writable.tokens {d : DeploymentDecl} (h : d.Writable) :
    ∀ t ∈ d.tokens, t.Writable := by
  refine List.forall_mem_cons.2 ⟨h.1, writable_wrapped (List.forall_mem_map.2 fun r hr => ?_)⟩
  exact List.forall_mem_cons.2 ⟨(h.2 r hr).writable,
    List.forall_mem_cons.2 ⟨trivial, List.forall_mem_singleton.2 trivial⟩⟩

lemma PropertyDecl.Writable.tokens {p : PropertyDecl} (h : p.Writable) :
    ∀ t ∈ p.tokens, t.Writable := by
  cases p with
  | domains names | dataStores names =>
      exact List.forall_mem_cons.2 ⟨trivial,
        List.forall_mem_cons.2 ⟨trivial, writable_quotedNames names⟩⟩
  | language name =>
      exact List.forall_mem_cons.2 ⟨(rfl : isIdentifier "language" = true),
        List.forall_mem_cons.2 ⟨trivial, List.forall_mem_singleton.2 trivial⟩⟩
  | deployment d =>
      exact List.forall_mem_cons.2 ⟨(rfl : isIdentifier "deployment" = true),
        List.forall_mem_cons.2 ⟨trivial, DeploymentDecl.Writable.tokens h⟩⟩

lemma ServiceDecl.Writable.tokens {d : ServiceDecl} (h : d.Writable) :
    ∀ t ∈ d.tokens, t.Writable := by
  refine List.forall_mem_cons.2 ⟨trivial, writable_braced (List.forall_mem_map.2 fun p hp => ?_)⟩
  exact PropertyDecl.Writable.tokens (h p hp)

lemma writable_exposureField (field : ExposureKey × List Text) :
    ∀ t ∈ exposureField field, t.Writable := by
  have hkey : isIdentifier field.1.word = true := by
    cases field.1 <;> rfl
  exact List.forall_mem_cons.2 ⟨hkey,
    List.forall_mem_cons.2 ⟨trivial, writable_quotedNames field.2⟩⟩

lemma ExposureDecl.writable_tokens (d : ExposureDecl) : ∀ t ∈ d.tokens, t.Writable := by
  refine List.forall_mem_cons.2 ⟨trivial, writable_braced (List.forall_mem_map.2 fun field _ => ?_)⟩
  exact writable_exposureField field

lemma ModifierDecl.writable_tokens (d : ModifierDecl) : ∀ t ∈ d.tokens, t.Writable := by
  refine List.forall_mem_cons.2 ⟨trivial, ?_⟩
  cases d.value with
  | none => exact nofun
  | some value => exact List.forall_mem_cons.2 ⟨trivial, List.forall_mem_singleton.2 trivial⟩

lemma NodeDecl.writable_tokens (d : NodeDecl) : ∀ t ∈ d.tokens, t.Writable :=
  List.forall_mem_cons.2 ⟨trivial, writable_wrapped (List.forall_mem_map.2
    fun m _ => m.writable_tokens)⟩

lemma writable_archSection (layer : Layer × List ComponentDecl) :
    ∀ t ∈ archSection layer, t.Writable := by
  have hkey : isIdentifier layer.1.word = true := by
    cases layer.1 <;> rfl
  refine List.forall_mem_cons.2 ⟨hkey, List.forall_mem_cons.2 ⟨trivial, fun t ht => ?_⟩⟩
  obtain ⟨c, -, ht⟩ := List.mem_flatMap.1 ht
  exact writable_listed (List.forall_mem_map.2 fun n _ => n.writable_tokens) t ht

lemma ArchDecl.writable_tokens (d : ArchDecl) : ∀ t ∈ d.tokens, t.Writable := by
  refine List.forall_mem_append.2 ⟨?_, writable_braced (List.forall_mem_map.2 fun layer _ =>
    writable_archSection layer)⟩
  cases d.name with
  | none => exact nofun
  | some name => exact List.forall_mem_singleton.2 trivial

lemma Declaration.Writable.tokens {d : Declaration} (h : d.Writable) :
    ∀ t ∈ d.tokens, t.Writable := by
  cases d with
  | actor d => exact List.forall_mem_cons.2 ⟨trivial, ActorDecl.Writable.tokens h⟩
  | actors ds =>
      exact List.forall_mem_cons.2 ⟨trivial, writable_braced (List.forall_mem_map.2
        fun d hd => ActorDecl.Writable.tokens (h d hd))⟩
  | domain d => exact List.forall_mem_cons.2 ⟨trivial, d.writable_tokens⟩
  | domains ds =>
      exact List.forall_mem_cons.2 ⟨trivial, writable_braced (List.forall_mem_map.2
        fun d _ => d.writable_tokens)⟩
  | service d => exact List.forall_mem_cons.2 ⟨trivial, ServiceDecl.Writable.tokens h⟩
  | services ds =>
      exact List.forall_mem_cons.2 ⟨trivial, writable_braced (List.forall_mem_map.2
        fun d hd => ServiceDecl.Writable.tokens (h d hd))⟩
  | exposure d => exact List.forall_mem_cons.2 ⟨trivial, d.writable_tokens⟩
  | arch d => exact List.forall_mem_cons.2 ⟨trivial, d.writable_tokens⟩
  | useCase d => exact absurd h id

/-- **The text of a program is read as its tokens.**  They are the tokens of the declarations, with
white space between any two. -/
theorem tokensOf_written {ds : List Declaration} (h : ∀ d ∈ ds, d.Writable) :
    ∃ ts, tokensOf (written ds) = .ok ts ∧
      ts.map (·.value) = lineByLine (ds.map Declaration.tokens) := by
  have hlines := lexesTo_lines (List.forall_mem_map.2 fun d hd => (h d hd).tokens)
  rw [List.map_map] at hlines
  obtain ⟨ts, hlexed, hvalues⟩ := hlines 0
  refine ⟨ts, tokensOf_eq_ok_iff.2 ?_, hvalues⟩
  rw [written, String.toList_ofList]
  exact hlexed

end ArchLang
