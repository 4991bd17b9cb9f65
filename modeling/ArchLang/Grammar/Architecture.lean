import ArchLang.Grammar.Word

/-!
# Architectures

An architecture has two layers, and a layer is a list of components: nodes chained by `>`, each
with its modifiers in brackets.  A layer has no closing mark.  It ends at the closing brace of the
architecture or at the next section header, an identifier with a colon behind it.

* `node`, `chain` read the parts of a section, `components` all of them.
* `layer` reads a header and its components.
* `archBody` reads what stands behind `arch`.
-/

namespace ArchLang

namespace Grammar

open ArchLang.Parser

/-! ## Nodes -/

/-- The text of a modifier value. -/
def modifierValueOf : Token → Option String
  | .identifier value => some value
  | .number digits => some digits
  | .percentage digits => some (digits ++ "%")
  | .stringLiteral text => some text
  | _ => none

/-- Read `key` or `key: value`. -/
def modifier : Parser ModifierDecl := do
  let key ← anyName
  let value ← optional (around .colon >>= fun _ => label .modifierValue (token modifierValueOf))
  pure { key, value }

instance : Consumes modifier := by unfold modifier; infer_instance

/-- Read modifiers behind their opening bracket. -/
def modifiers : Parser (List ModifierDecl) := commit do
  gap
  let found ← separated modifier listComma
  gap
  let _ ← mark .rightBracket
  pure found

instance : Consumes modifiers := by unfold modifiers; infer_instance

/-- Read `[modifier, …]` on the line of a node. -/
def bracketed : Parser (List ModifierDecl) := do
  blanks
  let _ ← mark .leftBracket
  modifiers

instance : Consumes bracketed := by unfold bracketed; infer_instance

/-- Read a name and the modifiers behind it. -/
def node : Parser NodeDecl := do
  let name ← anyName
  let found ← optional bracketed
  pure ⟨name, found.getD []⟩

instance : Consumes node := by unfold node; infer_instance

/-- Read a node, or nodes chained by `>`. -/
def chain : Parser ComponentDecl := do
  let chain ← label .component (separated node (around .greater))
  pure ⟨chain⟩

instance : Consumes chain := by unfold chain; infer_instance

/-! ## Sections -/

/-- Read `<identifier> :`, the start of a section. -/
def header : Parser Text := do
  let key ← bareName
  gap
  let _ ← mark .colon
  pure key

instance : Consumes header := by unfold header; infer_instance

/-- What ends a section: the closing brace or the next header, neither of them read. -/
def sectionEnd : Parser Unit :=
  orElse (lookahead (mark .rightBrace >>= fun _ => pure ()))
    (lookahead (header >>= fun _ => pure ()))

instance : Keeps sectionEnd := by unfold sectionEnd; infer_instance

/-- Read the components of a section. -/
def components : Parser (List ComponentDecl) := do
  let found ← manyUntil Token.isTrivia sectionEnd chain
  pure found.1

instance : Keeps components := by unfold components; infer_instance

/-- The layers of an architecture. -/
inductive Layer where
  | presentation
  | gateway
  deriving DecidableEq, Repr

/-- The layer with this key. -/
def Layer.ofKey? (key : String) : Option Layer :=
  if key = "presentation" then some presentation
  else if key = "gateway" then some gateway
  else none

/-- A section under its layer; without a layer, all that was read of it is rejected. -/
def layered (start : Tokens) (components : List ComponentDecl) :
    Option Layer → Parser (Layer × List ComponentDecl)
  | some layer => pure (layer, components)
  | none => reject start .knownArchSection

instance (start : Tokens) (components : List ComponentDecl) (layer : Option Layer) :
    Keeps (layered start components layer) := by
  cases layer <;> (unfold layered; infer_instance)

/-- Read a header and the components below it. -/
def layer : Parser (Layer × List ComponentDecl) := do
  let start ← here
  let key ← header
  let found ← components
  layered start found (Layer.ofKey? key.value)

instance : Consumes layer := by unfold layer; infer_instance

/-- The components of all sections of one layer, in order. -/
def componentsOf (layer : Layer) (sections : List (Layer × List ComponentDecl)) :
    List ComponentDecl :=
  sections.flatMap fun s => if s.1 = layer then s.2 else []

/-- Read an architecture behind `arch`.  It may do without a name. -/
def archBody (start : Span) : Parser (Located Declaration) := do
  gap
  let name ← optional anyName
  gap
  let body ← block layer
  pure ⟨.arch ⟨name, componentsOf .presentation body.1, componentsOf .gateway body.1⟩,
    start.union body.2⟩

instance (start : Span) : Consumes (archBody start) := by unfold archBody; infer_instance

end Grammar

end ArchLang
