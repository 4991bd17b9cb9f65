import ArchLang.Grammar.Word

/-!
# Actors, domains, services and exposures

The readers of the entities that have a name and a flat body.  Each of them comes alone, behind a
singular keyword, or many together in the braces of a plural one.

* `actor`, `domain`, `service` read one entity without its keyword.
* `property` reads one `key: value` line of a service, `exposureLine` one of an exposure.
* The `…Body` functions read what stands behind a keyword; they get the place of the keyword and
  give back the declaration with its whole span.
-/

namespace ArchLang

namespace Grammar

open ArchLang.Parser

/-! ## Actors -/

/-- The text of an actor kind.  `service` is reserved elsewhere and a kind here. -/
def actorKindOf : Token → Option String
  | .identifier kind => some kind
  | .keyword .service => some "service"
  | _ => none

/-- Read `<kind> <name>`. -/
def actor : Parser ActorDecl := do
  let kind ← label .actorKind (token actorKindOf)
  gap1
  let name ← anyName
  pure { kind, name }

instance : Consumes actor := by unfold actor; infer_instance

/-- Read an actor behind `actor`. -/
def actorBody (start : Span) : Parser (Located Declaration) := do
  gap1
  let found ← actor
  pure ⟨.actor found, start.union found.name.span⟩

/-- Read the block behind `actors`. -/
def actorsBody (start : Span) : Parser (Located Declaration) := do
  gap
  let body ← block actor
  pure ⟨.actors body.1, start.union body.2⟩

/-! ## Domains -/

/-- Read `<name> { <sub-domain> … }`. -/
def domain : Parser (Located DomainDecl) := do
  let name ← anyName
  gap
  let body ← block anyName
  pure ⟨⟨name, body.1⟩, name.span.union body.2⟩

instance : Consumes domain := by unfold domain; infer_instance

/-- Read a domain behind `domain`. -/
def domainBody (start : Span) : Parser (Located Declaration) := do
  gap1
  let found ← domain
  pure ⟨.domain found.value, start.union found.span⟩

/-- Read the block behind `domains`. -/
def domainsBody (start : Span) : Parser (Located Declaration) := do
  gap
  let body ← block domain
  pure ⟨.domains (body.1.map (·.value)), start.union body.2⟩

/-! ## Services -/

/-- The text of a percentage, with its sign. -/
def percentageOf : Token → Option String
  | .percentage digits => some (digits ++ "%")
  | _ => none

/-- Read `<percentage> -> <target>`. -/
def rule : Parser RuleDecl := do
  let percentage ← label .percentage (token percentageOf)
  around .arrow
  let target ← anyName
  pure { percentage, target }

instance : Consumes rule := by unfold rule; infer_instance

/-- Read the rules of a deployment behind their opening parenthesis. -/
def rules : Parser (List RuleDecl) := commit do
  gap
  let found ← separated rule listComma
  gap
  let _ ← mark .rightParen
  pure found

instance : Consumes rules := by unfold rules; infer_instance

/-- Read a deployment kind and, if a parenthesis follows, its rules. -/
def rollout : Parser DeploymentDecl := do
  let kind ← bareName
  let opening ← optional (gap >>= fun _ => mark .leftParen)
  match opening with
  | none => pure ⟨kind, []⟩
  | some _ => do
    let found ← rules
    pure ⟨kind, found⟩

instance : Consumes rollout := by
  unfold rollout
  have (kind : Text) (opening : Option Span) : Keeps (match opening with
      | none => pure ⟨kind, []⟩
      | some _ => do
        let found ← rules
        pure ⟨kind, found⟩ : Parser DeploymentDecl) := by
    cases opening <;> infer_instance
  infer_instance

/-- The text of the key of a property line. -/
def propertyKeyOf : Token → Option String
  | .keyword .domains => some "domains"
  | .keyword .dataStores => some "data-stores"
  | .identifier key => some key
  | _ => none

/-- Read the value of a property.  `start` is where its line began; an unknown key is rejected from
there. -/
def propertyValue (start : Tokens) (key : String) : Parser PropertyDecl :=
  if key = "domains" then names >>= fun found => pure (.domains found)
  else if key = "data-stores" then names >>= fun found => pure (.dataStores found)
  else if key = "language" then anyName >>= fun name => pure (.language name)
  else if key = "deployment" then rollout >>= fun d => pure (.deployment d)
  else reject start .knownServiceProperty

instance (start : Tokens) (key : String) : Consumes (propertyValue start key) := by
  unfold propertyValue
  repeat' split
  all_goals infer_instance

/-- Read one `key: value` line of a service. -/
def property : Parser PropertyDecl := do
  let start ← here
  let key ← label .serviceProperty (token propertyKeyOf)
  around .colon
  propertyValue start key.value

instance : Consumes property := by unfold property; infer_instance

/-- Read `<name> { <property> … }`. -/
def service : Parser (Located ServiceDecl) := do
  let name ← anyName
  gap
  let body ← block property
  pure ⟨⟨name, body.1⟩, name.span.union body.2⟩

instance : Consumes service := by unfold service; infer_instance

/-- Read a service behind `service`. -/
def serviceBody (start : Span) : Parser (Located Declaration) := do
  gap1
  let found ← service
  pure ⟨.service found.value, start.union found.span⟩

/-- Read the block behind `services`. -/
def servicesBody (start : Span) : Parser (Located Declaration) := do
  gap
  let body ← block service
  pure ⟨.services (body.1.map (·.value)), start.union body.2⟩

/-! ## Exposures -/

/-- What a line of an exposure lists. -/
inductive ExposureKey where
  | audience
  | exposed
  | gateways
  deriving DecidableEq, Repr

/-- What the key stands for. -/
def ExposureKey.ofKey? (key : String) : Option ExposureKey :=
  if key = "to" then some audience
  else if key = "of" then some exposed
  else if key = "through" then some gateways
  else none

/-- Read the names of a line, behind its key; an unknown key is rejected from `start`. -/
def exposureLineOf (start : Tokens) : Option ExposureKey → Parser (ExposureKey × List Text)
  | none => reject start .knownExposureField
  | some field => do
    around .colon
    let found ← names
    pure (field, found)

instance (start : Tokens) (field : Option ExposureKey) :
    Consumes (exposureLineOf start field) := by
  cases field <;> (unfold exposureLineOf; infer_instance)

/-- Read one line of an exposure. -/
def exposureLine : Parser (ExposureKey × List Text) := do
  let start ← here
  let key ← bareName
  exposureLineOf start (ExposureKey.ofKey? key.value)

instance : Consumes exposureLine := by unfold exposureLine; infer_instance

/-- The names of all lines for one field, in order. -/
def namesOf (field : ExposureKey) (lines : List (ExposureKey × List Text)) : List Text :=
  lines.flatMap fun line => if line.1 = field then line.2 else []

/-- Read an exposure behind `exposure`. -/
def exposureBody (start : Span) : Parser (Located Declaration) := do
  gap1
  let name ← anyName
  gap
  let body ← block exposureLine
  let fields := body.1
  pure ⟨.exposure ⟨name, namesOf .audience fields, namesOf .exposed fields,
    namesOf .gateways fields⟩, start.union body.2⟩

instance (start : Span) : Consumes (actorBody start) := by unfold actorBody; infer_instance

instance (start : Span) : Consumes (actorsBody start) := by unfold actorsBody; infer_instance

instance (start : Span) : Consumes (domainBody start) := by unfold domainBody; infer_instance

instance (start : Span) : Consumes (domainsBody start) := by unfold domainsBody; infer_instance

instance (start : Span) : Consumes (serviceBody start) := by unfold serviceBody; infer_instance

instance (start : Span) : Consumes (servicesBody start) := by unfold servicesBody; infer_instance

instance (start : Span) : Consumes (exposureBody start) := by unfold exposureBody; infer_instance

end Grammar

end ArchLang
