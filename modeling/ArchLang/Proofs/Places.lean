import ArchLang.Proofs.Reading

/-!
# Places do not matter

Spans go into declarations and diagnostics, but no parser decides anything by them.  So one may
forget the places of all tokens before parsing or those of all declarations after it
(`declarations_unplaced`).  This is what it means that two sources give the same declarations
although their tokens stand at different places.

* `unplaced` — a value with every span replaced by the empty one at the front, for tokens,
  declarations, failures and outcomes.
* `Blind p p'` — `p'` does with unplaced tokens what `p` does, unplaced.  The two are the same
  parser but for the places that they know.
* **`declarationsOfTokens_of_unplaced_eq`** — tokens that differ in their places only are the same
  declarations but for places, or are refused under the same code.
-/

namespace ArchLang

open ArchLang.Parser ArchLang.Grammar

variable {α β : Type}

/-! ## Without places -/

/-- Values in which places can be forgotten. -/
class Placed (α : Type) where
  /-- the value with every span replaced by the empty one at the front -/
  unplaced : α → α

export Placed (unplaced)

/-- Values without places. -/
class Placeless (α : Type) [Placed α] : Prop where
  unplaced_eq : ∀ a : α, unplaced a = a

instance : Placed Unit := ⟨fun u => u⟩

instance : Placed String := ⟨fun text => text⟩

instance : Placed Token := ⟨fun t => t⟩

instance : Placed Keyword := ⟨fun k => k⟩

instance : Placed Word := ⟨fun w => w⟩

instance : Placed ExposureKey := ⟨fun k => k⟩

instance : Placed Layer := ⟨fun l => l⟩

instance {π : Type} : Placed (Trigger π) := ⟨fun t => t⟩

instance {π : Type} : Placed (Action π) := ⟨fun a => a⟩

instance {π : Type} : Placeless (Trigger π) := ⟨fun _ => rfl⟩

instance {π : Type} : Placeless (Action π) := ⟨fun _ => rfl⟩

instance : Placeless Unit := ⟨fun _ => rfl⟩

instance : Placeless String := ⟨fun _ => rfl⟩

instance : Placeless Keyword := ⟨fun _ => rfl⟩

instance : Placeless Word := ⟨fun _ => rfl⟩

instance : Placeless ExposureKey := ⟨fun _ => rfl⟩

instance : Placeless Layer := ⟨fun _ => rfl⟩

instance : Placed Span := ⟨fun _ => .origin⟩

instance [Placed α] : Placed (Located α) := ⟨fun x => ⟨unplaced x.value, unplaced x.span⟩⟩

instance [Placed α] : Placed (List α) := ⟨fun xs => xs.map unplaced⟩

instance [Placed α] : Placed (Option α) := ⟨fun o => o.map unplaced⟩

instance [Placed α] [Placed β] : Placed (α × β) := ⟨fun x => (unplaced x.1, unplaced x.2)⟩

instance : Placed ActorDecl := ⟨fun d => ⟨unplaced d.kind, unplaced d.name⟩⟩

instance : Placed DomainDecl := ⟨fun d => ⟨unplaced d.name, unplaced d.subDomains⟩⟩

instance : Placed RuleDecl := ⟨fun r => ⟨unplaced r.percentage, unplaced r.target⟩⟩

instance : Placed DeploymentDecl := ⟨fun d => ⟨unplaced d.kind, unplaced d.rules⟩⟩

instance : Placed PropertyDecl where
  unplaced
    | .domains names => .domains (unplaced names)
    | .dataStores names => .dataStores (unplaced names)
    | .language name => .language (unplaced name)
    | .deployment d => .deployment (unplaced d)

instance : Placed ServiceDecl := ⟨fun d => ⟨unplaced d.name, unplaced d.properties⟩⟩

instance : Placed ExposureDecl :=
  ⟨fun d => ⟨unplaced d.name, unplaced d.audience, unplaced d.exposed, unplaced d.gateways⟩⟩

instance : Placed ModifierDecl := ⟨fun m => ⟨unplaced m.key, unplaced m.value⟩⟩

instance : Placed NodeDecl := ⟨fun n => ⟨unplaced n.name, unplaced n.modifiers⟩⟩

instance : Placed ComponentDecl := ⟨fun c => ⟨unplaced c.chain⟩⟩

instance : Placed ArchDecl :=
  ⟨fun d => ⟨unplaced d.name, unplaced d.presentation, unplaced d.gateway⟩⟩

instance : Placed ScenarioDecl := ⟨fun s => ⟨unplaced s.trigger, unplaced s.actions⟩⟩

instance : Placed UseCaseDecl := ⟨fun d => ⟨unplaced d.name, unplaced d.scenarios⟩⟩

instance : Placed Declaration where
  unplaced
    | .actor d => .actor (unplaced d)
    | .actors ds => .actors (unplaced ds)
    | .domain d => .domain (unplaced d)
    | .domains ds => .domains (unplaced ds)
    | .service d => .service (unplaced d)
    | .services ds => .services (unplaced ds)
    | .exposure d => .exposure (unplaced d)
    | .arch d => .arch (unplaced d)
    | .useCase d => .useCase (unplaced d)

instance : Placed Failure :=
  ⟨fun e => { e with rest := unplaced e.rest, start? := unplaced e.start? }⟩

instance [Placed α] : Placed (Outcome α) where
  unplaced
    | .done a r => .done (unplaced a) (unplaced r)
    | .failed e => .failed (unplaced e)

/-! ## Parsers that look past places -/

namespace Parser

/-- Without places the parser comes to the same end.  The two are the same parser but for places
that they know. -/
class Blind [Placed α] (p p' : Parser α) : Prop where
  unplaced_eq : ∀ s, p' (unplaced s) = unplaced (p s)

section Blind

variable [Placed α] [Placed β]

lemma blind_pure {a b : α} (h : unplaced a = b) : Blind (pure a : Parser α) (pure b) :=
  ⟨fun s => by rw [← h]; rfl⟩

instance blind_here : Blind here here := ⟨fun _ => rfl⟩

instance blind_atEnd : Blind atEnd atEnd := by
  refine ⟨fun s => ?_⟩
  cases s <;> rfl

instance blind_reject (start : Tokens) (what : Expected) :
    Blind (reject start what : Parser α) (reject (unplaced start) what) :=
  ⟨fun _ => rfl⟩

lemma unplaced_located [Placeless α] (x : Located α) : unplaced x = ⟨x.value, .origin⟩ :=
  congrArg (Located.mk · Span.origin) (Placeless.unplaced_eq x.value)

instance blind_token [Placeless α] (accept : Token → Option α) :
    Blind (token accept) (token accept) := by
  refine ⟨fun s => ?_⟩
  cases s with
  | nil => rfl
  | cons x w =>
      change token accept (⟨x.value, .origin⟩ :: unplaced w) = _
      simp only [token]
      cases accept x.value with
      | none => rfl
      | some a => exact congrArg (Outcome.done · (unplaced w)) (unplaced_located ⟨a, x.span⟩).symm

lemma dropWhile_unplaced (kind : Token → Bool) (s : Tokens) :
    (unplaced s).dropWhile (fun x => kind x.value)
      = unplaced (s.dropWhile fun x => kind x.value) :=
  List.dropWhile_map

instance blind_skip (kind : Token → Bool) : Blind (skip kind) (skip kind) :=
  ⟨fun s => congrArg (Outcome.done ()) (dropWhile_unplaced kind s)⟩

lemma unplaced_of_done {p : Parser α} (p' : Parser α) [Blind p p'] {s r : Tokens} {a : α}
    (h : p s = .done a r) : p' (unplaced s) = .done (unplaced a) (unplaced r) :=
  (Blind.unplaced_eq s).trans (congrArg unplaced h)

lemma unplaced_of_failed {p : Parser α} (p' : Parser α) [Blind p p'] {s : Tokens} {e : Failure}
    (h : p s = .failed e) : p' (unplaced s) = .failed (unplaced e) :=
  (Blind.unplaced_eq s).trans (congrArg unplaced h)

instance blind_bind (p p' : Parser α) (f f' : α → Parser β) [Blind p p']
    [∀ a, Blind (f a) (f' (unplaced a))] : Blind (p >>= f) (p' >>= f') := by
  refine ⟨fun s => ?_⟩
  cases hs : p s with
  | done a r =>
      rw [bind_of_done f hs, bind_of_done f' (unplaced_of_done p' hs)]
      exact Blind.unplaced_eq (p := f a) r
  | failed e =>
      rw [bind_of_failed f hs, bind_of_failed f' (unplaced_of_failed p' hs)]
      rfl

instance blind_label (what : Expected) (p p' : Parser α) [Blind p p'] :
    Blind (label what p) (label what p') := by
  refine ⟨fun s => ?_⟩
  cases hs : p s with
  | done a r =>
      rw [label_done.2 hs, label_done.2 (unplaced_of_done p' hs)]
      rfl
  | failed e =>
      rw [label_of_failed what hs, label_of_failed what (unplaced_of_failed p' hs)]
      rfl

instance blind_commit (p p' : Parser α) [Blind p p'] : Blind (commit p) (commit p') := by
  refine ⟨fun s => ?_⟩
  cases hs : p s with
  | done a r =>
      rw [commit_done.2 hs, commit_done.2 (unplaced_of_done p' hs)]
      rfl
  | failed e =>
      rw [commit_of_failed hs, commit_of_failed (unplaced_of_failed p' hs)]
      obtain ⟨c, what, rest, start?⟩ := e
      cases start? <;> rfl

instance blind_optional (p p' : Parser α) [Blind p p'] : Blind (optional p) (optional p') := by
  refine ⟨fun s => ?_⟩
  cases hs : p s with
  | done a r =>
      rw [optional_of_done hs, optional_of_done (unplaced_of_done p' hs)]
      rfl
  | failed e =>
      have hs' := unplaced_of_failed p' hs
      cases he : e.committed with
      | true =>
          rw [optional_of_committed hs he, optional_of_committed hs' he]
          rfl
      | false =>
          rw [optional_of_open hs he, optional_of_open hs' he]
          rfl

instance blind_orElse (p p' q q' : Parser α) [Blind p p'] [Blind q q'] :
    Blind (orElse p q) (orElse p' q') := by
  refine ⟨fun s => ?_⟩
  cases hs : p s with
  | done a r =>
      rw [orElse_of_done hs, orElse_of_done (unplaced_of_done p' hs)]
      rfl
  | failed e =>
      have hs' := unplaced_of_failed p' hs
      cases he : e.committed with
      | true =>
          rw [orElse_of_committed hs he, orElse_of_committed hs' he]
          rfl
      | false =>
          cases hq : q s with
          | done a r =>
              rw [orElse_of_open_done hs he hq,
                orElse_of_open_done hs' he (unplaced_of_done q' hq)]
              rfl
          | failed e₂ =>
              have hq' := unplaced_of_failed q' hq
              cases he₂ : e₂.committed with
              | true =>
                  rw [orElse_of_open_committed hs he hq he₂,
                    orElse_of_open_committed hs' he hq' he₂]
                  rfl
              | false =>
                  rw [orElse_of_open_open hs he hq he₂, orElse_of_open_open hs' he hq' he₂]
                  rfl

instance blind_lookahead (p p' : Parser α) [Blind p p'] : Blind (lookahead p) (lookahead p') := by
  refine ⟨fun s => ?_⟩
  cases hs : p s with
  | done a r =>
      rw [lookahead_of_done hs, lookahead_of_done (unplaced_of_done p' hs)]
      rfl
  | failed e =>
      have hs' := unplaced_of_failed p' hs
      cases he : e.committed with
      | true =>
          rw [lookahead_of_committed hs he, lookahead_of_committed hs' he]
          rfl
      | false =>
          rw [lookahead_of_open hs he, lookahead_of_open hs' he]
          rfl

instance blind_many (item : Parser α) [Consumes item] [Blind item item] :
    Blind (many item) (many item) := by
  refine ⟨fun s => ?_⟩
  induction hlen : s.length using Nat.strong_induction_on generalizing s with
  | _ k ih =>
      cases hs : item s with
      | done a r =>
          rw [many_of_done item hs, many_of_done item (unplaced_of_done item hs),
            ih r.length (hlen ▸ Consumes.lt hs) r rfl]
          cases many item r <;> rfl
      | failed e =>
          rw [many_of_failed item hs, many_of_failed item (unplaced_of_failed item hs)]
          obtain ⟨c, what, rest, start?⟩ := e
          cases c <;> rfl

instance blind_manyUntil (stop : Parser β) (item : Parser α) [Consumes item] [Blind stop stop]
    [Blind item item] :
    Blind (manyUntil Token.isTrivia stop item) (manyUntil Token.isTrivia stop item) := by
  refine ⟨fun s => ?_⟩
  induction hlen : s.length using Nat.strong_induction_on generalizing s with
  | _ k ih =>
      have hd := dropWhile_unplaced Token.isTrivia s
      cases hs : stop (s.dropWhile fun t => t.value.isTrivia) with
      | done b r =>
          rw [manyUntil_of_stop item stop rfl hs,
            manyUntil_of_stop item stop hd (unplaced_of_done stop hs)]
          rfl
      | failed e =>
          have hs' := unplaced_of_failed stop hs
          cases he : e.committed with
          | true =>
              rw [manyUntil_of_committed item stop rfl hs he,
                manyUntil_of_committed item stop hd hs' he]
              rfl
          | false =>
              cases hi : item (s.dropWhile fun t => t.value.isTrivia) with
              | failed e' =>
                  rw [manyUntil_of_failed item stop rfl hs he hi,
                    manyUntil_of_failed item stop hd hs' he (unplaced_of_failed item hi)]
                  rfl
              | done a r =>
                  have hlt : r.length < k := hlen ▸ length_lt_of_dropWhile item hi
                  rw [manyUntil_of_done item stop rfl hs he hi,
                    manyUntil_of_done item stop hd hs' he (unplaced_of_done item hi),
                    ih r.length hlt r rfl]
                  cases manyUntil Token.isTrivia stop item r <;> rfl

instance blind_separated (item : Parser α) (separator : Parser β) [Consumes item]
    [Keeps separator] [Blind item item] [Blind separator separator] :
    Blind (separated item separator) (separated item separator) := by
  have (first : α) (others : List α) : Blind (pure (first :: others) : Parser (List α))
      (pure (unplaced first :: unplaced others)) := blind_pure rfl
  unfold separated
  infer_instance

end Blind

end Parser

/-! ## The grammar -/

namespace Grammar

instance blind_exactly (what : Expected) (kind : Token → Bool) :
    Blind (exactly what kind) (exactly what kind) := by
  have (t : Located Unit) : Blind (pure t.span : Parser Span) (pure (unplaced t).span) :=
    blind_pure rfl
  unfold exactly
  infer_instance

instance (m : Mark) : Blind (mark m) (mark m) := blind_exactly _ _

instance (k : Keyword) : Blind (keyword k) (keyword k) := blind_exactly _ _

instance : Blind lineBreak lineBreak := blind_exactly _ _

instance : Blind anyName anyName := by unfold anyName; infer_instance

instance : Blind bareName bareName := by unfold bareName; infer_instance

instance : Blind gap gap := blind_skip _

instance : Blind blanks blanks := blind_skip _

instance : Blind gap1 gap1 := by unfold gap1; infer_instance

instance (m : Mark) : Blind (around m) (around m) := by unfold around; infer_instance

instance : Blind names names := by
  have (found : List Text) : Blind (pure found : Parser (List Text)) (pure (unplaced found)) :=
    blind_pure rfl
  unfold names listComma
  infer_instance

instance [Placed α] (item : Parser α) [Consumes item] [Blind item item] :
    Blind (block item) (block item) := by
  have (opening : Span) (body : List α × Span) :
      Blind (pure (body.1, opening.union body.2) : Parser (List α × Span))
        (pure ((unplaced body).1, (unplaced opening).union (unplaced body).2)) := blind_pure rfl
  unfold block
  infer_instance

/-! ### Entities -/

instance : Blind actor actor := by
  have (kind name : Text) : Blind (pure ⟨kind, name⟩ : Parser ActorDecl)
      (pure ⟨unplaced kind, unplaced name⟩) := blind_pure rfl
  unfold actor
  infer_instance

instance : Blind domain domain := by
  have (name : Text) (body : List Text × Span) :
      Blind (pure ⟨⟨name, body.1⟩, name.span.union body.2⟩ : Parser (Located DomainDecl))
        (pure ⟨⟨unplaced name, (unplaced body).1⟩, (unplaced name).span.union (unplaced body).2⟩) :=
    blind_pure rfl
  unfold domain
  infer_instance

instance : Blind rule rule := by
  have (percentage target : Text) : Blind (pure ⟨percentage, target⟩ : Parser RuleDecl)
      (pure ⟨unplaced percentage, unplaced target⟩) := blind_pure rfl
  unfold rule
  infer_instance

instance : Blind rules rules := by
  have (found : List RuleDecl) : Blind (pure found : Parser (List RuleDecl))
      (pure (unplaced found)) := blind_pure rfl
  unfold rules listComma
  infer_instance

instance (kind : Text) (opening : Option Span) :
    Blind (rulesBehind kind opening) (rulesBehind (unplaced kind) (unplaced opening)) := by
  cases opening with
  | none => exact blind_pure rfl
  | some _ =>
      have (found : List RuleDecl) : Blind (pure ⟨kind, found⟩ : Parser DeploymentDecl)
          (pure ⟨unplaced kind, unplaced found⟩) := blind_pure rfl
      exact blind_bind rules rules _ _

instance : Blind rollout rollout := by rw [rollout_eq]; infer_instance

instance (start : Tokens) (key : String) :
    Blind (propertyValue start key) (propertyValue (unplaced start) key) := by
  have (found : List Text) : Blind (pure (.domains found) : Parser PropertyDecl)
      (pure (.domains (unplaced found))) := blind_pure rfl
  have (found : List Text) : Blind (pure (.dataStores found) : Parser PropertyDecl)
      (pure (.dataStores (unplaced found))) := blind_pure rfl
  have (name : Text) : Blind (pure (.language name) : Parser PropertyDecl)
      (pure (.language (unplaced name))) := blind_pure rfl
  have (d : DeploymentDecl) : Blind (pure (.deployment d) : Parser PropertyDecl)
      (pure (.deployment (unplaced d))) := blind_pure rfl
  unfold propertyValue
  split_ifs <;> infer_instance

instance : Blind property property := by
  have (start : Tokens) (key : Text) : Blind (propertyValue start key.value)
      (propertyValue (unplaced start) (unplaced key).value) := inferInstance
  unfold property
  infer_instance

instance : Blind service service := by
  have (name : Text) (body : List PropertyDecl × Span) :
      Blind (pure ⟨⟨name, body.1⟩, name.span.union body.2⟩ : Parser (Located ServiceDecl))
        (pure ⟨⟨unplaced name, (unplaced body).1⟩, (unplaced name).span.union (unplaced body).2⟩) :=
    blind_pure rfl
  unfold service
  infer_instance

instance (start : Tokens) (field : Option ExposureKey) :
    Blind (exposureLineOf start field) (exposureLineOf (unplaced start) field) := by
  cases field with
  | none => unfold exposureLineOf; infer_instance
  | some field =>
      have (found : List Text) : Blind (pure (field, found) : Parser (ExposureKey × List Text))
          (pure (field, unplaced found)) := blind_pure rfl
      unfold exposureLineOf
      infer_instance

instance : Blind exposureLine exposureLine := by
  have (start : Tokens) (key : Text) : Blind (exposureLineOf start (ExposureKey.ofKey? key.value))
      (exposureLineOf (unplaced start) (ExposureKey.ofKey? (unplaced key).value)) := inferInstance
  unfold exposureLine
  infer_instance

/-! ### Architectures -/

instance : Blind modifier modifier := by
  have (key : Text) (value : Option Text) : Blind (pure ⟨key, value⟩ : Parser ModifierDecl)
      (pure ⟨unplaced key, unplaced value⟩) := blind_pure rfl
  unfold modifier
  infer_instance

instance : Blind modifiers modifiers := by
  have (found : List ModifierDecl) : Blind (pure found : Parser (List ModifierDecl))
      (pure (unplaced found)) := blind_pure rfl
  unfold modifiers listComma
  infer_instance

instance : Blind bracketed bracketed := by unfold bracketed; infer_instance

instance : Blind node node := by
  have (name : Text) (found : Option (List ModifierDecl)) :
      Blind (pure ⟨name, found.getD []⟩ : Parser NodeDecl)
        (pure ⟨unplaced name, (unplaced found).getD []⟩) := by
    cases found <;> exact blind_pure rfl
  unfold node
  infer_instance

instance : Blind chain chain := by
  have (nodes : List NodeDecl) : Blind (pure ⟨nodes⟩ : Parser ComponentDecl)
      (pure ⟨unplaced nodes⟩) := blind_pure rfl
  unfold chain
  infer_instance

instance : Blind header header := by
  have (key : Text) : Blind (pure key : Parser Text) (pure (unplaced key)) := blind_pure rfl
  unfold header
  infer_instance

instance : Blind sectionEnd sectionEnd := by
  have : Blind (pure () : Parser Unit) (pure ()) := blind_pure rfl
  unfold sectionEnd
  infer_instance

instance : Blind components components := by
  have (found : List ComponentDecl × Unit) : Blind (pure found.1 : Parser (List ComponentDecl))
      (pure (unplaced found).1) := blind_pure rfl
  unfold components
  infer_instance

instance (start : Tokens) (components : List ComponentDecl) (layer : Option Layer) :
    Blind (layered start components layer)
      (layered (unplaced start) (unplaced components) layer) := by
  cases layer with
  | none => unfold layered; infer_instance
  | some layer => exact blind_pure rfl

instance : Blind layer layer := by
  have (start : Tokens) (key : Text) (components : List ComponentDecl) :
      Blind (layered start components (Layer.ofKey? key.value))
        (layered (unplaced start) (unplaced components) (Layer.ofKey? (unplaced key).value)) :=
    inferInstance
  unfold layer
  infer_instance

/-! ### Use cases -/

instance : Blind lineWord lineWord := by unfold lineWord; infer_instance

instance : Blind endOfLine endOfLine := by
  have : Blind (pure () : Parser Unit) (pure ()) := blind_pure rfl
  unfold endOfLine
  infer_instance

instance : Blind words words := by
  have (first : Located Word) (others : List (Located Word)) :
      Blind (pure (first :: others) : Parser (List (Located Word)))
        (pure (unplaced first :: unplaced others)) := blind_pure rfl
  unfold words
  infer_instance

lemma map_value_unplaced (line : List (Located Word)) :
    (unplaced line).map (·.value) = line.map (·.value) :=
  List.map_map.trans rfl

lemma foldl_union_unplaced (spans : List Span) :
    (unplaced spans).foldl Span.union .origin = .origin := by
  induction spans with
  | nil => rfl
  | cons s spans ih => exact ih

lemma spanOf_unplaced (line : List (Located Word)) : spanOf (unplaced line) = .origin := by
  cases line with
  | nil => rfl
  | cons w line =>
      have hspans : (unplaced line).map (·.span) = unplaced (line.map (·.span)) := by
        change (line.map unplaced).map _ = (line.map _).map unplaced
        rw [List.map_map, List.map_map]
        rfl
      change ((unplaced line).map (·.span)).foldl Span.union .origin = .origin
      rw [hspans, foldl_union_unplaced]

instance {α : Type} [Placed α] [Placeless α] (start : Tokens) (what : Expected) (span : Span)
    (form : Option α) :
    Blind (classified start what span form) (classified (unplaced start) what .origin form) := by
  cases form with
  | none => unfold classified; infer_instance
  | some form => exact blind_pure (unplaced_located ⟨form, span⟩)

instance (start : Span) : Blind (triggerBody start) (triggerBody (unplaced start)) := by
  have (first : Tokens) (line : List (Located Word)) : Blind
      (classified first .triggerForm (start.union (spanOf line)) (triggerOf (line.map (·.value))))
      (classified (unplaced first) .triggerForm ((unplaced start).union (spanOf (unplaced line)))
        (triggerOf ((unplaced line).map (·.value)))) := by
    rw [spanOf_unplaced, map_value_unplaced]
    exact inferInstanceAs (Blind _ (classified (unplaced first) .triggerForm .origin _))
  unfold triggerBody
  infer_instance

instance : Blind trigger trigger := by unfold trigger; infer_instance

instance : Blind action action := by
  have (first : Tokens) (line : List (Located Word)) : Blind
      (classified first .actionForm (spanOf line) (actionOf (line.map (·.value))))
      (classified (unplaced first) .actionForm (spanOf (unplaced line))
        (actionOf ((unplaced line).map (·.value)))) := by
    rw [spanOf_unplaced, map_value_unplaced]
    infer_instance
  unfold action
  infer_instance

instance : Blind scenarioEnd scenarioEnd := by
  have : Blind (pure () : Parser Unit) (pure ()) := blind_pure rfl
  unfold scenarioEnd
  infer_instance

instance : Blind scenario scenario := by
  have (opening : Located (Trigger (List String)))
      (below : List (Located (Action (List String))) × Unit) :
      Blind (pure ⟨opening, below.1⟩ : Parser ScenarioDecl)
        (pure ⟨unplaced opening, (unplaced below).1⟩) := blind_pure rfl
  unfold scenario
  infer_instance

/-! ### Declarations -/

instance (start : Span) : Blind (actorsBody start) (actorsBody (unplaced start)) := by
  have (body : List ActorDecl × Span) :
      Blind (pure ⟨.actors body.1, start.union body.2⟩ : Parser (Located Declaration))
        (pure ⟨.actors (unplaced body).1, (unplaced start).union (unplaced body).2⟩) :=
    blind_pure rfl
  unfold actorsBody
  infer_instance

instance (start : Span) : Blind (actorBody start) (actorBody (unplaced start)) := by
  have (found : ActorDecl) :
      Blind (pure ⟨.actor found, start.union found.name.span⟩ : Parser (Located Declaration))
        (pure ⟨.actor (unplaced found), (unplaced start).union (unplaced found).name.span⟩) :=
    blind_pure rfl
  unfold actorBody
  infer_instance

lemma map_value_located [Placed α] (found : List (Located α)) :
    (unplaced found).map (·.value) = unplaced (found.map (·.value)) := by
  change (found.map unplaced).map _ = (found.map _).map unplaced
  rw [List.map_map, List.map_map]
  rfl

instance (start : Span) : Blind (domainsBody start) (domainsBody (unplaced start)) := by
  have (body : List (Located DomainDecl) × Span) :
      Blind (pure ⟨.domains (body.1.map (·.value)), start.union body.2⟩ :
          Parser (Located Declaration))
        (pure ⟨.domains ((unplaced body).1.map (·.value)),
          (unplaced start).union (unplaced body).2⟩) := by
    refine blind_pure ?_
    change _ = Located.mk (Declaration.domains ((unplaced body.1).map (·.value))) _
    rw [map_value_located]
    rfl
  unfold domainsBody
  infer_instance

instance (start : Span) : Blind (domainBody start) (domainBody (unplaced start)) := by
  have (found : Located DomainDecl) :
      Blind (pure ⟨.domain found.value, start.union found.span⟩ : Parser (Located Declaration))
        (pure ⟨.domain (unplaced found).value, (unplaced start).union (unplaced found).span⟩) :=
    blind_pure rfl
  unfold domainBody
  infer_instance

instance (start : Span) : Blind (servicesBody start) (servicesBody (unplaced start)) := by
  have (body : List (Located ServiceDecl) × Span) :
      Blind (pure ⟨.services (body.1.map (·.value)), start.union body.2⟩ :
          Parser (Located Declaration))
        (pure ⟨.services ((unplaced body).1.map (·.value)),
          (unplaced start).union (unplaced body).2⟩) := by
    refine blind_pure ?_
    change _ = Located.mk (Declaration.services ((unplaced body.1).map (·.value))) _
    rw [map_value_located]
    rfl
  unfold servicesBody
  infer_instance

instance (start : Span) : Blind (serviceBody start) (serviceBody (unplaced start)) := by
  have (found : Located ServiceDecl) :
      Blind (pure ⟨.service found.value, start.union found.span⟩ : Parser (Located Declaration))
        (pure ⟨.service (unplaced found).value, (unplaced start).union (unplaced found).span⟩) :=
    blind_pure rfl
  unfold serviceBody
  infer_instance

/-- What lines hold for one key. -/
lemma flatMap_unplaced {κ : Type} [DecidableEq κ] [Placed κ] [Placeless κ] [Placed α] (k : κ)
    (lines : List (κ × List α)) :
    ((unplaced lines).flatMap fun line => if line.1 = k then line.2 else [])
      = unplaced (lines.flatMap fun line => if line.1 = k then line.2 else []) := by
  induction lines with
  | nil => rfl
  | cons line lines ih =>
      change (if unplaced line.1 = k then unplaced line.2 else [])
          ++ List.flatMap _ (unplaced lines)
        = List.map unplaced ((if line.1 = k then line.2 else []) ++ List.flatMap _ lines)
      rw [ih, List.map_append, Placeless.unplaced_eq]
      split_ifs <;> rfl

instance (start : Span) : Blind (exposureBody start) (exposureBody (unplaced start)) := by
  have (name : Text) (body : List (ExposureKey × List Text) × Span) :
      Blind (pure ⟨.exposure ⟨name, namesOf .audience body.1, namesOf .exposed body.1,
            namesOf .gateways body.1⟩, start.union body.2⟩ : Parser (Located Declaration))
        (pure ⟨.exposure ⟨unplaced name, namesOf .audience (unplaced body).1,
            namesOf .exposed (unplaced body).1, namesOf .gateways (unplaced body).1⟩,
          (unplaced start).union (unplaced body).2⟩) := by
    have hnames : ∀ field, namesOf field (unplaced body).1 = unplaced (namesOf field body.1) :=
      fun field => flatMap_unplaced field body.1
    rw [hnames, hnames, hnames]
    exact blind_pure rfl
  unfold exposureBody
  infer_instance

instance (start : Span) : Blind (archBody start) (archBody (unplaced start)) := by
  have (name : Option Text) (body : List (Layer × List ComponentDecl) × Span) :
      Blind (pure ⟨.arch ⟨name, componentsOf .presentation body.1, componentsOf .gateway body.1⟩,
            start.union body.2⟩ : Parser (Located Declaration))
        (pure ⟨.arch ⟨unplaced name, componentsOf .presentation (unplaced body).1,
            componentsOf .gateway (unplaced body).1⟩,
          (unplaced start).union (unplaced body).2⟩) := by
    have hcomponents : ∀ layer,
        componentsOf layer (unplaced body).1 = unplaced (componentsOf layer body.1) :=
      fun layer => flatMap_unplaced layer body.1
    rw [hcomponents, hcomponents]
    exact blind_pure rfl
  unfold archBody
  infer_instance

instance (start : Span) : Blind (useCaseBody start) (useCaseBody (unplaced start)) := by
  have (name : Text) (body : List ScenarioDecl × Span) :
      Blind (pure ⟨.useCase ⟨name, body.1⟩, start.union body.2⟩ : Parser (Located Declaration))
        (pure ⟨.useCase ⟨unplaced name, (unplaced body).1⟩,
          (unplaced start).union (unplaced body).2⟩) := blind_pure rfl
  unfold useCaseBody
  infer_instance

instance (start : Span) (k : Keyword) :
    Blind (declarationBody start k) (declarationBody (unplaced start) k) := by
  cases k <;> (unfold declarationBody; infer_instance)

instance : Blind declaration declaration := by
  have (opening : Located Keyword) : Blind (declarationBody opening.span opening.value)
      (declarationBody (unplaced opening).span (unplaced opening).value) :=
    inferInstanceAs (Blind _ (declarationBody (unplaced opening.span) opening.value))
  unfold declaration
  infer_instance

instance : Blind declarations declarations := by
  have (found : List (Located Declaration) × Unit) :
      Blind (pure found.1 : Parser (List (Located Declaration))) (pure (unplaced found).1) :=
    blind_pure rfl
  unfold declarations
  infer_instance

end Grammar

lemma blank_unplaced {s : Tokens} : Blank (unplaced s) ↔ Blank s :=
  List.forall_mem_map

/-- The code of a diagnostic depends on nothing but whether anything that counts is left. -/
lemma Failure.code_eq (f f' : Failure) (h : Blank f.rest ↔ Blank f'.rest) (s s' : Tokens) :
    (f.diagnostic s).code = (f'.diagnostic s').code := by
  by_cases hf : Blank f.rest
  · rw [Failure.code_of_blank hf, Failure.code_of_blank (h.1 hf)]
  · rw [Failure.code_of_not_blank hf, Failure.code_of_not_blank (mt h.2 hf)]

/-- Forgetting places and reading commute. -/
theorem declarations_unplaced (s : Tokens) :
    declarations (unplaced s) = unplaced (declarations s) := Blind.unplaced_eq s

/-- Tokens that differ in their places only are declarations that differ in their places only, or
are refused under the same code. -/
theorem declarationsOfTokens_of_unplaced_eq {s s' : Tokens} (h : unplaced s = unplaced s') :
    (∀ ds, declarationsOfTokens s = .ok ds →
      ∃ ds', declarationsOfTokens s' = .ok ds' ∧ unplaced ds' = unplaced ds) ∧
    ∀ d, declarationsOfTokens s = .error d →
      ∃ d', declarationsOfTokens s' = .error d' ∧ d'.code = d.code := by
  have hread : unplaced (declarations s) = unplaced (declarations s') := by
    rw [← declarations_unplaced, h, declarations_unplaced]
  unfold declarationsOfTokens
  cases hs : declarations s with
  | done ds r =>
      cases hs' : declarations s' with
      | failed f => rw [hs, hs'] at hread; cases hread
      | done ds' r' =>
          rw [hs, hs'] at hread
          injection hread with hds
          exact ⟨fun _ h => ⟨ds', rfl, Except.ok.inj h ▸ hds.symm⟩, fun _ h => (nomatch h)⟩
  | failed f =>
      cases hs' : declarations s' with
      | done ds' r' => rw [hs, hs'] at hread; cases hread
      | failed f' =>
          rw [hs, hs'] at hread
          injection hread with hf
          have hblank : Blank f'.rest ↔ Blank f.rest := by
            rw [← blank_unplaced, ← blank_unplaced (s := f.rest)]
            exact iff_of_eq (congrArg (fun f : Failure => Blank f.rest) hf.symm)
          exact ⟨fun _ h => (nomatch h), fun _ h =>
            ⟨_, rfl, Except.error.inj h ▸ Failure.code_eq f' f hblank _ _⟩⟩

end ArchLang
