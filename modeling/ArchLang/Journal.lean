import ArchLang.Configuration
import ArchLang.Log

/-!
# What a compilation reports

The functions that compile a program only compute.  Next to them stand the functions of this file,
which say what there is to report about the same inputs, in the order in which a reader of the log
expects it: what was settled without asking (an unknown kind, a conflict, a listener without a
publisher, a caller without an answer), and how much came out of each phase.

* `entityRecords`, `mergeRecords`, `flowRecords`, `eventRecords` follow the phases.
* `compilationRecords` puts them together for a source text, `exportRecords` follows an export.
-/

namespace ArchLang

namespace Journal

/-! ## Merging -/

/-- A merge under which two languages disagree. -/
def languageConflict (policy : ConflictPolicy) (existing incoming : Service) : List LogRecord :=
  match existing.language, incoming.language with
  | some current, some other =>
    if current = other then []
    else
      [⟨.debug, .merging, "Conflicting service language",
        [("service", existing.name), ("kept", policy.choose current other),
          ("dropped", policy.choose other current)]⟩]
  | _, _ => []

/-- A merge under which two deployment kinds disagree. -/
def deploymentConflict (policy : ConflictPolicy) (existing incoming : Service) : List LogRecord :=
  match existing.deployment.kind?, incoming.deployment.kind? with
  | some current, some other =>
    if current = other then []
    else
      [⟨.debug, .merging,
        "Conflicting deployment kinds, rules of the dropped strategy are discarded",
        [("kept", policy.choose current other), ("dropped", policy.choose other current)]⟩]
  | _, _ => []

/-- What there is to report about the merge of two services. -/
def serviceConflicts (policy : ConflictPolicy) (existing incoming : Service) : List LogRecord :=
  languageConflict policy existing incoming ++ deploymentConflict policy existing incoming

/-- The conflicts of services that are merged one after another into what is there already. -/
def conflictsInto (policy : ConflictPolicy) (merged : OrderedMap String Service) :
    List Service → List LogRecord
  | [] => []
  | s :: rest =>
    ((merged.get? s.name).map fun existing => serviceConflicts policy existing s).getD [] ++
      conflictsInto policy (merged.insertWith (Service.merge policy) s.name s) rest

/-- What the merge of a program reports. -/
def mergeRecords (policy : ConflictPolicy) (entities : Entities) : List LogRecord :=
  conflictsInto policy .empty entities.services ++
    [⟨.info, .assembly, "Merged entities",
      [("domains", toString (Domain.mergeAll entities.domains).length),
        ("services", toString (Service.mergeAll policy entities.services).length),
        ("policy", policy.name)]⟩]

/-! ## Entities -/

/-- An actor of a kind that is not known. -/
def actorRecords (d : ActorDecl) : List LogRecord :=
  match ActorKind.ofKeyword? d.kind.value with
  | some _ => []
  | none =>
    [⟨.debug, .entities, "Unknown actor kind, defaulting to user",
      [("kind", d.kind.value), ("actor", d.name.value)]⟩]

/-- The conflicts between the property lines of a block, merged into what the lines before say. -/
def propertyConflicts (name : String) (before : Service) : List PropertyDecl → List LogRecord
  | [] => []
  | p :: rest =>
    serviceConflicts .firstWins before (.ofProperty name p) ++
      propertyConflicts name (before.merge .firstWins (.ofProperty name p)) rest

/-- The conflicts inside a service block. -/
def serviceRecords (d : ServiceDecl) : List LogRecord :=
  propertyConflicts d.name.value (.named d.name.value) d.properties

/-- A use case is announced. -/
def useCaseRecords (d : UseCaseDecl) : List LogRecord :=
  [⟨.trace, .entities, "Normalizing use case", [("use_case", d.name.value)]⟩]

/-- What a declaration reports. -/
def declarationRecords (d : Declaration) : List LogRecord :=
  d.actorDecls.flatMap actorRecords ++ d.serviceDecls.flatMap serviceRecords ++
    d.useCaseDecls.flatMap useCaseRecords

/-- What the split of a program into entities reports. -/
def entityRecords (declarations : List Declaration) (entities : Entities) : List LogRecord :=
  declarations.flatMap declarationRecords ++
    [⟨.debug, .entities, "Normalized declarations",
      [("actors", toString entities.actors.length), ("domains", toString entities.domains.length),
        ("services", toString entities.services.length),
        ("use_cases", toString entities.useCases.length)]⟩]

/-! ## Scenarios and events -/

/-- Callers that nobody answered. -/
def scenarioRecords (s : Scenario) : List LogRecord :=
  match (callersLeft (callersOf s.trigger) s.actions).length with
  | 0 => []
  | pending =>
    [⟨.trace, .flows, "Discarding unmatched callers",
      [("scenario", s.id), ("pending", toString pending)]⟩]

/-- What the flows of a model report. -/
def flowRecords (m : Model) : List LogRecord :=
  m.scenarios.flatMap (fun s => scenarioRecords s.2) ++
    [⟨.debug, .flows, "Resolved scenarios",
      [("flows", toString m.flows.length),
        ("service_dependencies", toString m.dependencies.length)]⟩]

/-- Events that come from a second domain, entered one after another. -/
def publisherConflicts (policy : ConflictPolicy) (known : OrderedMap String String) :
    List (String × String) → List LogRecord
  | [] => []
  | (event, domain) :: rest =>
    ((known.get? event).map fun current =>
      if current = domain then []
      else
        [⟨.warn, .events, "Event published by more than one domain",
          [("event", event), ("first", current), ("second", domain),
            ("kept", policy.choose current domain)]⟩]).getD [] ++
      publisherConflicts policy (known.insertWith policy.choose event domain) rest

/-- A listener whose event nobody publishes. -/
def listenerRecords (publishers : OrderedMap String String) (s : Scenario) : List LogRecord :=
  match s.trigger with
  | .listens domain event =>
    if (publishers.get? event).isSome then []
    else
      [⟨.debug, .events, "No publisher for event, listen dropped",
        [("event", event), ("listener", domain)]⟩]
  | _ => []

/-- What the events of a model report. -/
def eventRecords (policy : ConflictPolicy) (m : Model) : List LogRecord :=
  publisherConflicts policy .empty (notifications m.useCases) ++
    m.scenarios.flatMap (fun s => listenerRecords m.publishers s.2) ++
    [⟨.debug, .events, "Correlated events",
      [("events", toString m.publishers.size), ("links", toString m.subscriptions.length)]⟩]

/-! ## Whole runs -/

/-- What the assembly of a model reports. -/
def assemblyRecords (policies : Policies) (declarations : List Declaration) (m : Model) :
    List LogRecord :=
  let entities := Entities.ofDeclarations declarations
  entityRecords declarations entities ++ mergeRecords policies.merge entities ++
    flowRecords m ++ eventRecords policies.publishers m ++
    [⟨.info, .assembly, "Resolved flows",
      [("flows", toString m.flows.length), ("event_links", toString m.subscriptions.length)]⟩]

/-- What the compilation of a source text reports; a text with faults reports no more than that it
was looked at. -/
def compilationRecords (c : Configuration) (source : String) : List LogRecord :=
  ⟨.info, .compilation, "Parsing model", []⟩ ::
    match declarationsOf source with
    | .error _ => []
    | .ok found =>
      let declarations := found.map (·.value)
      let m := Model.ofDeclarations c.toPolicies declarations
      assemblyRecords c.toPolicies declarations m ++
        [⟨.debug, .compilation, "Model parsed successfully",
          [("use_cases", toString m.useCases.length), ("flows", toString m.flows.length)]⟩,
          ⟨.trace, .compilation, "Parsed model", []⟩]

/-- What the export of a model reports. -/
def exportRecords (c : Configuration) (format : ExportFormat) (m : Model) :
    List LogRecord :=
  match format with
  | .json =>
    [⟨.debug, .json, "Model serialized to JSON",
      [("bytes", toString (c.render .json m).utf8ByteSize), ("pretty", toString c.pretty)]⟩,
      ⟨.info, .compilation, "JSON rendered successfully", []⟩]
  | .flows =>
    [⟨.info, .compilation, "Flow listing rendered successfully",
      [("flows", toString m.flows.length)]⟩]

end Journal

end ArchLang
