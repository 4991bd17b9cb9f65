import ArchLang.Model.Basic

/-!
# The flow listing

A plain text of all flows: for each of them a header line and one line per edge, with an empty line
between two flows.
-/

namespace ArchLang

/-- The line of an edge. -/
def Edge.line (e : Edge) : String := "  [" ++ e.kind.name ++ "] " ++ e.display ++ "\n"

/-- The lines of a flow below its header; a flow without edges says so. -/
def Flow.edgeLines (f : Flow) : List String :=
  if f.edges = [] then ["  (no edges)\n"] else f.edges.map Edge.line

/-- The header line of a flow. -/
def Flow.header (f : Flow) : String := f.useCase ++ " / " ++ f.scenarioId ++ "\n"

/-- The lines of a flow. -/
def Flow.listing (f : Flow) : String := String.join (f.header :: f.edgeLines)

/-- The listing of all flows of a model. -/
def Model.flowListing (m : Model) : String :=
  "\n".intercalate (m.flows.map Flow.listing)

end ArchLang
