import ArchLang.Journal
import ArchLang.Main
import ArchLang.Proofs.FirstSeen
import ArchLang.Proofs.ServiceMerge
import ArchLang.Proofs.BlockSplitting
import ArchLang.Proofs.CallMatching
import ArchLang.Proofs.Identifiers
import ArchLang.Proofs.Listeners
import ArchLang.Proofs.Owners
import ArchLang.Proofs.Alignment
import ArchLang.Proofs.FlowShape
import ArchLang.Proofs.Visits
import ArchLang.Proofs.Publishers
import ArchLang.Proofs.Lexemes
import ArchLang.Proofs.Cutting
import ArchLang.Proofs.Truncation
import ArchLang.Proofs.Concatenation
import ArchLang.Proofs.Lookahead
import ArchLang.Proofs.NameLists
import ArchLang.Proofs.Places
import ArchLang.Proofs.Rescanning
import ArchLang.Proofs.TrailingComma
import ArchLang.Proofs.Faults
import ArchLang.Proofs.FaultLabels
import ArchLang.Proofs.LineByLine
import ArchLang.Proofs.Failing
import ArchLang.Proofs.Recalling
import ArchLang.Proofs.Labels
import ArchLang.Proofs.Reports
import ArchLang.Proofs.UseCaseBodies
import ArchLang.Proofs.LineForms
import ArchLang.Proofs.FormlessLines
import ArchLang.Proofs.Turns
import ArchLang.Proofs.Refusals
import ArchLang.Proofs.EdgeNames
import ArchLang.Proofs.Descriptions
import ArchLang.Proofs.ExplicitReturns
import ArchLang.Proofs.Wording
import ArchLang.Proofs.Listing
import ArchLang.Proofs.Writing
import ArchLang.Proofs.Keywords
import ArchLang.Proofs.SingleTokens
import ArchLang.Proofs.TextTokens
import ArchLang.Proofs.Enclosing
import ArchLang.Proofs.LineSpans
import ArchLang.Proofs.SpanOrder
import ArchLang.Proofs.RoundTrip
import ArchLang.Proofs.Independence
import ArchLang.Proofs.Spacing
import ArchLang.Proofs.Respacing
import ArchLang.Proofs.LineEnds
import ArchLang.Proofs.Unplacing
import ArchLang.Proofs.Retouching
import ArchLang.Proofs.Runs
import ArchLang.Proofs.LineTexts
import ArchLang.Proofs.Regrouping
import ArchLang.Proofs.Growth
import ArchLang.Proofs.Remerging
import ArchLang.Proofs.JsonText
import ArchLang.Proofs.ModelText
import ArchLang.Proofs.FileEffects
import ArchLang.Proofs.Running
