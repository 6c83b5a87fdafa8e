import StateDiagram.Main
import StateDiagram.Text.LineIndex
import StateDiagram.Proofs.Grammar
import StateDiagram.Proofs.Machine
import StateDiagram.Proofs.Reading
import StateDiagram.Proofs.Nesting
import StateDiagram.Proofs.FirstError
import StateDiagram.Proofs.Naming
import StateDiagram.Proofs.Spelling
import StateDiagram.Proofs.GraphView
import StateDiagram.Proofs.GraphReader
import StateDiagram.Proofs.NameKinds
import StateDiagram.Proofs.Normalized
import StateDiagram.Proofs.Cutting
import StateDiagram.Proofs.Diagnostics
import StateDiagram.Proofs.Concatenation
import StateDiagram.Proofs.NestingLimit
import StateDiagram.Proofs.Respacing
import StateDiagram.Proofs.Tiling
import StateDiagram.Proofs.QuotedNames
import StateDiagram.Proofs.Registrations
import StateDiagram.Proofs.Page
import StateDiagram.Proofs.DistinctKeys
import StateDiagram.Proofs.Overlay
import StateDiagram.Proofs.LastWriter
import StateDiagram.Proofs.Specs
import StateDiagram.Proofs.FirstFault
import StateDiagram.Proofs.StrayCharacters
import StateDiagram.Proofs.References
import StateDiagram.Proofs.GraphEdits
import StateDiagram.Proofs.Surroundings
import StateDiagram.Proofs.NextKinds
import StateDiagram.Proofs.UniqueReading
import StateDiagram.Proofs.StructuredTexts
import StateDiagram.Proofs.PlainListing
import StateDiagram.Proofs.Addresses
import StateDiagram.Proofs.TreeView
import StateDiagram.Proofs.LinearScan
import StateDiagram.Proofs.EntryMarker
import StateDiagram.Proofs.Descent
import StateDiagram.Proofs.DescentSteps
import StateDiagram.Proofs.Termination
