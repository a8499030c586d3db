import WireModel.Main
import WireModel.Proofs.Resolution
import WireModel.Schema.Draft
import WireModel.Schema.Encoder
import WireModel.Proofs.Description
import WireModel.Proofs.Acceptance
import WireModel.Proofs.References
import WireModel.Proofs.Meaning
import WireModel.Proofs.RoundTrip
import WireModel.Proofs.StatementTrees
import WireModel.Proofs.WireLines
import WireModel.Proofs.WireText
import WireModel.Proofs.JsonReading
import WireModel.Proofs.JsonNesting
import WireModel.Proofs.Documents
import WireModel.Proofs.Correspondence
import WireModel.Proofs.Construction
import WireModel.Proofs.Packages
import WireModel.Proofs.Presentation
import WireModel.Proofs.WireOnly
import WireModel.Proofs.DefinitionOrder
import WireModel.Proofs.Brackets
import WireModel.Proofs.PlainSchema
import WireModel.Proofs.ClassText
import WireModel.Proofs.Bracketing
import WireModel.Proofs.DottedNames
import WireModel.Proofs.Placement
import WireModel.Proofs.Registration
import WireModel.Proofs.Agreement
import WireModel.Proofs.ClassOrder
import WireModel.Proofs.ImportBlock
import WireModel.Proofs.Spelling
import WireModel.Proofs.EnumTables
import WireModel.Proofs.SizeHints
import WireModel.Proofs.DocumentLayout
import WireModel.Proofs.EnumerationOrder
import WireModel.Proofs.LineOrder
