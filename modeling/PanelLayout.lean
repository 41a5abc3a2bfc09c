import PanelLayout.Main
import PanelLayout.Proofs.Grammar.Validity
import PanelLayout.Proofs.Places
import PanelLayout.Proofs.Surroundings
import PanelLayout.Proofs.Rules.Aliases
import PanelLayout.Proofs.ChildBearing
import PanelLayout.Proofs.Loosening
import PanelLayout.Proofs.MissingAttribute
import PanelLayout.Proofs.Findings.Aspects
import PanelLayout.Proofs.AttributeChange
import PanelLayout.Proofs.Findings.Distinct
import PanelLayout.Proofs.Reordering
import PanelLayout.Proofs.Repetition
import PanelLayout.Proofs.Outcome
import PanelLayout.Proofs.Rules.Merging
import PanelLayout.Proofs.Conversion.Children
import PanelLayout.Proofs.Expression.Segments
import PanelLayout.Proofs.Expression.Depth
import PanelLayout.Proofs.Expression.Nesting
import PanelLayout.Proofs.Expression.Operators
import PanelLayout.Proofs.Expression.References
import PanelLayout.Proofs.Expression.ModuleNames
import PanelLayout.Proofs.Expression.LiteralBraces
import PanelLayout.Proofs.Rules.Refusal
import PanelLayout.Proofs.Direction
import PanelLayout.Proofs.WholeNumbers
import PanelLayout.Proofs.Insertion
import PanelLayout.Proofs.Conversion.Tags
import PanelLayout.Proofs.Conversion.Shape
import PanelLayout.Proofs.Rules.KeyOrder
