import FiniteElements.Decimal.Shortest
import FiniteElements.Decimal.Notation
import FiniteElements.Fault
import FiniteElements.Cell.Hypercube
import FiniteElements.Cell.EdgeKey
import FiniteElements.Dense.Matrix
import FiniteElements.Dense.Inverse
import FiniteElements.Numeric.Ieee
import FiniteElements.Numeric.Word
import FiniteElements.Basis.Lagrange
import FiniteElements.Basis.Tridiagonal
import FiniteElements.Basis.GaussLegendre
import FiniteElements.Text.Printable
import FiniteElements.Text.Case
import FiniteElements.Text.Quoted
import FiniteElements.Text.Blank
import FiniteElements.Element.Packing
import FiniteElements.Element.Mask
import FiniteElements.Element.Error
import FiniteElements.Element.DofLayout
import FiniteElements.Constraint.Layout
import FiniteElements.Constraint.Set
import FiniteElements.Constraint.Consistency
import FiniteElements.Element.Store
import FiniteElements.Element.Definition
import FiniteElements.Element.Composite
import FiniteElements.Element.Basic
import FiniteElements.Family.Continuous
import FiniteElements.Family.Discontinuous
import FiniteElements.Family.RaviartThomas
import FiniteElements.Family.Factory
import FiniteElements.Element.Support
import FiniteElements.Element.Laws
import FiniteElements.Partition
import FiniteElements.Decimal.Reading
import FiniteElements.Yaml.Token
import FiniteElements.Yaml.Scanner
import FiniteElements.Yaml.Parser
import FiniteElements.Yaml.Node
import FiniteElements.Yaml.Timestamp
import FiniteElements.Yaml.Value
import FiniteElements.Input.Shape
import FiniteElements.Input.Json
import FiniteElements.Input.Decode
import FiniteElements.Input.Parameters
import FiniteElements.Text.Columns
import FiniteElements.Command.Flags
import FiniteElements.Command.Tree
import FiniteElements.Command.Report
import FiniteElements.Command.Run
import FiniteElements.Main
import FiniteElements.Proofs.Outcome
import FiniteElements.Proofs.Layout.Counts
import FiniteElements.Proofs.Layout.Enumeration
import FiniteElements.Proofs.Composite.Blocks
import FiniteElements.Proofs.Element.Components
import FiniteElements.Proofs.Element.Assemble
import FiniteElements.Proofs.Composite.Run
import FiniteElements.Proofs.Composite.Layouts
import FiniteElements.Proofs.Element.WellFormed
import FiniteElements.Proofs.Composite.Counting
import FiniteElements.Proofs.Composite.Components
import FiniteElements.Proofs.Element.Built
import FiniteElements.Proofs.Composite.Places
import FiniteElements.Proofs.Element.ComponentIndex
import FiniteElements.Proofs.Constraint.Lines
import FiniteElements.Proofs.Constraint.Adding
import FiniteElements.Proofs.Composite.Constraints
import FiniteElements.Proofs.Element.FaceDofs
import FiniteElements.Proofs.Composite.Faces
import FiniteElements.Proofs.Numeric.Ieee
import FiniteElements.Proofs.Numeric.Word
import FiniteElements.Proofs.Element.SharedLines
import FiniteElements.Proofs.Composite.Nesting.Rows
import FiniteElements.Proofs.Composite.ShapeFunctions
import FiniteElements.Proofs.Composite.Transfer
import FiniteElements.Proofs.Numeric.Ratio
import FiniteElements.Proofs.Cell.FaceFrame
import FiniteElements.Proofs.Family.ContinuousNodes
import FiniteElements.Proofs.Element.SupportPoints
import FiniteElements.Proofs.Composite.InterfaceConstraints
import FiniteElements.Proofs.Element.FaceClosure
import FiniteElements.Proofs.Constraint.Verdict
import FiniteElements.Proofs.Element.Construction
import FiniteElements.Proofs.Element.FaceComponents
import FiniteElements.Proofs.Family.NodeGrid
import FiniteElements.Proofs.Family.Identities
import FiniteElements.Proofs.Family.Restriction
import FiniteElements.Proofs.Numeric.Product
import FiniteElements.Proofs.Numeric.Rounding
import FiniteElements.Proofs.Basis.LagrangeValues
import FiniteElements.Proofs.Family.FaceConstraints
import FiniteElements.Proofs.Layout.Offsets
import FiniteElements.Proofs.Command.Check
import FiniteElements.Proofs.Family.Names
import FiniteElements.Proofs.Element.BlockMask
import FiniteElements.Proofs.Cell.EdgeKeyPacking
import FiniteElements.Proofs.Family.TensorOrder
import FiniteElements.Proofs.Composite.Nesting.Steps
import FiniteElements.Proofs.Composite.Nesting.Blocks
import FiniteElements.Proofs.Composite.Nesting.Layouts
import FiniteElements.Proofs.Composite.Nesting.Entries
import FiniteElements.Proofs.Composite.Nesting.Inner
import FiniteElements.Proofs.Composite.Nesting.Data
import FiniteElements.Proofs.Composite.Nesting.Flatten
