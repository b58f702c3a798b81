import BlackOil.Deck.File
import BlackOil.Model
import BlackOil.Scalar.Binary64
import BlackOil.Scalar.Exact
import BlackOil.Session
import BlackOil.Proofs.Grid.Numbering
import BlackOil.Proofs.Grid.Walk
import BlackOil.Proofs.Grid.Gather
import BlackOil.Proofs.Permeability.Cell
import BlackOil.Proofs.Permeability.Store
import BlackOil.Proofs.Permeability.Face
import BlackOil.Proofs.Permeability.Exact
import BlackOil.Proofs.Permeability.Order
import BlackOil.Proofs.Saturation.Region
import BlackOil.Proofs.State.Initial
import BlackOil.Proofs.Model.Masking
import BlackOil.Proofs.Deck.Lines
import BlackOil.Proofs.Deck.Scanning
import BlackOil.Proofs.Deck.Reading
import BlackOil.Proofs.Deck.Merge
import BlackOil.Proofs.Deck.Parse
import BlackOil.Proofs.Deck.Keyword
import BlackOil.Proofs.Deck.Units
import BlackOil.Proofs.Deck.Grouping
import BlackOil.Proofs.Deck.Tables
import BlackOil.Proofs.Deck.Ignored
import BlackOil.Proofs.Deck.Places
import BlackOil.Proofs.Deck.Repeats
import BlackOil.Proofs.Deck.Faults
import BlackOil.Proofs.Grid.Visits
import BlackOil.Proofs.Permeability.History
import BlackOil.Proofs.Model.Inactive
import BlackOil.Proofs.Model.FaceLookup
import BlackOil.Proofs.Curve.Extended
import BlackOil.Proofs.Curve.Segments
import BlackOil.Proofs.Curve.Held
import BlackOil.Proofs.Curve.Monotone
import BlackOil.Proofs.Curve.Search
import BlackOil.Proofs.Saturation.Tables
import BlackOil.Proofs.Saturation.Evaluation
import BlackOil.Proofs.Saturation.Reproduction
import BlackOil.Proofs.Saturation.Range
import BlackOil.Proofs.Saturation.Assignment
import BlackOil.Proofs.Pvt.LiveOil
import BlackOil.Proofs.Pvt.Branches
import BlackOil.Proofs.Pvt.Water
import BlackOil.Proofs.Pvt.BubblePoint
import BlackOil.Proofs.Pvt.Fluids
import BlackOil.Proofs.Pvt.Reproduction
import BlackOil.Proofs.State.Composition
import BlackOil.Proofs.Model.Consistency
import BlackOil.Proofs.Model.Indexing
import BlackOil.Proofs.Model.Ambient
import BlackOil.Proofs.Model.Accessors
import BlackOil.Proofs.Model.Floor
import BlackOil.Proofs.Model.Precision
import BlackOil.Proofs.Session.Program
import BlackOil.Proofs.Session.Unwind
import BlackOil.Proofs.Model.Undefined
import BlackOil.Proofs.State.MolarMasses
import BlackOil.Proofs.Grid.Compression
import BlackOil.Proofs.Grid.Extent
import BlackOil.Proofs.Permeability.Closing
import BlackOil.Proofs.Pvt.Inverse
import BlackOil.Proofs.State.Limit
import BlackOil.Proofs.Deck.LetterCase
import BlackOil.Proofs.Saturation.Columns
import BlackOil.Proofs.Saturation.Interpolation
import BlackOil.Proofs.State.Conversion
import BlackOil.Proofs.Pvt.Acceptance
import BlackOil.Proofs.Pvt.Cellwise
import BlackOil.Proofs.Model.Bounds
import BlackOil.Proofs.Permeability.NamedCells
