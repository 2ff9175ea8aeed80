import FakeQuant.Affine
import FakeQuant.Binary.Arithmetic
import FakeQuant.Binary.Encoding
import FakeQuant.Binary.Format
import FakeQuant.Binary.Rounding
import FakeQuant.Config.Basic
import FakeQuant.Config.Yaml
import FakeQuant.Decimal.Layout
import FakeQuant.Decimal.Reading
import FakeQuant.Decimal.Shortest
import FakeQuant.Dtype
import FakeQuant.Error
import FakeQuant.Grid
import FakeQuant.Json.Decoder
import FakeQuant.Json.Form
import FakeQuant.Json.Kind
import FakeQuant.Json.Number
import FakeQuant.Json.Quoted
import FakeQuant.Json.Value
import FakeQuant.Kernel.Call
import FakeQuant.Kernel.Gradient
import FakeQuant.Mode
import FakeQuant.Observer
import FakeQuant.Place
import FakeQuant.Proofs.Acceptance
import FakeQuant.Proofs.Atomicity
import FakeQuant.Proofs.AxisFaults
import FakeQuant.Proofs.BoundaryRegimes
import FakeQuant.Proofs.Calls
import FakeQuant.Proofs.Channels
import FakeQuant.Proofs.Clamping
import FakeQuant.Proofs.ConfigurationText
import FakeQuant.Proofs.Construction
import FakeQuant.Proofs.DecimalGaps
import FakeQuant.Proofs.Dispatch
import FakeQuant.Proofs.Effect
import FakeQuant.Proofs.ErrorClasses
import FakeQuant.Proofs.FiniteArithmetic
import FakeQuant.Proofs.Forward
import FakeQuant.Proofs.GradientFactors
import FakeQuant.Proofs.GridCodes
import FakeQuant.Proofs.GridSize
import FakeQuant.Proofs.Integers
import FakeQuant.Proofs.JsonNumbers
import FakeQuant.Proofs.JsonRecords
import FakeQuant.Proofs.MissingValues
import FakeQuant.Proofs.Monotonicity
import FakeQuant.Proofs.Noninterference
import FakeQuant.Proofs.Ordering
import FakeQuant.Proofs.Outcomes
import FakeQuant.Proofs.ParameterSums
import FakeQuant.Proofs.PartialDocuments
import FakeQuant.Proofs.PartialLoads
import FakeQuant.Proofs.ReadingBack
import FakeQuant.Proofs.ReportRows
import FakeQuant.Proofs.ReportText
import FakeQuant.Proofs.Requantization
import FakeQuant.Proofs.RoundedValues
import FakeQuant.Proofs.Rounding
import FakeQuant.Proofs.Runs
import FakeQuant.Proofs.Saturation
import FakeQuant.Proofs.SavedParameters
import FakeQuant.Proofs.ScaleRegimes
import FakeQuant.Proofs.ScaleSigns
import FakeQuant.Proofs.ScaledReading
import FakeQuant.Proofs.SerializedForms
import FakeQuant.Proofs.Sessions
import FakeQuant.Proofs.SharedDictionary
import FakeQuant.Proofs.ShortestDecimals
import FakeQuant.Proofs.Slices
import FakeQuant.Proofs.SpanPrograms
import FakeQuant.Proofs.Spellings
import FakeQuant.Proofs.SquareRoots
import FakeQuant.Proofs.StorageOrder
import FakeQuant.Proofs.StraightThrough
import FakeQuant.Proofs.Success
import FakeQuant.Proofs.Trails
import FakeQuant.Proofs.TwoSteps
import FakeQuant.Proofs.Writers
import FakeQuant.Proofs.YamlKeys
import FakeQuant.Proofs.YamlLines
import FakeQuant.Proofs.YamlNumbers
import FakeQuant.Proofs.ZeroPoints
import FakeQuant.Quantizer.Basic
import FakeQuant.Quantizer.Description
import FakeQuant.Quantizer.Forward
import FakeQuant.Quantizer.InPlace
import FakeQuant.Quantizer.State
import FakeQuant.Scheme
import FakeQuant.Tensor.Basic
import FakeQuant.Tensor.Index
import FakeQuant.Tensor.Row
import FakeQuant.Tensor.View
import FakeQuant.Text.Basic
import FakeQuant.Text.Shapeless
import FakeQuant.Trace
import FakeQuant.Yaml.Anchor
import FakeQuant.Yaml.Block
import FakeQuant.Yaml.Character
import FakeQuant.Yaml.Cursor
import FakeQuant.Yaml.Document
import FakeQuant.Yaml.Node
import FakeQuant.Yaml.Plain
import FakeQuant.Yaml.Quoted
import FakeQuant.Yaml.Scalar
import FakeQuant.Yaml.Tag
import FakeQuant.Yaml.Value
