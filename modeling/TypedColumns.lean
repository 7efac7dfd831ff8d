import TypedColumns.Arrow.Batch
import TypedColumns.Document.ArrowTypes
import TypedColumns.Document.Types
import TypedColumns.Document.Vectors
import TypedColumns.QueryResult
import TypedColumns.Proofs.AcceptedReads
import TypedColumns.Proofs.Agreement
import TypedColumns.Proofs.ArrowSlots
import TypedColumns.Proofs.Delivery
import TypedColumns.Proofs.EncodedTrees
import TypedColumns.Proofs.ReachableContent
import TypedColumns.Proofs.RoundTrip
import TypedColumns.Proofs.StoredValues
import TypedColumns.Proofs.ArrowElements
import TypedColumns.Proofs.ArrowReadBack
import TypedColumns.Proofs.ArrowSlices
import TypedColumns.Proofs.RowwiseReading
import TypedColumns.Proofs.StoredChildren
import TypedColumns.Proofs.DictionaryColumns
import TypedColumns.Proofs.ArrowBatches
import TypedColumns.Proofs.BitStringEquality
import TypedColumns.Proofs.BoxedAsTyped
import TypedColumns.Proofs.OptionalReads
import TypedColumns.Proofs.ContainerReads
import TypedColumns.Proofs.DecimalDigits
import TypedColumns.Proofs.PackedTimes
import TypedColumns.Proofs.StoredTimestamps
import TypedColumns.Proofs.DecimalTexts
import TypedColumns.Proofs.VarIntOrder
import TypedColumns.Proofs.VarIntTexts
import TypedColumns.Proofs.EnumColumns
import TypedColumns.Proofs.PayloadColumns
import TypedColumns.Proofs.RowFlags
import TypedColumns.Proofs.ArrowTypes
import TypedColumns.Proofs.Durations
