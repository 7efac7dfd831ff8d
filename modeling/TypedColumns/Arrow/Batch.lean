import TypedColumns.Arrow.ToVector
import TypedColumns.Native.Chunk

/-!
Record batches as chunks, and lists of batches as results. The first batch decides the column types,
because only arrays carry the names of dictionaries; without batches the schema's types have to do.
-/
namespace TypedColumns.Arrow

structure Batch where
  /-- Rows of every column; a batch without columns has rows too. -/
  rows : Nat
  columns : List PhysicalArray

namespace Batch

def vectors (batch : Batch) : Result (List NativeVector) :=
  batch.columns.mapM PhysicalArray.toVector

/-- A chunk counts the rows of its vectors, so that one without vectors has none. -/
def toChunk (batch : Batch) : Result NativeChunk := do NativeChunk.ofVectors (← batch.vectors)

def checkWidth (fields : List (String × DataType)) (batch : Batch) : Result Unit :=
  if batch.columns.length = fields.length then .ok ()
  else .error (.arrow (.batchWidth batch.columns.length fields.length))

def namedType (name : String) (type : Result LogicalType) : Result (String × LogicalType) :=
  type.map fun type => (name, type)

/-- The declared columns of a result over `batches`. -/
def columnTypes (fields : List (String × DataType)) (batches : List Batch) :
    Result (List (String × LogicalType)) :=
  match batches with
  | [] => fields.mapM fun (name, type) => namedType name type.toLogical
  | first :: _ => do
    first.checkWidth fields
    (fields.zip first.columns).mapM fun ((name, _), a) => namedType name a.logicalType

/-- The vectors have the declared types. -/
def checkTypes (number : Nat) : List (String × LogicalType) → List NativeVector → Result Unit
  | (name, type) :: columns, v :: vectors =>
    if v.type = type then checkTypes number columns vectors
    else .error (.argument (.batchType number name v.type type))
  | _, _ => .ok ()

/-- Appends a chunk for each batch, counted from `number`. -/
def pushAll (fields : List (String × DataType)) :
    (number : Nat) → StoredResult → List Batch → Result StoredResult
  | _, r, [] => .ok r
  | number, r, batch :: rest => do
    batch.checkWidth fields
    let vectors ← batch.vectors
    checkTypes number r.columns vectors
    pushAll fields (number + 1) (← r.push (← NativeChunk.ofVectors vectors)) rest

def toResult (fields : List (String × DataType)) (batches : List Batch) :
    Result StoredResult := do
  pushAll fields 0 ⟨← columnTypes fields batches, []⟩ batches

end Batch
end TypedColumns.Arrow
