import TypedColumns.Native.Vector

/-!
Chunks of vectors and results stored as lists of chunks. A stored result accepts a chunk only if its
vectors have the declared types and the rows of the chunk; an engine serves chunks unchecked.
-/
namespace TypedColumns

structure NativeChunk where
  rows : Nat
  vectors : List NativeVector

namespace NativeChunk

def checkRows (rows : Nat) : (index : Nat) → List NativeVector → Result Unit
  | _, [] => .ok ()
  | index, v :: rest =>
    if v.rows = rows then checkRows rows (index + 1) rest
    else .error (.argument (.raggedColumn index v.rows rows))

/-- A chunk of vectors with `rows` rows each. -/
def ofRows (rows : Nat) (vectors : List NativeVector) : Result NativeChunk := do
  checkRows rows 0 vectors
  return ⟨rows, vectors⟩

def firstRows : List NativeVector → Nat
  | [] => 0
  | v :: _ => v.rows

/-- A chunk of vectors with equally many rows. -/
def ofVectors (vectors : List NativeVector) : Result NativeChunk :=
  ofRows (firstRows vectors) vectors

def vector (chunk : NativeChunk) (index : Nat) : Result NativeVector :=
  match chunk.vectors[index]? with
  | some v => .ok v
  | none => .error (.indexOutOfRange index chunk.vectors.length)

end NativeChunk

structure StoredResult where
  columns : List (String × LogicalType)
  chunks : List NativeChunk

namespace StoredResult

/-- Each vector has the chunk's rows and the declared type. -/
def checkVectors (rows : Nat) : List (String × LogicalType) → List NativeVector → Result Unit
  | (name, type) :: columns, v :: vectors =>
    if v.rows ≠ rows then .error (.argument (.columnRows name v.rows rows))
    else if v.type ≠ type then .error (.argument (.columnType name v.type type))
    else checkVectors rows columns vectors
  | _, _ => .ok ()

def checkChunk (r : StoredResult) (chunk : NativeChunk) : Result Unit :=
  if chunk.vectors.length ≠ r.columns.length then
    .error (.argument (.resultWidth chunk.vectors.length r.columns.length))
  else checkVectors chunk.rows r.columns chunk.vectors

def push (r : StoredResult) (chunk : NativeChunk) : Result StoredResult := do
  r.checkChunk chunk
  return { r with chunks := r.chunks ++ [chunk] }

/-- One chunk whose vectors declare the columns. -/
def single (vectors : List (String × NativeVector)) : Result StoredResult := do
  let columns := vectors.map fun (name, v) => (name, v.type)
  push ⟨columns, []⟩ (← NativeChunk.ofVectors (vectors.map Prod.snd))

end StoredResult

/-- Declared columns, and the answers to the fetches to come. -/
structure Engine where
  columns : List (String × LogicalType)
  pending : List (Result NativeChunk)

def StoredResult.engine (r : StoredResult) : Engine := ⟨r.columns, r.chunks.map .ok⟩

end TypedColumns
