import TypedColumns.ConverterCache
import TypedColumns.Native.Chunk
import TypedColumns.Schema

/-!
Chunks with named columns and the reads of a column. A read takes the column and its converter from
the caches of the chunk, and from the plans of its result when the two share them.
-/
namespace TypedColumns

structure ReaderConfig where
  /-- Bound converters are remembered. -/
  cacheConverters : Bool := true
  /-- Chunks use the plans of their result. -/
  sharePlans : Bool := true
deriving DecidableEq

def ReaderConfig.describe (config : ReaderConfig) : String :=
  s!"ReaderConfig \x7b cache_converters: {config.cacheConverters}, " ++
    s!"share_plans: {config.sharePlans} \x7d"

/-- What is read of a column. -/
inductive Read where
  | get (t : Target) (row : Nat)
  /-- A missing element gives the missing value. -/
  | getOrDefault (t : Target) (row : Nat)
  | tryGet (t : Target) (row : Nat)
  /-- Boxed in the variant of a target chosen at run time. -/
  | getAs (t : Target) (row : Nat)
  /-- Every row up to the first error. -/
  | values (t : Target)

namespace Read

def key : Read → CacheKey
  | get t _ | getOrDefault t _ | tryGet t _ | values t => .typed t
  | getAs t _ => .variant t

@[reducible] def Answer : Read → Type
  | get t _ | getOrDefault t _ => t.Host
  | tryGet t _ => Option t.Host
  | getAs _ _ => Value
  | values t => List t.Host

def answer (view : ColumnView) : (r : Read) → Converter r.key.carrier → Result r.Answer
  | get _ row, conv => conv.convert view row true
  | getOrDefault _ row, conv => conv.convert view row false
  | tryGet _ row, conv => conv.tryConvert view row
  | getAs _ row, conv => conv.convert view row true
  | values _, conv => (List.range view.rows).mapM fun row => conv.convert view row true

/-- The answer without any cache. -/
def direct (view : ColumnView) (r : Read) : Result r.Answer := do
  let plan ← r.key.resolve view.column
  r.answer view (← plan.prepare view)

end Read

/-- For every column, what it was opened as, none if it has not been opened yet. -/
structure ViewCache where
  slots : List (Option ColumnView)

namespace ViewCache

def empty (columns : Nat) : ViewCache := ⟨List.replicate columns none⟩

/-- The column as it was opened, or as it is opened and remembered now. -/
def obtain (cache : ViewCache) (index : Nat) (build : Unit → Result ColumnView) :
    Result ColumnView × ViewCache :=
  match cache.slots[index]? with
  | none => (.error (.indexOutOfRange index cache.slots.length), cache)
  | some (some view) => (.ok view, cache)
  | some none => match build () with
    | .ok view => (.ok view, ⟨cache.slots.set index (some view)⟩)
    | .error e => (.error e, cache)

end ViewCache

structure DataChunk where
  native : NativeChunk
  schema : Schema
  config : ReaderConfig
  /-- Plans of its own, none when it uses those of its result. -/
  ownPlans : Option ConverterCache
  bound : ConverterCache
  opened : ViewCache

namespace DataChunk

/-- A chunk read under a schema of as many columns. -/
def withSchema (native : NativeChunk) (schema : Schema) (config : ReaderConfig)
    (ownPlans : Option ConverterCache) : Result DataChunk :=
  if native.vectors.length ≠ schema.size then
    .error (.native (.chunkWidth native.vectors.length schema.size))
  else .ok ⟨native, schema, config, ownPlans, .empty, .empty schema.size⟩

/-- Columns are typed by their vectors and named by their positions. -/
def ofNative (native : NativeChunk) : Result DataChunk := do
  let types := native.vectors.zipIdx.map fun (v, index) => (s!"column{index}", v.type)
  withSchema native (← Schema.ofTypes types) {} (some .empty)

def rows (chunk : DataChunk) : Nat := chunk.native.rows

/-- Caches already filled are kept. -/
def withConfig (chunk : DataChunk) (config : ReaderConfig) : DataChunk :=
  { chunk with config := config }

/-- A column over all rows of the chunk. -/
def view (chunk : DataChunk) (index : Nat) : Result ColumnView := do
  let column ← chunk.schema.column index
  ColumnView.withColumn (← chunk.native.vector index) column.column chunk.rows

/-- The column's view, opened at the first use of the column. -/
def obtainView (chunk : DataChunk) (index : Nat) : Result ColumnView × DataChunk :=
  let (view, opened) := chunk.opened.obtain index fun _ => chunk.view index
  (view, { chunk with opened := opened })

/-- Reads a column; `shared` are the plans of the result. -/
def read (chunk : DataChunk) (shared : ConverterCache) (index : Nat) (r : Read) :
    Result r.Answer × DataChunk × ConverterCache :=
  match chunk.obtainView index with
  | (.error e, chunk) => (.error e, chunk, shared)
  | (.ok view, chunk) =>
    let caches : Caches := ⟨chunk.ownPlans.getD shared, chunk.bound⟩
    let (conv, caches) := caches.converter chunk.config.cacheConverters view ⟨index, r.key⟩
    let answer := conv >>= r.answer view
    match chunk.ownPlans with
    | some _ =>
      (answer, { chunk with ownPlans := some caches.plans, bound := caches.bound }, shared)
    | none => (answer, { chunk with bound := caches.bound }, caches.plans)

def describe (chunk : DataChunk) : String :=
  s!"DataChunk \x7b rows: {chunk.rows}, columns: {chunk.schema.size}, " ++
    s!"config: {chunk.config.describe} \x7d"

end DataChunk
end TypedColumns
