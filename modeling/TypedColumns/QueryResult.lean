import TypedColumns.DataChunk

/-!
Results of queries: a schema, and chunks fetched one after another. A session is a result with the
chunks fetched so far, and its operations may come in any order.
-/
namespace TypedColumns

structure QueryResult where
  schema : Schema
  config : ReaderConfig
  pending : List (Result NativeChunk)
  plans : ConverterCache

namespace QueryResult

def ofEngine (engine : Engine) : Result QueryResult := do
  return ⟨← Schema.ofTypes engine.columns, {}, engine.pending, .empty⟩

def withConfig (r : QueryResult) (config : ReaderConfig) : QueryResult :=
  { r with config := config }

/-- Resolves a plan ahead of the first read. -/
def checkType (r : QueryResult) (index : Nat) (t : Target) : Result Unit × QueryResult :=
  match r.schema.column index with
  | .error e => (.error e, r)
  | .ok column =>
    let slot : CacheSlot := ⟨index, .typed t⟩
    let (plan, plans) := r.plans.obtain slot fun _ => slot.key.resolve column.column
    (plan.map fun _ => (), { r with plans := plans })

/-- The next chunk, none when there are no more. A chunk that cannot be opened is passed over. -/
def next (r : QueryResult) : Result (Option DataChunk) × QueryResult :=
  match r.pending with
  | [] => (.ok none, r)
  | fetched :: rest =>
    let ownPlans := if r.config.sharePlans then none else some ConverterCache.empty
    (do return some (← DataChunk.withSchema (← fetched) r.schema r.config ownPlans),
      { r with pending := rest })

end QueryResult

structure Session where
  result : QueryResult
  chunks : Array DataChunk

inductive Operation where
  | checkType (column : ColumnRef) (t : Target)
  | next
  | configureResult (config : ReaderConfig)
  | configureChunk (chunk : Nat) (config : ReaderConfig)
  | read (chunk : Nat) (column : ColumnRef) (r : Read)

/-- A fetch answers with the number of the new chunk. -/
@[reducible] def Operation.Answer : Operation → Type
  | checkType .. | configureResult _ | configureChunk .. => Unit
  | next => Option Nat
  | read _ _ r => r.Answer

namespace Session

def start (result : QueryResult) : Session := ⟨result, #[]⟩

/-- A chunk that belongs to no result. -/
def ofChunk (chunk : DataChunk) : Session :=
  ⟨⟨chunk.schema, {}, [], .empty⟩, #[chunk]⟩

def chunk (s : Session) (number : Nat) : Result DataChunk :=
  match s.chunks[number]? with
  | some chunk => .ok chunk
  | none => .error (.indexOutOfRange number s.chunks.size)

def read (s : Session) (number : Nat) (column : ColumnRef) (r : Read) :
    Result r.Answer × Session :=
  match s.chunk number with
  | .error e => (.error e, s)
  | .ok chunk => match chunk.schema.locate column with
    | .error e => (.error e, s)
    | .ok index =>
      let (answer, chunk, plans) := chunk.read s.result.plans index r
      (answer, ⟨{ s.result with plans := plans }, s.chunks.setIfInBounds number chunk⟩)

def step (s : Session) : (op : Operation) → Result op.Answer × Session
  | .checkType column t => match s.result.schema.locate column with
    | .error e => (.error e, s)
    | .ok index =>
      let (answer, result) := s.result.checkType index t
      (answer, { s with result := result })
  | .next => match s.result.next with
    | (.error e, result) => (.error e, { s with result := result })
    | (.ok none, result) => (.ok none, { s with result := result })
    | (.ok (some chunk), result) => (.ok (some s.chunks.size), ⟨result, s.chunks.push chunk⟩)
  | .configureResult config => (.ok (), { s with result := s.result.withConfig config })
  | .configureChunk number config => match s.chunk number with
    | .error e => (.error e, s)
    | .ok chunk =>
      (.ok (), { s with chunks := s.chunks.setIfInBounds number (chunk.withConfig config) })
  | .read number column r => s.read number column r

end Session
end TypedColumns
