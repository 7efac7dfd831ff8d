import TypedColumns.Proofs.ConverterCaches
import TypedColumns.QueryResult

/-!
Caches make no difference. A session without them, in which every read resolves its column, prepares
the plan and converts, answers every operation as a session with them does, in whatever order the
operations come and however the caches are configured.
-/
namespace TypedColumns

/-- A session that remembers nothing but the chunks. -/
structure Uncached where
  schema : Schema
  pending : List (Result NativeChunk)
  chunks : Array NativeChunk

namespace Uncached

def chunk (s : Uncached) (number : Nat) : Result NativeChunk :=
  match s.chunks[number]? with
  | some chunk => .ok chunk
  | none => .error (.indexOutOfRange number s.chunks.size)

def checkType (s : Uncached) (column : ColumnRef) (t : Target) : Result Unit := do
  let index ← s.schema.locate column
  let _ ← s.schema.plan ⟨index, .typed t⟩
  return ()

def read (s : Uncached) (number : Nat) (column : ColumnRef) (r : Read) : Result r.Answer := do
  let chunk ← s.chunk number
  let index ← s.schema.locate column
  r.direct (← chunk.view s.schema index)

def next (s : Uncached) : Result (Option Nat) × Uncached :=
  match s.pending with
  | [] => (.ok none, s)
  | fetched :: rest =>
    let s := { s with pending := rest }
    match fetched >>= fun native => DataChunk.withSchema native s.schema {} none with
    | .error e => (.error e, s)
    | .ok chunk => (.ok (some s.chunks.size), { s with chunks := s.chunks.push chunk.native })

def step (s : Uncached) : (op : Operation) → Result op.Answer × Uncached
  | .checkType column t => (s.checkType column t, s)
  | .next => s.next
  | .configureResult _ => (.ok (), s)
  | .configureChunk number _ => ((s.chunk number).map fun _ => (), s)
  | .read number column r => (s.read number column r, s)

def after (s : Uncached) (ops : List Operation) : Uncached :=
  ops.foldl (fun s op => (s.step op).2) s

theorem schema_step (s : Uncached) (op : Operation) : (s.step op).2.schema = s.schema := by
  cases op with
  | next =>
    simp only [step, next]
    split
    · rfl
    · split <;> rfl
  | _ => rfl

theorem schema_after (s : Uncached) (ops : List Operation) : (s.after ops).schema = s.schema := by
  induction ops generalizing s with
  | nil => rfl
  | cons op ops ih => exact (ih _).trans (s.schema_step op)

end Uncached

namespace Session

def after (s : Session) (ops : List Operation) : Session :=
  ops.foldl (fun s op => (s.step op).2) s

def erase (s : Session) : Uncached :=
  ⟨s.result.schema, s.result.pending, s.chunks.map DataChunk.native⟩

end Session

/-- A check resolves as without caches, and leaves the plans valid. -/
theorem QueryResult.checkType_fresh (result : QueryResult)
    (h : result.plans.Holds result.schema.plan) (index : Nat) (t : Target) :
    (result.checkType index t).1 = (do let _ ← result.schema.plan ⟨index, .typed t⟩; return ()) ∧
      ∃ plans, plans.Holds result.schema.plan ∧
        (result.checkType index t).2 = { result with plans := plans } := by
  unfold checkType
  cases hc : result.schema.column index with
  | error e =>
    have unresolved : result.schema.plan ⟨index, .typed t⟩ = .error e := by
      rw [Schema.plan, hc]
      rfl
    rw [unresolved]
    exact ⟨rfl, result.plans, h, rfl⟩
  | ok column =>
    let slot : CacheSlot := ⟨index, .typed t⟩
    have fresh : slot.key.resolve column.column = result.schema.plan slot := by
      rw [Schema.plan, hc]
      rfl
    obtain ⟨answer, holds⟩ := h.obtain (fun _ => slot.key.resolve column.column) fresh
    refine ⟨?_, _, holds, rfl⟩
    simp only
    rw [answer]
    cases result.schema.plan ⟨index, .typed t⟩ <;> rfl

/-- A failed check changes nothing. -/
theorem QueryResult.checkType_of_error {result : QueryResult} {index : Nat} {t : Target} {e : Error}
    (h : (result.checkType index t).1 = .error e) : (result.checkType index t).2 = result := by
  unfold checkType at h ⊢
  cases hc : result.schema.column index with
  | error e => rfl
  | ok column =>
    rw [hc] at h
    have unchanged := ConverterCache.obtain_of_error _ (.inr (Result.map_eq_error.mp h))
    exact congrArg (fun plans => ({ result with plans := plans } : QueryResult)) unchanged

/-- Everything that the session remembers is what would be built for its schema and chunks. -/
structure Session.Valid (s : Session) : Prop where
  plans : s.result.plans.Holds s.result.schema.plan
  chunks : ∀ chunk ∈ s.chunks, chunk.Valid s.result.schema

namespace Session

variable {s : Session}

theorem chunk_eq_ok {number : Nat} {chunk : DataChunk} (h : s.chunk number = .ok chunk) :
    s.chunks[number]? = some chunk := by
  unfold Session.chunk at h
  split at h
  · next hc => cases h; exact hc
  · cases h

theorem erase_chunk (s : Session) (number : Nat) :
    s.erase.chunk number = (s.chunk number).map DataChunk.native := by
  unfold Uncached.chunk Session.chunk erase
  simp only [Array.getElem?_map, Array.size_map]
  cases s.chunks[number]? <;> rfl

/-- Replacing a chunk by one that is the same to `f`. -/
theorem map_replace {β : Type} (f : DataChunk → β) {number : Nat} {chunk chunk' : DataChunk}
    (hc : s.chunks[number]? = some chunk) (hf : f chunk' = f chunk) :
    (s.chunks.setIfInBounds number chunk').map f = s.chunks.map f := by
  apply Array.ext_getElem?
  intro i
  rw [Array.getElem?_map, Array.getElem?_map, Array.getElem?_setIfInBounds]
  split
  · next same =>
    subst same
    have inside : number < s.chunks.size := (Array.getElem?_eq_some_iff.mp hc).1
    rw [if_pos inside, hc, Option.map_some, Option.map_some, hf]
  · rfl

theorem Valid.replace (h : s.Valid) {chunk : DataChunk} (hv : chunk.Valid s.result.schema)
    (number : Nat) : ∀ other ∈ s.chunks.setIfInBounds number chunk,
      other.Valid s.result.schema := by
  intro other ho
  rcases Array.mem_or_eq_of_mem_setIfInBounds ho with ho | rfl
  · exact h.chunks other ho
  · exact hv

section Steps

variable {column : ColumnRef} {t : Target} {index number : Nat} {chunk : DataChunk} {r : Read}

theorem step_checkType_unlocated {e : Error} (hl : s.result.schema.locate column = .error e) :
    s.step (.checkType column t) = (.error e, s) := by
  simp only [Session.step, hl]

theorem step_checkType_located (hl : s.result.schema.locate column = .ok index) :
    s.step (.checkType column t) =
      ((s.result.checkType index t).1, { s with result := (s.result.checkType index t).2 }) := by
  simp only [Session.step, hl]

theorem read_without_chunk {e : Error} (hc : s.chunk number = .error e) :
    s.read number column r = (.error e, s) := by
  simp only [Session.read, hc]

theorem read_unlocated {e : Error} (hc : s.chunk number = .ok chunk)
    (hl : chunk.schema.locate column = .error e) : s.read number column r = (.error e, s) := by
  simp only [Session.read, hc, hl]

theorem read_located (hc : s.chunk number = .ok chunk)
    (hl : chunk.schema.locate column = .ok index) :
    let answered := chunk.read s.result.plans index r
    s.read number column r = (answered.1, ⟨{ s.result with plans := answered.2.2 },
      s.chunks.setIfInBounds number answered.2.1⟩) := by
  simp only [Session.read, hc, hl]

theorem step_configureChunk_missing {config : ReaderConfig} {e : Error}
    (hc : s.chunk number = .error e) : s.step (.configureChunk number config) = (.error e, s) := by
  simp only [Session.step, hc]

theorem step_configureChunk_found {config : ReaderConfig} (hc : s.chunk number = .ok chunk) :
    s.step (.configureChunk number config) =
      (.ok (), { s with chunks := s.chunks.setIfInBounds number (chunk.withConfig config) }) := by
  simp only [Session.step, hc]

end Steps

theorem Valid.step_checkType (h : s.Valid) (column : ColumnRef) (t : Target) :
    (s.step (.checkType column t)).1 = s.erase.checkType column t ∧
      (s.step (.checkType column t)).2.erase = s.erase ∧
      (s.step (.checkType column t)).2.Valid := by
  have direct : s.erase.checkType column t = (do
      let index ← s.result.schema.locate column
      let _ ← s.result.schema.plan ⟨index, .typed t⟩
      return ()) := rfl
  rw [direct]
  cases hl : s.result.schema.locate column with
  | error e =>
    rw [step_checkType_unlocated hl]
    exact ⟨rfl, rfl, h⟩
  | ok index =>
    obtain ⟨answer, plans, holds, result⟩ := s.result.checkType_fresh h.plans index t
    rw [step_checkType_located hl, result]
    exact ⟨answer, rfl, holds, h.chunks⟩

theorem Valid.step_read (h : s.Valid) (number : Nat) (column : ColumnRef) (r : Read) :
    (s.read number column r).1 = s.erase.read number column r ∧
      (s.read number column r).2.erase = s.erase ∧ (s.read number column r).2.Valid := by
  unfold Uncached.read
  rw [erase_chunk]
  cases hc : s.chunk number with
  | error e =>
    rw [read_without_chunk hc]
    exact ⟨rfl, rfl, h⟩
  | ok chunk =>
    have found := chunk_eq_ok hc
    have valid := h.chunks chunk (Array.mem_of_getElem? found)
    have schema : s.erase.schema = chunk.schema := valid.declared.symm
    rw [Result.map_ok, Result.ok_bind, schema]
    cases hl : chunk.schema.locate column with
    | error e =>
      rw [read_unlocated hc hl]
      exact ⟨rfl, rfl, h⟩
    | ok index =>
      obtain ⟨answer, validAfter, native, plans⟩ := valid.read h.plans index r
      rw [read_located hc hl, valid.declared]
      refine ⟨answer, ?_, plans, h.replace validAfter number⟩
      exact congrArg (Uncached.mk _ _) (map_replace DataChunk.native found native)

theorem Valid.step_configureChunk (h : s.Valid) (number : Nat) (config : ReaderConfig) :
    (s.step (.configureChunk number config)).1 = (s.erase.chunk number).map (fun _ => ()) ∧
      (s.step (.configureChunk number config)).2.erase = s.erase ∧
      (s.step (.configureChunk number config)).2.Valid := by
  rw [erase_chunk]
  cases hc : s.chunk number with
  | error e =>
    rw [step_configureChunk_missing hc]
    exact ⟨rfl, rfl, h⟩
  | ok chunk =>
    have found := chunk_eq_ok hc
    have valid := h.chunks chunk (Array.mem_of_getElem? found)
    have configured : (chunk.withConfig config).Valid s.result.schema :=
      ⟨valid.declared, valid.ownPlans, valid.bound, valid.opened⟩
    rw [step_configureChunk_found hc]
    refine ⟨rfl, ?_, h.plans, h.replace configured number⟩
    exact congrArg (Uncached.mk _ _) (map_replace DataChunk.native found rfl)

/-- Whether a chunk can be opened depends on its width alone. -/
theorem withSchema_cases (native : NativeChunk) (schema : Schema) :
    (∃ e, ∀ config ownPlans, DataChunk.withSchema native schema config ownPlans = .error e) ∨
      ∀ config ownPlans, DataChunk.withSchema native schema config ownPlans =
        .ok ⟨native, schema, config, ownPlans, .empty, .empty schema.size⟩ := by
  unfold DataChunk.withSchema
  by_cases width : native.vectors.length = schema.size
  · exact .inr fun _ _ => if_neg (not_not.mpr width)
  · exact .inl ⟨_, fun _ _ => if_pos width⟩

theorem Valid.step_next (h : s.Valid) :
    (s.step .next).1 = s.erase.next.1 ∧ (s.step .next).2.erase = s.erase.next.2 ∧
      (s.step .next).2.Valid := by
  obtain ⟨⟨schema, config, pending, plans⟩, chunks⟩ := s
  have kept (rest : List (Result NativeChunk)) :
      Session.Valid ⟨⟨schema, config, rest, plans⟩, chunks⟩ := ⟨h.plans, h.chunks⟩
  cases pending with
  | nil => exact ⟨rfl, rfl, h⟩
  | cons fetched rest =>
    cases fetched with
    | error e => exact ⟨rfl, rfl, kept rest⟩
    | ok native =>
      rcases withSchema_cases native schema with ⟨e, refused⟩ | opened
      · have next : QueryResult.next ⟨schema, config, .ok native :: rest, plans⟩ =
            (.error e, ⟨schema, config, rest, plans⟩) := by
          simp only [QueryResult.next, Result.ok_bind, refused, Result.error_bind]
        have plain : Uncached.next ⟨schema, .ok native :: rest, chunks.map DataChunk.native⟩ =
            (.error e, ⟨schema, rest, chunks.map DataChunk.native⟩) := by
          simp only [Uncached.next, Result.ok_bind, refused]
        simp only [Session.step, erase, next, plain]
        exact ⟨trivial, trivial, kept rest⟩
      · let own := if config.sharePlans then none else some ConverterCache.empty
        let chunk : DataChunk := ⟨native, schema, config, own, .empty, .empty schema.size⟩
        have next : QueryResult.next ⟨schema, config, .ok native :: rest, plans⟩ =
            (.ok (some chunk), ⟨schema, config, rest, plans⟩) := by
          simp only [QueryResult.next, Result.ok_bind, opened]
          rfl
        have plain : Uncached.next ⟨schema, .ok native :: rest, chunks.map DataChunk.native⟩ =
            (.ok (some chunks.size), ⟨schema, rest, (chunks.map DataChunk.native).push native⟩) := by
          simp only [Uncached.next, Result.ok_bind, opened, Array.size_map]
        have valid : chunk.Valid schema := by
          apply DataChunk.valid_unread
          intro filled ho
          simp only [own] at ho
          split_ifs at ho
          exact (Option.some.inj ho).symm
        simp only [Session.step, erase, next, plain, Array.map_push]
        refine ⟨trivial, rfl, h.plans, ?_⟩
        intro other ho
        rcases Array.mem_push.mp ho with ho | rfl
        · exact h.chunks other ho
        · exact valid

/-- A step answers as without caches, and stays in step with the session that has none. -/
theorem Valid.step (h : s.Valid) (op : Operation) :
    (s.step op).1 = (s.erase.step op).1 ∧ (s.step op).2.erase = (s.erase.step op).2 ∧
      (s.step op).2.Valid := by
  cases op with
  | checkType column t => exact h.step_checkType column t
  | next => exact h.step_next
  | configureResult config => exact ⟨rfl, rfl, h.plans, h.chunks⟩
  | configureChunk number config => exact h.step_configureChunk number config
  | read number column r => exact h.step_read number column r

theorem Valid.after (h : s.Valid) (ops : List Operation) :
    (s.after ops).erase = s.erase.after ops ∧ (s.after ops).Valid := by
  induction ops generalizing s with
  | nil => exact ⟨rfl, h⟩
  | cons op ops ih =>
    obtain ⟨-, erased, valid⟩ := h.step op
    obtain ⟨erasedAfter, validAfter⟩ := ih valid
    exact ⟨erasedAfter.trans (congrArg (fun u => Uncached.after u ops) erased), validAfter⟩

theorem valid_start (schema : Schema) (config : ReaderConfig)
    (pending : List (Result NativeChunk)) :
    (start ⟨schema, config, pending, .empty⟩).Valid :=
  ⟨ConverterCache.holds_empty, fun _ hc => absurd hc (Array.not_mem_empty _)⟩

theorem erase_start (schema : Schema) (config : ReaderConfig)
    (pending : List (Result NativeChunk)) :
    (start ⟨schema, config, pending, .empty⟩).erase = ⟨schema, pending, #[]⟩ := by
  simp [start, erase]

theorem checkType_of_error {column : ColumnRef} {t : Target} {e : Error}
    (he : (s.step (.checkType column t)).1 = .error e) : (s.step (.checkType column t)).2 = s := by
  cases hl : s.result.schema.locate column with
  | error e => rw [step_checkType_unlocated hl]
  | ok index =>
    rw [step_checkType_located hl] at he ⊢
    rw [QueryResult.checkType_of_error he]

section Reads

variable {number index : Nat} {column : ColumnRef} {r : Read} {chunk : DataChunk} {e : Error}
  (h : s.Valid) (hc : s.chunk number = .ok chunk) (hl : s.result.schema.locate column = .ok index)
include h hc hl

/-- A read of a column that does not open changes nothing. -/
theorem Valid.read_unopened (he : chunk.native.view s.result.schema index = .error e) :
    (s.read number column r).2 = s := by
  have found := chunk_eq_ok hc
  have valid := h.chunks chunk (Array.mem_of_getElem? found)
  have same := map_replace id found (rfl : id chunk = id chunk)
  simp only [Array.map_id] at same
  rw [read_located hc (by rw [valid.declared]; exact hl), valid.read_unopened he, same]

/-- A read of a column that does not resolve opens the column and changes nothing else. -/
theorem Valid.read_unresolved (he : s.result.schema.plan ⟨index, r.key⟩ = .error e) :
    (s.read number column r).2 =
      { s with chunks := s.chunks.setIfInBounds number (chunk.obtainView index).2 } := by
  have found := chunk_eq_ok hc
  have valid := h.chunks chunk (Array.mem_of_getElem? found)
  rw [read_located hc (by rw [valid.declared]; exact hl), valid.read_unresolved h.plans he]

/-- A read of a column whose plan cannot be prepared binds no converter. -/
theorem Valid.read_unprepared
    (he : chunk.native.converter s.result.schema ⟨index, r.key⟩ = .error e) :
    (s.read number column r).2.chunks.map DataChunk.bound = s.chunks.map DataChunk.bound := by
  have found := chunk_eq_ok hc
  have valid := h.chunks chunk (Array.mem_of_getElem? found)
  rw [read_located hc (by rw [valid.declared]; exact hl)]
  exact map_replace DataChunk.bound found (valid.read_unprepared h.plans he)

end Reads

/-- The caches of a result and of its chunks are invisible. After any operations, every operation is
answered as it is by the session without caches, which resolves the schema's column, prepares the
plan for the chunk's vector and converts. Every entry of a plan cache is the plan of a fresh
resolution, every bound converter is that plan prepared for its chunk's vector, each is recovered as
what it is, and every column that a chunk remembers is what it opens as. A check that fails and a read
of a column that does not open change nothing, a read that does not resolve leaves the opened column
alone behind, and a plan that cannot be prepared leaves no bound converter. -/
theorem caches_invisible (schema : Schema) (config : ReaderConfig)
    (pending : List (Result NativeChunk)) (ops : List Operation) :
    let s := (start ⟨schema, config, pending, .empty⟩).after ops
    let plain := (Uncached.mk schema pending #[]).after ops
    (∀ op, (s.step op).1 = (plain.step op).1) ∧ s.erase = plain ∧ s.Valid ∧
    (∀ column t e, (s.step (.checkType column t)).1 = .error e →
      (s.step (.checkType column t)).2 = s) ∧
    ∀ number column r chunk index e, s.chunk number = .ok chunk →
      schema.locate column = .ok index →
        (chunk.native.view schema index = .error e → (s.read number column r).2 = s) ∧
        (schema.plan ⟨index, r.key⟩ = .error e → (s.read number column r).2 =
          { s with chunks := s.chunks.setIfInBounds number (chunk.obtainView index).2 }) ∧
        (chunk.native.converter schema ⟨index, r.key⟩ = .error e →
          (s.read number column r).2.chunks.map DataChunk.bound =
            s.chunks.map DataChunk.bound) := by
  intro s plain
  obtain ⟨erased, valid⟩ := (valid_start schema config pending).after ops
  rw [erase_start] at erased
  have declared : s.result.schema = schema :=
    (congrArg Uncached.schema erased).trans (Uncached.schema_after _ ops)
  refine ⟨?_, erased, valid, fun column t e => checkType_of_error, ?_⟩
  · intro op
    rw [(valid.step op).1, erased]
  · intro number column r chunk index e hc hl
    rw [← declared] at hl ⊢
    exact ⟨valid.read_unopened hc hl, valid.read_unresolved hc hl, valid.read_unprepared hc hl⟩

end Session
end TypedColumns
