import TypedColumns.Proofs.Results
import TypedColumns.DataChunk

/-!
What the caches of a chunk hold. Every entry is what would be built anew for its slot: a plan that
the schema's column resolves to, such a plan prepared for the chunk's vector, or a column opened over
that vector. A chunk that reads with such caches answers as it would without them.
-/
namespace TypedColumns

/-- The plan of a fresh resolution. -/
def Schema.plan (schema : Schema) (slot : CacheSlot) : Result (Converter slot.key.carrier) := do
  slot.key.resolve (← schema.column slot.column).column

/-- A column of the chunk as the schema declares it, over all rows. -/
def NativeChunk.view (chunk : NativeChunk) (schema : Schema) (index : Nat) :
    Result ColumnView := do
  let column ← schema.column index
  ColumnView.withColumn (← chunk.vector index) column.column chunk.rows

/-- The plan of a fresh resolution, prepared for the chunk's vector. -/
def NativeChunk.converter (chunk : NativeChunk) (schema : Schema) (slot : CacheSlot) :
    Result (Converter slot.key.carrier) := do
  let view ← chunk.view schema slot.column
  (← schema.plan slot).prepare view

namespace ConverterCache

/-- Every entry is what `fresh` gives for its slot, and is recovered as that. -/
def Holds (cache : ConverterCache)
    (fresh : (slot : CacheSlot) → Result (Converter slot.key.carrier)) : Prop :=
  ∀ slot any, (slot, any) ∈ cache.entries →
    ∃ conv, fresh slot = .ok conv ∧ any.recover slot.key.carrier = .ok conv

variable {cache : ConverterCache} {fresh : (slot : CacheSlot) → Result (Converter slot.key.carrier)}
  {slot : CacheSlot}

theorem holds_empty : empty.Holds fresh := fun _ _ hm => absurd hm List.not_mem_nil

theorem recover_mk {c : Target} (conv : Converter c) :
    (⟨c, conv⟩ : AnyConverter).recover c = .ok conv := by
  simp [AnyConverter.recover]

theorem Holds.insert (h : cache.Holds fresh) {conv : Converter slot.key.carrier}
    (hc : fresh slot = .ok conv) : (cache.insert slot ⟨_, conv⟩).Holds fresh := by
  intro other any hm
  rcases List.mem_cons.mp hm with heq | hm
  · cases heq
    exact ⟨conv, hc, recover_mk conv⟩
  · exact h other any hm

theorem Holds.find? (h : cache.Holds fresh) {any : AnyConverter} (hf : cache.find? slot = some any) :
    ∃ conv, fresh slot = .ok conv ∧ any.recover slot.key.carrier = .ok conv := by
  obtain ⟨before, after, entries, -⟩ := List.lookup_eq_some_iff.mp hf
  exact h slot any (by rw [entries]; simp)

variable (build : Unit → Result (Converter slot.key.carrier))

/-- What a cache gives is what a fresh build gives. -/
theorem Holds.obtain (h : cache.Holds fresh) (hb : build () = fresh slot) :
    (cache.obtain slot build).1 = fresh slot ∧ (cache.obtain slot build).2.Holds fresh := by
  unfold ConverterCache.obtain
  cases hf : cache.find? slot with
  | some any =>
    obtain ⟨conv, hc, recovered⟩ := h.find? hf
    exact ⟨recovered.trans hc.symm, h⟩
  | none =>
    simp only
    rw [hb]
    cases hc : fresh slot with
    | error e => exact ⟨rfl, h⟩
    | ok conv => exact ⟨rfl, h.insert hc⟩

/-- Only what was built just now is remembered. -/
theorem obtain_cases (cache : ConverterCache) : (cache.obtain slot build).2 = cache ∨
    ∃ conv, build () = .ok conv ∧ (cache.obtain slot build).1 = .ok conv := by
  unfold ConverterCache.obtain
  cases cache.find? slot with
  | some any => exact .inl rfl
  | none =>
    cases hb : build () with
    | error e => exact .inl rfl
    | ok conv => exact .inr ⟨conv, rfl, rfl⟩

/-- A failed build leaves the cache as it is. -/
theorem obtain_of_error {cache : ConverterCache} {e : Error}
    (h : build () = .error e ∨ (cache.obtain slot build).1 = .error e) :
    (cache.obtain slot build).2 = cache := by
  rcases obtain_cases build cache with unchanged | ⟨conv, built, answered⟩
  · exact unchanged
  · rcases h with h | h
    · rw [built] at h
      cases h
    · rw [answered] at h
      cases h

end ConverterCache

theorem ColumnView.withColumn_column {native : NativeVector} {column : Column} {rows : Nat}
    {view : ColumnView} (h : withColumn native column rows = .ok view) : view.column = column := by
  unfold withColumn firstRows at h
  split at h
  · split at h
    · cases h
    · cases h; rfl
  · cases h

theorem NativeChunk.plan_of_view {chunk : NativeChunk} {schema : Schema} {slot : CacheSlot}
    {view : ColumnView} (h : chunk.view schema slot.column = .ok view) :
    schema.plan slot = slot.key.resolve view.column := by
  obtain ⟨column, hc, h⟩ := Result.bind_eq_ok.mp h
  obtain ⟨native, -, h⟩ := Result.bind_eq_ok.mp h
  rw [Schema.plan, hc, ColumnView.withColumn_column h]
  rfl

theorem NativeChunk.converter_of_view {chunk : NativeChunk} {schema : Schema} {slot : CacheSlot}
    {view : ColumnView} (h : chunk.view schema slot.column = .ok view) :
    chunk.converter schema slot = schema.plan slot >>= fun plan => plan.prepare view := by
  rw [converter, h]
  rfl

namespace Caches

open ConverterCache (Holds)

variable {caches : Caches} {schema : Schema} {chunk : NativeChunk} {slot : CacheSlot}
  {view : ColumnView}

theorem bind_fresh (hv : chunk.view schema slot.column = .ok view)
    (plans : caches.plans.Holds schema.plan) :
    (caches.bind view slot).1 = chunk.converter schema slot ∧
      (caches.bind view slot).2.plans.Holds schema.plan ∧
      (caches.bind view slot).2.bound = caches.bound := by
  obtain ⟨answer, holds⟩ :=
    plans.obtain (fun _ => slot.key.resolve view.column) (NativeChunk.plan_of_view hv).symm
  refine ⟨?_, holds, rfl⟩
  rw [NativeChunk.converter_of_view hv, ← answer]
  rfl

/-- The converter that a chunk reads with is the one that it would be without caches. -/
theorem converter_fresh (keep : Bool) (slot : CacheSlot)
    (hv : chunk.view schema slot.column = .ok view) (plans : caches.plans.Holds schema.plan)
    (bound : caches.bound.Holds (chunk.converter schema)) :
    (caches.converter keep view slot).1 = chunk.converter schema slot ∧
      (caches.converter keep view slot).2.plans.Holds schema.plan ∧
      (caches.converter keep view slot).2.bound.Holds (chunk.converter schema) := by
  obtain ⟨answer, holds, unchanged⟩ := bind_fresh hv plans
  unfold converter
  cases keep with
  | false => exact ⟨answer, holds, by rwa [if_neg (by simp), unchanged]⟩
  | true =>
    rw [if_pos rfl]
    cases hf : caches.bound.find? slot with
    | some any =>
      obtain ⟨conv, hc, recovered⟩ := bound.find? hf
      exact ⟨recovered.trans hc.symm, plans, bound⟩
    | none =>
      simp only
      cases hb : caches.bind view slot with
      | mk result filled =>
        rw [hb] at answer holds unchanged
        cases result with
        | error e => exact ⟨answer, holds, by rw [unchanged]; exact bound⟩
        | ok conv =>
          refine ⟨answer, holds, ?_⟩
          simp only at answer unchanged ⊢
          rw [unchanged]
          exact bound.insert answer.symm

/-- A plan that cannot be prepared is not remembered as a bound converter. -/
theorem bound_of_error {keep : Bool} {e : Error}
    (h : (caches.converter keep view slot).1 = .error e) :
    (caches.converter keep view slot).2.bound = caches.bound := by
  unfold converter at h ⊢
  cases keep with
  | false => rfl
  | true =>
    rw [if_pos rfl] at h ⊢
    cases hf : caches.bound.find? slot with
    | some any => rfl
    | none =>
      rw [hf] at h
      cases hb : caches.bind view slot with
      | mk result filled =>
        have unchanged : filled.bound = caches.bound := (congrArg (·.2.bound) hb).symm
        rw [hb] at h
        cases result with
        | error e => exact unchanged
        | ok conv => cases h

/-- A column that does not resolve leaves all caches as they are. -/
theorem converter_of_unresolved (keep : Bool) (hv : chunk.view schema slot.column = .ok view)
    (plans : caches.plans.Holds schema.plan) (bound : caches.bound.Holds (chunk.converter schema))
    {e : Error} (he : schema.plan slot = .error e) :
    (caches.converter keep view slot).2 = caches := by
  have unresolved : slot.key.resolve view.column = .error e := by
    rw [← NativeChunk.plan_of_view hv]
    exact he
  have unprepared : chunk.converter schema slot = .error e := by
    rw [NativeChunk.converter_of_view hv, he]
    rfl
  have unbound : caches.bound.find? slot = none := by
    cases hf : caches.bound.find? slot with
    | none => rfl
    | some any =>
      obtain ⟨conv, hc, -⟩ := bound.find? hf
      rw [unprepared] at hc
      cases hc
  have failed : caches.bind view slot = (.error e, caches) := by
    apply Prod.ext
    · exact (bind_fresh hv plans).1.trans unprepared
    · have unchanged : (caches.plans.obtain slot fun _ => slot.key.resolve view.column).2 =
          caches.plans := ConverterCache.obtain_of_error _ (.inl unresolved)
      exact congrArg (fun plans => ({ caches with plans := plans } : Caches)) unchanged
  unfold converter
  rw [unbound, failed]
  cases keep <;> rfl

end Caches

theorem Schema.column_outside (s : Schema) {i : Nat} (hi : s.size ≤ i) :
    s.column i = .error (.indexOutOfRange i s.size) := by
  unfold Schema.column
  rw [List.getElem?_eq_none hi]

theorem NativeChunk.view_outside (chunk : NativeChunk) (schema : Schema) {i : Nat}
    (hi : schema.size ≤ i) : chunk.view schema i = .error (.indexOutOfRange i schema.size) := by
  rw [NativeChunk.view, schema.column_outside hi, Result.error_bind]

namespace ViewCache

/-- Every column that is remembered is what `fresh` opens, and `fresh` opens no columns but those
that the cache has room for. -/
structure Holds (cache : ViewCache) (fresh : Nat → Result ColumnView) : Prop where
  views : ∀ index view, cache.slots[index]? = some (some view) → fresh index = .ok view
  outside : ∀ index, cache.slots.length ≤ index →
    fresh index = .error (.indexOutOfRange index cache.slots.length)

variable {cache : ViewCache} {fresh : Nat → Result ColumnView} {index : Nat}

theorem holds_empty {columns : Nat}
    (outside : ∀ index, columns ≤ index → fresh index = .error (.indexOutOfRange index columns)) :
    (empty columns).Holds fresh := by
  refine ⟨?_, ?_⟩
  · intro index view found
    have unopened := List.eq_of_mem_replicate (List.mem_of_getElem? found)
    cases unopened
  · unfold empty
    rwa [List.length_replicate]

theorem Holds.insert (h : cache.Holds fresh) {view : ColumnView} (hv : fresh index = .ok view) :
    (⟨cache.slots.set index (some view)⟩ : ViewCache).Holds fresh := by
  refine ⟨?_, ?_⟩
  · intro other opened found
    rw [List.getElem?_set] at found
    split_ifs at found with same inside
    · cases found
      exact same ▸ hv
    · exact h.views other opened found
  · rw [List.length_set]
    exact h.outside

variable (build : Unit → Result ColumnView)

/-- What a cache gives is what a fresh opening gives. -/
theorem Holds.obtain (h : cache.Holds fresh) (hb : build () = fresh index) :
    (cache.obtain index build).1 = fresh index ∧ (cache.obtain index build).2.Holds fresh := by
  unfold ViewCache.obtain
  cases hs : cache.slots[index]? with
  | none => exact ⟨(h.outside index (List.getElem?_eq_none_iff.mp hs)).symm, h⟩
  | some slot =>
    cases slot with
    | some view => exact ⟨(h.views index view hs).symm, h⟩
    | none =>
      simp only
      rw [hb]
      cases hv : fresh index with
      | error e => exact ⟨rfl, h⟩
      | ok view => exact ⟨rfl, h.insert hv⟩

/-- A failed opening leaves the cache as it is. -/
theorem obtain_of_error {cache : ViewCache} {e : Error} (h : build () = .error e) :
    (cache.obtain index build).2 = cache := by
  unfold ViewCache.obtain
  split
  · rfl
  · rfl
  · rw [h]

end ViewCache

/-- The chunk belongs to a result of this schema, and what it remembers is what would be built. -/
structure DataChunk.Valid (chunk : DataChunk) (schema : Schema) : Prop where
  declared : chunk.schema = schema
  ownPlans : ∀ plans, chunk.ownPlans = some plans → plans.Holds schema.plan
  bound : chunk.bound.Holds (chunk.native.converter schema)
  opened : chunk.opened.Holds (chunk.native.view schema)

namespace DataChunk

variable {chunk : DataChunk} {schema : Schema} {shared : ConverterCache}

theorem view_eq (chunk : DataChunk) (index : Nat) :
    chunk.view index = chunk.native.view chunk.schema index := rfl

/-- A chunk that has not been read yet. -/
theorem valid_unread (native : NativeChunk) (schema : Schema) (config : ReaderConfig)
    (ownPlans : Option ConverterCache) (unused : ∀ plans, ownPlans = some plans → plans = .empty) :
    DataChunk.Valid ⟨native, schema, config, ownPlans, .empty, .empty schema.size⟩ schema := by
  refine ⟨rfl, ?_, ConverterCache.holds_empty,
    ViewCache.holds_empty fun _ outside => native.view_outside schema outside⟩
  intro plans own
  rw [unused plans own]
  exact ConverterCache.holds_empty

/-- A column is opened as without a cache, and remembering it leaves the chunk valid. -/
theorem Valid.obtainView (h : chunk.Valid schema) (index : Nat) :
    (chunk.obtainView index).1 = chunk.native.view schema index ∧
      (chunk.obtainView index).2.Valid schema := by
  have fresh : chunk.view index = chunk.native.view schema index := by rw [view_eq, h.declared]
  obtain ⟨view, opened⟩ := h.opened.obtain (fun _ => chunk.view index) fresh
  exact ⟨view, h.declared, h.ownPlans, h.bound, opened⟩

/-- A column that does not open leaves the chunk as it is. -/
theorem Valid.obtainView_of_error (h : chunk.Valid schema) {index : Nat} {e : Error}
    (he : chunk.native.view schema index = .error e) : (chunk.obtainView index).2 = chunk := by
  have fresh : chunk.view index = .error e := by rw [view_eq, h.declared, he]
  have unchanged : (chunk.opened.obtain index fun _ => chunk.view index).2 = chunk.opened :=
    ViewCache.obtain_of_error _ fresh
  exact congrArg (fun opened => ({ chunk with opened := opened } : DataChunk)) unchanged

/-- The caches that a chunk reads with when `shared` are the plans of its result. -/
def caches (chunk : DataChunk) (shared : ConverterCache) : Caches :=
  ⟨chunk.ownPlans.getD shared, chunk.bound⟩

/-- The chunk with these caches for its own. -/
def withCaches (chunk : DataChunk) (caches : Caches) : DataChunk :=
  { chunk with ownPlans := chunk.ownPlans.map fun _ => caches.plans, bound := caches.bound }

theorem read_of_error {index : Nat} {r : Read} {e : Error}
    (he : (chunk.obtainView index).1 = .error e) :
    chunk.read shared index r = (.error e, (chunk.obtainView index).2, shared) := by
  unfold DataChunk.read
  cases ho : chunk.obtainView index with
  | mk result opened =>
    rw [ho] at he
    simp only at he
    rw [he]

theorem read_of_view {index : Nat} {r : Read} {view : ColumnView}
    (hv : (chunk.obtainView index).1 = .ok view) :
    let filled := (chunk.caches shared).converter chunk.config.cacheConverters view ⟨index, r.key⟩
    chunk.read shared index r = (filled.1 >>= r.answer view,
      (chunk.obtainView index).2.withCaches filled.2,
      if chunk.ownPlans.isSome then shared else filled.2.plans) := by
  intro filled
  have result : chunk.obtainView index = (.ok view, (chunk.obtainView index).2) :=
    Prod.ext hv rfl
  unfold DataChunk.read
  rw [result]
  obtain ⟨native, schema, config, ownPlans, bound, opened⟩ := chunk
  cases ownPlans <;> rfl

theorem Valid.caches (h : chunk.Valid schema) (plans : shared.Holds schema.plan) :
    (chunk.caches shared).plans.Holds schema.plan := by
  unfold DataChunk.caches
  cases ho : chunk.ownPlans with
  | none => exact plans
  | some own => exact h.ownPlans own ho

theorem Valid.withCaches (h : chunk.Valid schema) {caches : Caches}
    (plans : caches.plans.Holds schema.plan)
    (bound : caches.bound.Holds (chunk.native.converter schema)) :
    (chunk.withCaches caches).Valid schema := by
  refine ⟨h.declared, ?_, bound, h.opened⟩
  intro own ho
  obtain ⟨_, -, rfl⟩ := Option.map_eq_some_iff.mp ho
  exact plans

/-- A read answers as without caches, and leaves what is remembered valid. -/
theorem Valid.read (h : chunk.Valid schema) (plans : shared.Holds schema.plan) (index : Nat)
    (r : Read) :
    (chunk.read shared index r).1 = chunk.native.view schema index >>= r.direct ∧
    (chunk.read shared index r).2.1.Valid schema ∧
    (chunk.read shared index r).2.1.native = chunk.native ∧
    (chunk.read shared index r).2.2.Holds schema.plan := by
  obtain ⟨fresh, opened⟩ := h.obtainView index
  cases hv : chunk.native.view schema index with
  | error e =>
    rw [read_of_error (fresh.trans hv)]
    exact ⟨rfl, opened, rfl, plans⟩
  | ok view =>
    obtain ⟨answer, plansHold, boundHold⟩ :=
      Caches.converter_fresh chunk.config.cacheConverters ⟨index, r.key⟩ hv (h.caches plans) h.bound
    rw [read_of_view (fresh.trans hv)]
    refine ⟨?_, opened.withCaches plansHold boundHold, rfl, ?_⟩
    · rw [answer, NativeChunk.converter_of_view hv, NativeChunk.plan_of_view hv, bind_assoc]
      rfl
    · cases chunk.ownPlans.isSome with
      | true => exact plans
      | false => exact plansHold

theorem withCaches_caches (chunk : DataChunk) (shared : ConverterCache) :
    chunk.withCaches (chunk.caches shared) = chunk := by
  obtain ⟨native, schema, config, ownPlans, bound, opened⟩ := chunk
  cases ownPlans <;> rfl

/-- A read of a column that does not open changes nothing. -/
theorem Valid.read_unopened (h : chunk.Valid schema) {index : Nat} {r : Read} {e : Error}
    (he : chunk.native.view schema index = .error e) :
    (chunk.read shared index r).2 = (chunk, shared) := by
  rw [read_of_error ((h.obtainView index).1.trans he), h.obtainView_of_error he]

/-- A read of a column that does not resolve opens the column and changes nothing else. -/
theorem Valid.read_unresolved (h : chunk.Valid schema) (plans : shared.Holds schema.plan)
    {index : Nat} {r : Read} {e : Error} (he : schema.plan ⟨index, r.key⟩ = .error e) :
    (chunk.read shared index r).2 = ((chunk.obtainView index).2, shared) := by
  obtain ⟨fresh, -⟩ := h.obtainView index
  cases hv : chunk.native.view schema index with
  | error e => rw [read_of_error (fresh.trans hv)]
  | ok view =>
    have unchanged := Caches.converter_of_unresolved chunk.config.cacheConverters hv
      (h.caches plans) h.bound he
    have same : chunk.caches shared = (chunk.obtainView index).2.caches shared := rfl
    rw [read_of_view (fresh.trans hv), unchanged, same, withCaches_caches, ← same]
    unfold DataChunk.caches
    cases chunk.ownPlans <;> rfl

theorem Valid.read_unprepared (h : chunk.Valid schema) (plans : shared.Holds schema.plan)
    {index : Nat} {r : Read} {e : Error}
    (he : chunk.native.converter schema ⟨index, r.key⟩ = .error e) :
    (chunk.read shared index r).2.1.bound = chunk.bound := by
  obtain ⟨fresh, -⟩ := h.obtainView index
  cases hv : chunk.native.view schema index with
  | error e =>
    rw [read_of_error (fresh.trans hv)]
    rfl
  | ok view =>
    obtain ⟨answer, -, -⟩ :=
      Caches.converter_fresh chunk.config.cacheConverters ⟨index, r.key⟩ hv (h.caches plans) h.bound
    rw [read_of_view (fresh.trans hv)]
    exact Caches.bound_of_error (answer.trans he)

end DataChunk

end TypedColumns
