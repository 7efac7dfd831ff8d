import TypedColumns.Proofs.CacheFreeReading
import TypedColumns.Proofs.Types

/-!
What a stored result delivers. It refuses a chunk exactly when the chunk does not match the declared
columns; a query over it gives out the accepted chunks once each, in the order in which they came;
and every column of a chunk so obtained opens, whatever is read before and in between.
-/
namespace TypedColumns

namespace Schema

variable {types : List (String × LogicalType)} {s : Schema}

/-- A schema has the names and types that it was made of. -/
theorem declared_of_ofTypes (h : ofTypes types = .ok s) :
    s.columns.map (fun column => (column.name, column.column.type)) = types := by
  obtain ⟨columns, made, rfl⟩ := Result.map_eq_ok.mp h
  clear h
  induction types generalizing columns with
  | nil =>
    cases made
    rfl
  | cons head rest ih =>
    obtain ⟨name, type⟩ := head
    rw [List.mapM_cons] at made
    obtain ⟨first, hf, made⟩ := Result.bind_eq_ok.mp made
    obtain ⟨others, ho, made⟩ := Result.bind_eq_ok.mp made
    obtain ⟨column, hc, rfl⟩ := Result.map_eq_ok.mp hf
    cases made
    rw [List.map_cons, ih others ho, Column.type_of_ofType hc]

theorem size_of_ofTypes (h : ofTypes types = .ok s) : s.size = types.length := by
  rw [← declared_of_ofTypes h, List.length_map, size]

/-- The types of a schema are well formed. -/
theorem check_of_ofTypes (h : ofTypes types = .ok s) {name : String} {type : LogicalType}
    (hm : (name, type) ∈ types) : type.check = .ok () := by
  rw [← declared_of_ofTypes h] at hm
  obtain ⟨column, -, same⟩ := List.mem_map.mp hm
  cases same
  exact column.column.valid

theorem ofTypes_of_check (h : ∀ declared ∈ types, declared.2.check = .ok ()) :
    ∃ s, ofTypes types = .ok s := by
  induction types with
  | nil => exact ⟨⟨[]⟩, rfl⟩
  | cons head rest ih =>
    obtain ⟨first, others⟩ := List.forall_mem_cons.mp h
    obtain ⟨s, hs⟩ := ih others
    obtain ⟨columns, made, -⟩ := Result.map_eq_ok.mp hs
    obtain ⟨name, type⟩ := head
    refine ⟨⟨⟨name, type, first⟩ :: columns⟩, ?_⟩
    simp only [ofTypes, List.mapM_cons, made, Column.ofType_of_check first]
    rfl

theorem column_of_ofTypes (h : ofTypes types = .ok s) {i : Nat} {name : String}
    {type : LogicalType} (hi : types[i]? = some (name, type)) :
    ∃ column, s.column i = .ok ⟨name, column⟩ ∧ column.type = type := by
  rw [← declared_of_ofTypes h, List.getElem?_map] at hi
  obtain ⟨⟨name', column⟩, found, same⟩ := Option.map_eq_some_iff.mp hi
  cases same
  refine ⟨column, ?_, rfl⟩
  unfold Schema.column
  rw [found]

theorem locate_name (h : ofTypes types = .ok s) (name : String) :
    s.locate (.name name) = match types.findIdx? fun declared => declared.1 == name with
      | some i => .ok i
      | none => .error (.unknownColumn name) := by
  rw [← declared_of_ofTypes h, List.findIdx?_map]
  rfl

/-- A name means the first column that has it. -/
theorem locate_first (h : ofTypes types = .ok s) {i : Nat} {name : String} {type : LogicalType}
    (hi : types[i]? = some (name, type))
    (first : ∀ j < i, ∀ other, types[j]? ≠ some (name, other)) :
    s.locate (.name name) = .ok i := by
  have found : types.findIdx? (fun declared => declared.1 == name) = some i := by
    obtain ⟨inside, here⟩ := List.getElem?_eq_some_iff.mp hi
    rw [List.findIdx?_eq_some_iff_getElem]
    refine ⟨inside, by rw [here, beq_self_eq_true], ?_⟩
    intro j before same
    apply first j before types[j].2
    rw [← eq_of_beq same]
    exact List.getElem?_eq_getElem _
  rw [locate_name h, found]

theorem locate_unknown (h : ofTypes types = .ok s) {name : String}
    (unknown : ∀ type, (name, type) ∉ types) :
    s.locate (.name name) = .error (.unknownColumn name) := by
  have missing : types.findIdx? (fun declared => declared.1 == name) = none := by
    rw [List.findIdx?_eq_none_iff]
    rintro ⟨other, type⟩ hm
    rw [beq_eq_false_iff_ne]
    rintro rfl
    exact unknown type hm
  rw [locate_name h, missing]

end Schema

namespace NativeChunk

variable {columns : List (String × LogicalType)} {chunk : NativeChunk}

/-- A chunk of another width than the declared columns, or with a vector of other rows than the
chunk's or of another type than its column's. -/
def Mismatched (columns : List (String × LogicalType)) (chunk : NativeChunk) : Prop :=
  chunk.vectors.length ≠ columns.length ∨
    ∃ pair ∈ columns.zip chunk.vectors, pair.2.rows ≠ chunk.rows ∨ pair.2.type ≠ pair.1.2

instance (columns : List (String × LogicalType)) : DecidablePred (Mismatched columns) :=
  fun _ => inferInstanceAs (Decidable (_ ∨ _))

theorem length_of_matched (h : ¬chunk.Mismatched columns) :
    chunk.vectors.length = columns.length := by
  by_contra width
  exact h (.inl width)

/-- Every column of a chunk that matches has a vector of its type, with the chunk's rows. -/
theorem vector_of_matched (h : ¬chunk.Mismatched columns) {i : Nat} {name : String}
    {type : LogicalType} (hi : columns[i]? = some (name, type)) :
    ∃ v, chunk.vectors[i]? = some v ∧ v.rows = chunk.rows ∧ v.type = type := by
  have width := length_of_matched h
  obtain ⟨inside, -⟩ := List.getElem?_eq_some_iff.mp hi
  have found : chunk.vectors[i]? = some chunk.vectors[i] := List.getElem?_eq_getElem _
  have paired : ((name, type), chunk.vectors[i]) ∈ columns.zip chunk.vectors :=
    List.mem_of_getElem? (i := i) (List.getElem?_zip_eq_some.mpr ⟨hi, found⟩)
  refine ⟨_, found, ?_, ?_⟩
  · by_contra rows
    exact h (.inr ⟨_, paired, .inl rows⟩)
  · by_contra other
    exact h (.inr ⟨_, paired, .inr other⟩)

end NativeChunk

/-- A call that adds a chunk to a result. When the chunk is refused, `push` keeps the result and
`extend` gives it up. -/
inductive Addition where
  | push (chunk : NativeChunk)
  | extend (chunk : NativeChunk)

def Addition.chunk : Addition → NativeChunk
  | push chunk | extend chunk => chunk

/-- The call gives the result up. -/
def Addition.Abandons (columns : List (String × LogicalType)) : Addition → Prop
  | push _ => False
  | extend chunk => chunk.Mismatched columns

/-- The chunks that match the columns, in the order of the calls. -/
def Addition.accepted (columns : List (String × LogicalType)) (calls : List Addition) :
    List NativeChunk :=
  (calls.map Addition.chunk).filter fun chunk => ¬chunk.Mismatched columns

namespace StoredResult

variable {r : StoredResult} {chunk : NativeChunk}

/-- What is left after a call. -/
def add (r : StoredResult) : Addition → Option StoredResult
  | .push chunk => match r.push chunk with
    | .ok extended => some extended
    | .error _ => some r
  | .extend chunk => (r.push chunk).toOption

def addAll (r : StoredResult) (calls : List Addition) : Option StoredResult :=
  calls.foldlM add r

theorem checkVectors_of_matched {rows : Nat} {columns : List (String × LogicalType)}
    {vectors : List NativeVector}
    (h : ∀ pair ∈ columns.zip vectors, pair.2.rows = rows ∧ pair.2.type = pair.1.2) :
    checkVectors rows columns vectors = .ok () := by
  induction columns generalizing vectors with
  | nil => rfl
  | cons head columns ih =>
    obtain ⟨name, type⟩ := head
    cases vectors with
    | nil => rfl
    | cons v vectors =>
      obtain ⟨⟨hr, ht⟩, others⟩ := List.forall_mem_cons.mp h
      rw [checkVectors, if_neg (not_not.mpr hr), if_neg (not_not.mpr ht), ih others]

theorem checkVectors_of_mismatched {rows : Nat} {columns : List (String × LogicalType)}
    {vectors : List NativeVector}
    (h : ∃ pair ∈ columns.zip vectors, pair.2.rows ≠ rows ∨ pair.2.type ≠ pair.1.2) :
    ∃ fault, checkVectors rows columns vectors = .error (.argument fault) := by
  induction columns generalizing vectors with
  | nil => simp at h
  | cons head columns ih =>
    obtain ⟨name, type⟩ := head
    cases vectors with
    | nil => simp at h
    | cons v vectors =>
      rw [checkVectors]
      split
      · exact ⟨_, rfl⟩
      · next hr =>
        split
        · exact ⟨_, rfl⟩
        · next ht =>
          rw [List.zip_cons_cons, List.exists_mem_cons_iff] at h
          rcases h with bad | later
          · exact absurd bad (not_or.mpr ⟨hr, ht⟩)
          · exact ih later

/-- A chunk that matches is stored behind the others. -/
theorem push_of_matched (h : ¬chunk.Mismatched r.columns) :
    r.push chunk = .ok { r with chunks := r.chunks ++ [chunk] } := by
  have vectors : ∀ pair ∈ r.columns.zip chunk.vectors,
      pair.2.rows = chunk.rows ∧ pair.2.type = pair.1.2 := by
    intro pair hp
    by_contra bad
    exact h (.inr ⟨pair, hp, not_and_or.mp bad⟩)
  have width := NativeChunk.length_of_matched h
  rw [push, checkChunk, if_neg (not_not.mpr width), checkVectors_of_matched vectors]
  rfl

theorem push_of_mismatched (h : chunk.Mismatched r.columns) :
    ∃ fault, r.push chunk = .error (.argument fault) := by
  unfold push checkChunk
  split
  · exact ⟨_, rfl⟩
  · next width =>
    obtain ⟨fault, refused⟩ := checkVectors_of_mismatched (h.resolve_left width)
    exact ⟨fault, by rw [refused]; rfl⟩

/-- One call: the result goes on, with the chunk if it matches, unless the call gives it up. -/
theorem add_eq (r : StoredResult) (call : Addition) :
    (call.Abandons r.columns → r.add call = none) ∧
      (¬call.Abandons r.columns →
        r.add call = some ⟨r.columns, r.chunks ++ Addition.accepted r.columns [call]⟩) := by
  by_cases h : call.chunk.Mismatched r.columns
  · obtain ⟨fault, refused⟩ := push_of_mismatched h
    have skipped : Addition.accepted r.columns [call] = [] := by
      simp [Addition.accepted, h]
    rw [skipped, List.append_nil]
    cases call with
    | push chunk =>
      refine ⟨False.elim, fun _ => ?_⟩
      rw [add, show r.push chunk = _ from refused]
    | extend chunk =>
      refine ⟨fun _ => ?_, fun kept => absurd h kept⟩
      rw [add, show r.push chunk = _ from refused]
      rfl
  · have stored := push_of_matched h
    have taken : Addition.accepted r.columns [call] = [call.chunk] := by
      simp [Addition.accepted, h]
    rw [taken]
    cases call with
    | push chunk =>
      refine ⟨False.elim, fun _ => ?_⟩
      rw [add, show r.push chunk = _ from stored]
    | extend chunk =>
      refine ⟨fun given => absurd given h, fun _ => ?_⟩
      rw [add, show r.push chunk = _ from stored]
      rfl

/-- Any calls: the result holds what it held and then the accepted chunks, unless a call gave it
up. -/
theorem addAll_eq (r : StoredResult) (calls : List Addition) :
    ((∃ call ∈ calls, call.Abandons r.columns) → r.addAll calls = none) ∧
      ((∀ call ∈ calls, ¬call.Abandons r.columns) →
        r.addAll calls = some ⟨r.columns, r.chunks ++ Addition.accepted r.columns calls⟩) := by
  unfold addAll
  induction calls generalizing r with
  | nil => simp [Addition.accepted]
  | cons call calls ih =>
    have split : Addition.accepted r.columns (call :: calls) =
        Addition.accepted r.columns [call] ++ Addition.accepted r.columns calls := by
      simp only [Addition.accepted, ← List.filter_append, ← List.map_append,
        List.singleton_append]
    obtain ⟨lost, kept⟩ := r.add_eq call
    rw [List.foldlM_cons, List.exists_mem_cons_iff, List.forall_mem_cons, split,
      ← List.append_assoc]
    by_cases abandons : call.Abandons r.columns
    · rw [lost abandons]
      exact ⟨fun _ => rfl, fun none => absurd abandons none.1⟩
    · rw [kept abandons]
      obtain ⟨lostLater, keptLater⟩ :=
        ih ⟨r.columns, r.chunks ++ Addition.accepted r.columns [call]⟩
      exact ⟨fun some => lostLater (some.resolve_left abandons), fun none => keptLater none.2⟩

end StoredResult

/-- Fetches of the next chunk. -/
def Operation.isNext : Operation → Bool
  | .next => true
  | _ => false

/-- `fetches` fetches from a queue of `accepted` chunks have been made. -/
structure Uncached.Fetched (s : Uncached) (schema : Schema) (accepted : List NativeChunk)
    (fetches : Nat) : Prop where
  declared : s.schema = schema
  pending : s.pending = (accepted.drop fetches).map .ok
  chunks : s.chunks.toList = accepted.take fetches

namespace Uncached.Fetched

variable {s : Uncached} {schema : Schema} {accepted : List NativeChunk} {fetches : Nat}

theorem size_chunks (h : s.Fetched schema accepted fetches) :
    s.chunks.size = min fetches accepted.length := by
  rw [← Array.length_toList, h.chunks, List.length_take]

/-- A fetch gives the next accepted chunk out, or says that there is none. -/
theorem next (h : s.Fetched schema accepted fetches)
    (widths : ∀ chunk ∈ accepted, chunk.vectors.length = schema.size) :
    s.next.1 = .ok (if fetches < accepted.length then some fetches else none) ∧
      s.next.2.Fetched schema accepted (fetches + 1) := by
  obtain ⟨schema, pending, chunks⟩ := s
  have size : chunks.size = min fetches accepted.length := h.size_chunks
  obtain ⟨rfl, rfl, taken⟩ := h
  by_cases more : fetches < accepted.length
  · have width := widths _ (List.getElem_mem more)
    rw [Nat.min_eq_left (Nat.le_of_lt more)] at size
    rw [if_pos more, List.drop_eq_getElem_cons more, List.map_cons]
    simp only [Uncached.next, Result.ok_bind, DataChunk.withSchema, width, ne_eq, not_true,
      if_false, size]
    refine ⟨trivial, rfl, rfl, ?_⟩
    rw [Array.toList_push, ← List.take_append_getElem more]
    exact congrArg (· ++ [accepted[fetches]]) taken
  · have drained : accepted.drop fetches = [] := List.drop_eq_nil_of_le (by omega)
    rw [if_neg more, drained]
    refine ⟨rfl, rfl, ?_, ?_⟩
    · rw [List.drop_eq_nil_of_le (by omega)]
      rfl
    · rw [List.take_of_length_le (by omega)]
      exact taken.trans (List.take_of_length_le (by omega))

theorem step (h : s.Fetched schema accepted fetches)
    (widths : ∀ chunk ∈ accepted, chunk.vectors.length = schema.size) (op : Operation) :
    (s.step op).2.Fetched schema accepted (fetches + if op.isNext then 1 else 0) := by
  cases op with
  | next => exact (h.next widths).2
  | _ => exact h

theorem after (h : s.Fetched schema accepted fetches)
    (widths : ∀ chunk ∈ accepted, chunk.vectors.length = schema.size) (ops : List Operation) :
    (s.after ops).Fetched schema accepted (fetches + ops.countP Operation.isNext) := by
  induction ops generalizing s fetches with
  | nil => exact h
  | cons op ops ih =>
    have later := ih (h.step widths op)
    rw [List.countP_cons, Nat.add_comm (ops.countP _), ← Nat.add_assoc]
    exact later

end Uncached.Fetched

/-- The column of a chunk that a reference means. -/
def DataChunk.column (chunk : DataChunk) (ref : ColumnRef) : Result ColumnView := do
  (chunk.obtainView (← chunk.schema.locate ref)).1

/-- Whatever the chunk remembers, a column is opened over its vector. -/
theorem DataChunk.Valid.column_index {chunk : DataChunk} {schema : Schema}
    (h : chunk.Valid schema) (i : Nat) :
    chunk.column (.index i) = chunk.native.view schema i := (h.obtainView i).1

/-- The columns of a chunk are the vectors of `pushed`, under the declared names and types. -/
structure DataChunk.Delivers (chunk : DataChunk) (columns : List (String × LogicalType))
    (pushed : NativeChunk) : Prop where
  native : chunk.native = pushed
  /-- Every declared column opens, over its vector and over all rows of the chunk. -/
  opens : ∀ i name type, columns[i]? = some (name, type) → ∃ column v,
    chunk.schema.column i = .ok ⟨name, column⟩ ∧ column.type = type ∧
      pushed.vectors[i]? = some v ∧ v.rows = chunk.rows ∧
      chunk.column (.index i) = .ok ⟨column, chunk.rows, v, []⟩
  outside : ∀ i, columns.length ≤ i →
    chunk.column (.index i) = .error (.indexOutOfRange i columns.length)
  /-- A name opens the first column of that name. -/
  named : ∀ i name type, columns[i]? = some (name, type) →
    (∀ j < i, ∀ other, columns[j]? ≠ some (name, other)) →
      chunk.schema.locate (.name name) = .ok i ∧
        chunk.column (.name name) = chunk.column (.index i)
  unnamed : ∀ name, (∀ type, (name, type) ∉ columns) →
    chunk.column (.name name) = .error (.unknownColumn name)

namespace NativeChunk

variable {columns : List (String × LogicalType)} {chunk : NativeChunk} {schema : Schema}

theorem view_of_matched (hs : Schema.ofTypes columns = .ok schema)
    (h : ¬chunk.Mismatched columns) {i : Nat} {name : String} {type : LogicalType}
    (hi : columns[i]? = some (name, type)) :
    ∃ column v, schema.column i = .ok ⟨name, column⟩ ∧ column.type = type ∧
      chunk.vectors[i]? = some v ∧ v.rows = chunk.rows ∧
      chunk.view schema i = .ok ⟨column, chunk.rows, v, []⟩ := by
  obtain ⟨column, hc, typed⟩ := Schema.column_of_ofTypes hs hi
  obtain ⟨v, hv, rows, same⟩ := vector_of_matched h hi
  refine ⟨column, v, hc, typed, hv, rows, ?_⟩
  have found : chunk.vector i = .ok v := by rw [NativeChunk.vector, hv]
  rw [NativeChunk.view, hc, Result.ok_bind, found, Result.ok_bind, ColumnView.withColumn,
    if_pos (same.trans typed.symm), ColumnView.firstRows, if_neg (by omega)]

/-- Names do not matter to a column that is opened by its position. -/
theorem view_congr {other : Schema}
    (h : schema.columns.map SchemaColumn.column = other.columns.map SchemaColumn.column) (i : Nat) :
    chunk.view schema i = chunk.view other i := by
  have size : schema.size = other.size := by
    simpa only [List.length_map, Schema.size] using congrArg List.length h
  have same := congrArg (·[i]?) h
  simp only [List.getElem?_map] at same
  unfold NativeChunk.view Schema.column
  cases hs : schema.columns[i]? with
  | none =>
    cases ho : other.columns[i]? with
    | none => rw [size]
    | some column => simp [hs, ho] at same
  | some column =>
    cases ho : other.columns[i]? with
    | none => simp [hs, ho] at same
    | some column' =>
      rw [hs, ho, Option.map_some, Option.map_some, Option.some_inj] at same
      simp only [Result.ok_bind, same]

end NativeChunk

theorem DataChunk.delivers_of_matched {columns : List (String × LogicalType)} {schema : Schema}
    {pushed : NativeChunk} {chunk : DataChunk} (hs : Schema.ofTypes columns = .ok schema)
    (h : ¬pushed.Mismatched columns) (native : chunk.native = pushed)
    (valid : chunk.Valid schema) : chunk.Delivers columns pushed := by
  obtain ⟨own, schema', config, ownPlans, bound, opened⟩ := chunk
  obtain rfl : own = pushed := native
  obtain rfl : schema' = schema := valid.declared
  have size := Schema.size_of_ofTypes hs
  refine ⟨rfl, ?_, ?_, ?_, ?_⟩
  · intro i name type hi
    rw [valid.column_index]
    exact NativeChunk.view_of_matched hs h hi
  · intro i hi
    rw [← size] at hi ⊢
    rw [valid.column_index]
    exact NativeChunk.view_outside own schema' hi
  · intro i name type hi first
    have located := Schema.locate_first hs hi first
    refine ⟨located, ?_⟩
    rw [DataChunk.column, located]
    rfl
  · intro name unknown
    rw [DataChunk.column, Schema.locate_unknown hs unknown, Result.error_bind]

/-- The chunk opened without its result has the columns that it has there. -/
theorem DataChunk.ofNative_of_matched {columns : List (String × LogicalType)} {schema : Schema}
    {pushed : NativeChunk} (hs : Schema.ofTypes columns = .ok schema)
    (h : ¬pushed.Mismatched columns) :
    ∃ loose, DataChunk.ofNative pushed =
        .ok ⟨pushed, loose, {}, some .empty, .empty, .empty loose.size⟩ ∧
      pushed.vectors.length = loose.size ∧ ∀ i, pushed.view loose i = pushed.view schema i := by
  let types := pushed.vectors.zipIdx.map fun pair => (s!"column{pair.2}", pair.1.type)
  have width := NativeChunk.length_of_matched h
  have declared : types.map Prod.snd = columns.map Prod.snd := by
    apply List.ext_getElem?
    intro i
    simp only [types, List.getElem?_map, List.getElem?_zipIdx]
    cases hi : columns[i]? with
    | none =>
      have outside : pushed.vectors[i]? = none := by
        rw [List.getElem?_eq_none_iff] at hi ⊢
        omega
      rw [outside]
      rfl
    | some column =>
      obtain ⟨v, hv, -, typed⟩ := NativeChunk.vector_of_matched h hi
      rw [hv]
      exact congrArg some typed
  have checked : ∀ declared ∈ types, declared.2.check = .ok () := by
    intro named hn
    have hm : named.2 ∈ columns.map Prod.snd := declared ▸ List.mem_map_of_mem hn
    obtain ⟨⟨name, type⟩, hm, same⟩ := List.mem_map.mp hm
    exact same ▸ Schema.check_of_ofTypes hs hm
  obtain ⟨loose, made⟩ := Schema.ofTypes_of_check checked
  have size : pushed.vectors.length = loose.size := by
    rw [Schema.size_of_ofTypes made, List.length_map, List.length_zipIdx]
  refine ⟨loose, ?_, size, ?_⟩
  · rw [DataChunk.ofNative, show Schema.ofTypes _ = _ from made, Result.ok_bind,
      DataChunk.withSchema, if_neg (not_not.mpr size)]
  · apply NativeChunk.view_congr
    apply List.map_injective_iff.mpr (fun _ _ => Column.ext)
    have left := congrArg (List.map Prod.snd) (Schema.declared_of_ofTypes made)
    have right := congrArg (List.map Prod.snd) (Schema.declared_of_ofTypes hs)
    rw [List.map_map] at left right ⊢
    rw [List.map_map]
    exact (left.trans declared).trans right.symm

namespace Session

variable {s : Session} {schema : Schema} {accepted : List NativeChunk} {fetches number : Nat}
  {pushed : NativeChunk}

/-- A fetched chunk is there, under the schema of the result. -/
theorem Valid.chunk_of_fetched (h : s.Valid) (fetched : s.erase.Fetched schema accepted fetches)
    (hp : (accepted.take fetches)[number]? = some pushed) :
    ∃ chunk, s.chunks[number]? = some chunk ∧ chunk.native = pushed ∧ chunk.Valid schema := by
  rw [← fetched.chunks, erase, Array.getElem?_toList, Array.getElem?_map] at hp
  obtain ⟨chunk, hc, native⟩ := Option.map_eq_some_iff.mp hp
  have valid := h.chunks chunk (Array.mem_of_getElem? hc)
  have declared : s.result.schema = schema := fetched.declared
  exact ⟨chunk, hc, native, declared ▸ valid⟩

/-- A read of a fetched chunk reads the vector that was pushed. -/
theorem Valid.read_of_fetched (h : s.Valid) (fetched : s.erase.Fetched schema accepted fetches)
    (hp : (accepted.take fetches)[number]? = some pushed) (i : Nat) (r : Read) :
    (s.read number (.index i) r).1 = pushed.view schema i >>= r.direct := by
  have stored : s.erase.chunk number = .ok pushed := by
    rw [← fetched.chunks, Array.getElem?_toList] at hp
    rw [Uncached.chunk, hp]
  rw [(h.step_read number (.index i) r).1, Uncached.read, stored, Result.ok_bind, fetched.declared]
  rfl

theorem fetched_start (widths : ∀ chunk ∈ accepted, chunk.vectors.length = schema.size)
    (config : ReaderConfig) (ops : List Operation) :
    let s := (start ⟨schema, config, accepted.map .ok, .empty⟩).after ops
    s.Valid ∧ s.erase.Fetched schema accepted (ops.countP Operation.isNext) := by
  intro s
  obtain ⟨erased, valid⟩ := (valid_start schema config (accepted.map .ok)).after ops
  have begun : Uncached.Fetched ⟨schema, accepted.map .ok, #[]⟩ schema accepted 0 :=
    ⟨rfl, rfl, rfl⟩
  have later := begun.after widths ops
  rw [Nat.zero_add] at later
  rw [erase_start] at erased
  exact ⟨valid, erased ▸ later⟩

/-- A chunk without its result is the only one that its session ever has. -/
theorem fetched_ofChunk (width : pushed.vectors.length = schema.size) (config : ReaderConfig)
    (earlier : List Operation) :
    let s := (ofChunk ⟨pushed, schema, config, some .empty, .empty, .empty schema.size⟩).after
      earlier
    s.Valid ∧ s.erase.Fetched schema [pushed] (1 + earlier.countP Operation.isNext) := by
  intro s
  let chunk : DataChunk := ⟨pushed, schema, config, some .empty, .empty, .empty schema.size⟩
  have unread : chunk.Valid schema :=
    DataChunk.valid_unread pushed schema config _ fun _ own => (Option.some.inj own).symm
  have valid : (ofChunk chunk).Valid := by
    refine ⟨ConverterCache.holds_empty, ?_⟩
    intro other ho
    obtain rfl : other = chunk := by simpa [ofChunk] using ho
    exact unread
  have start : (ofChunk chunk).erase.Fetched schema [pushed] 1 := by
    refine ⟨rfl, rfl, ?_⟩
    simp [ofChunk, erase, chunk]
  obtain ⟨erased, validAfter⟩ := valid.after earlier
  refine ⟨validAfter, ?_⟩
  rw [erased]
  exact start.after (fun _ hc => List.mem_singleton.mp hc ▸ width) earlier

/-- A chunk given out has the columns that were pushed, in its result and without it. -/
theorem Valid.delivers_fetched (h : s.Valid) (fetched : s.erase.Fetched schema accepted fetches)
    {columns : List (String × LogicalType)} (hs : Schema.ofTypes columns = .ok schema)
    (matched : ¬pushed.Mismatched columns)
    (hp : (accepted.take fetches)[number]? = some pushed) :
    ∃ chunk loose, s.chunks[number]? = some chunk ∧ chunk.Delivers columns pushed ∧
      DataChunk.ofNative pushed = .ok loose ∧ ∀ i,
        loose.column (.index i) = chunk.column (.index i) ∧ ∀ earlier r,
          (((ofChunk loose).after earlier).read 0 (.index i) r).1 =
            (s.read number (.index i) r).1 := by
  obtain ⟨chunk, hc, native, valid⟩ := h.chunk_of_fetched fetched hp
  obtain ⟨loose, alone, width, same⟩ := DataChunk.ofNative_of_matched hs matched
  have unread := DataChunk.valid_unread pushed loose {} (some .empty)
    fun _ own => (Option.some.inj own).symm
  refine ⟨chunk, _, hc, DataChunk.delivers_of_matched hs matched native valid, alone,
    fun i => ⟨?_, fun earlier r => ?_⟩⟩
  · rw [valid.column_index, native, unread.column_index, same]
  · obtain ⟨validAlone, fetchedAlone⟩ := fetched_ofChunk width {} earlier
    have only : ([pushed].take (1 + earlier.countP Operation.isNext))[0]? = some pushed := by
      rw [Nat.add_comm, List.take_succ_cons, List.getElem?_cons_zero]
    rw [validAlone.read_of_fetched fetchedAlone only, h.read_of_fetched fetched hp, same]

/-- A result gives out what was pushed. A push is refused, as a wrong argument, exactly when the
chunk does not match the declared columns, and the result is then what it was. After any calls, and
any operations of a query over what they leave, the fetches made have given out the accepted chunks
from the first one on, in the order of the calls and each once, and the next fetch gives out the next
one or, ever after the last, none. Every column of a chunk given out opens, over the vector that was
pushed, and so it does, with the same answer to every read, when the chunk is opened without its
result. -/
theorem delivers_pushed (columns : List (String × LogicalType)) (calls : List Addition) :
    (∀ (r : StoredResult) (chunk : NativeChunk),
      (chunk.Mismatched r.columns →
        ∃ fault, r.push chunk = .error (.argument fault) ∧ r.add (.push chunk) = some r) ∧
      (¬chunk.Mismatched r.columns →
        r.push chunk = .ok { r with chunks := r.chunks ++ [chunk] })) ∧
    ((StoredResult.mk columns []).addAll calls = none ↔
      ∃ call ∈ calls, call.Abandons columns) ∧
    ∀ stored result, (StoredResult.mk columns []).addAll calls = some stored →
      QueryResult.ofEngine stored.engine = .ok result → ∀ ops,
        let accepted := Addition.accepted columns calls
        let fetches := ops.countP Operation.isNext
        let s := (start result).after ops
        (s.step .next).1 = .ok (if fetches < accepted.length then some fetches else none) ∧
        s.chunks.toList.map DataChunk.native = accepted.take fetches ∧
        ∀ number pushed, (accepted.take fetches)[number]? = some pushed →
          ∃ chunk loose, s.chunks[number]? = some chunk ∧ chunk.Delivers columns pushed ∧
            DataChunk.ofNative pushed = .ok loose ∧ ∀ i,
              loose.column (.index i) = chunk.column (.index i) ∧ ∀ earlier r,
                (((ofChunk loose).after earlier).read 0 (.index i) r).1 =
                  (s.read number (.index i) r).1 := by
  obtain ⟨lost, kept⟩ := (StoredResult.mk columns []).addAll_eq calls
  refine ⟨?_, ⟨?_, lost⟩, ?_⟩
  · intro r chunk
    refine ⟨fun h => ?_, StoredResult.push_of_matched⟩
    obtain ⟨fault, refused⟩ := StoredResult.push_of_mismatched h
    exact ⟨fault, refused, by rw [StoredResult.add, refused]⟩
  · intro none
    by_contra all
    rw [kept fun call hc abandons => all ⟨call, hc, abandons⟩] at none
    cases none
  · intro stored result made opened ops accepted fetches s
    have survives : ∀ call ∈ calls, ¬call.Abandons columns := by
      intro call hc abandons
      rw [lost ⟨call, hc, abandons⟩] at made
      cases made
    rw [kept survives] at made
    cases made
    obtain ⟨schema, hs, opened⟩ := Result.bind_eq_ok.mp opened
    cases opened
    have matched : ∀ chunk ∈ accepted, ¬chunk.Mismatched columns := fun chunk hc =>
      of_decide_eq_true (List.mem_filter.mp hc).2
    have widths : ∀ chunk ∈ accepted, chunk.vectors.length = schema.size := fun chunk hc =>
      (NativeChunk.length_of_matched (matched chunk hc)).trans (Schema.size_of_ofTypes hs).symm
    obtain ⟨valid, fetched⟩ : s.Valid ∧ s.erase.Fetched schema accepted fetches :=
      fetched_start widths {} ops
    refine ⟨?_, ?_, ?_⟩
    · exact (valid.step .next).1.trans (fetched.next widths).1
    · rw [← Array.toList_map]
      exact fetched.chunks
    · intro number pushed hp
      have mem : pushed ∈ accepted := List.mem_of_mem_take (List.mem_of_getElem? hp)
      exact valid.delivers_fetched fetched hs (matched pushed mem) hp

/-- Two columns of one name, a push that is refused for its width and one that is accepted: the query
has one chunk, and the name opens its first column. -/
theorem delivers_pushed_equal_names :
    let columns := [("n", .scalar .boolean), ("n", .scalar (.int .u8))]
    let flags : NativeVector := ⟨.scalar .boolean, 1, #[1], none, #[], [], 0⟩
    let numbers : NativeVector := ⟨.scalar (.int .u8), 1, #[7], none, #[], [], 0⟩
    let narrow : NativeChunk := ⟨1, [flags]⟩
    let whole : NativeChunk := ⟨1, [flags, numbers]⟩
    ∃ stored result, (StoredResult.mk columns []).addAll [.push narrow, .extend whole] = some stored ∧
      QueryResult.ofEngine stored.engine = .ok result ∧
      (∃ fault, (StoredResult.mk columns []).push narrow = .error (.argument fault)) ∧
      (((start result).after [.next]).step .next).1 = .ok none ∧
      ∃ chunk, ((start result).after [.next]).chunks[0]? = some chunk ∧
        chunk.Delivers columns whole ∧
        chunk.column (.name "n") = .ok ⟨⟨.scalar .boolean, rfl⟩, 1, flags, []⟩ := by
  intro columns flags numbers narrow whole
  obtain ⟨pushes, -, queries⟩ := delivers_pushed columns [.push narrow, .extend whole]
  obtain ⟨fault, refused, -⟩ := (pushes ⟨columns, []⟩ narrow).1 (by decide)
  obtain ⟨drained, -, chunks⟩ := queries _ _ rfl rfl [.next]
  obtain ⟨chunk, loose, found, delivers, -⟩ := chunks 0 whole rfl
  refine ⟨_, _, rfl, rfl, ⟨fault, refused⟩, drained, chunk, found, delivers, ?_⟩
  obtain ⟨-, first⟩ := delivers.named 0 "n" _ rfl (fun j before => absurd before (by omega))
  obtain ⟨column, v, -, typed, hv, -, opened⟩ := delivers.opens 0 "n" _ rfl
  obtain rfl : column = ⟨.scalar .boolean, rfl⟩ := Column.ext typed
  obtain rfl : flags = v := Option.some_inj.mp hv
  have rows : chunk.rows = 1 := congrArg NativeChunk.rows delivers.native
  rw [first, opened, rows]

end Session
end TypedColumns
