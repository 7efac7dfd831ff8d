import TypedColumns.Arrow.Batch
import TypedColumns.Proofs.ArrowSlices
import TypedColumns.Proofs.ArrowTypeFaults
import TypedColumns.Proofs.Delivery

/-!
Record batches as the chunks of a result. A batch becomes a chunk of its rows, with the vector of each
column in its place; a list of batches becomes a result with one chunk for each of them, unless a batch
has another width than the schema, a column becomes no vector, a type differs from that of the first
batch, or there is no batch and a field's type has no column type. These are errors that are returned;
a column whose conversion panics ends all. A batch without columns becomes a chunk without rows,
whatever its own rows are.
-/
namespace TypedColumns.Arrow

open Result (FailsOnly)

namespace PhysicalArray

/-- A vector has the column type and the rows of its array. -/
theorem shape_of_toVector {a : PhysicalArray} (laid : a.Laid) {n : NativeVector}
    (h : a.toVector = .ok n) : a.logicalType = .ok n.type ∧ n.rows = a.rows := by
  cases raw : a.rawSlots? with
  | some copied =>
    obtain ⟨type, typed, rfl⟩ := toVector_eq_ok raw h
    exact ⟨typed, rfl⟩
  | none =>
    obtain ⟨type, typed, made⟩ := Result.bind_eq_ok.mp h
    rw [raw] at made
    obtain ⟨vals, found, made⟩ := Result.bind_eq_ok.mp made
    obtain ⟨same, count, -⟩ := NativeVector.bits_of_ofValues made
    rw [same, count]
    exact ⟨typed, length_values laid found⟩

end PhysicalArray

namespace Batch

variable {fields : List (String × DataType)} {batches : List Batch} {b : Batch}
  {arrays : List PhysicalArray} {vectors : List NativeVector} {types : List LogicalType}
  {columns : List (String × LogicalType)} {r r' : StoredResult} {chunk : NativeChunk}

/-- Every column has the rows of the batch, and children with the rows that it refers to. -/
def Laid (b : Batch) : Prop := ∀ a ∈ b.columns, a.Laid ∧ a.rows = b.rows

/-- What batches are refused for when they become no result over the fields. -/
inductive Refused (fields : List (String × DataType)) : List Batch → Prop where
  | width {batches : List Batch} {b : Batch} :
      b ∈ batches → b.columns.length ≠ fields.length → Refused fields batches
  | column {batches : List Batch} {b : Batch} {a : PhysicalArray} {e : Error} :
      b ∈ batches → a ∈ b.columns → a.toVector = .error e → e.isPanic = false →
      Refused fields batches
  /-- A later batch has another type in a column than the first one. -/
  | type {first later : Batch} {rest : List Batch} {i : Nat} {a other : PhysicalArray}
      {type otherType : LogicalType} :
      later ∈ rest → first.columns[i]? = some a → later.columns[i]? = some other →
      a.logicalType = .ok type → other.logicalType = .ok otherType → otherType ≠ type →
      Refused fields (first :: rest)
  /-- Without batches the types of the fields have to do. -/
  | field {name : String} {type : DataType} {e : Error} :
      (name, type) ∈ fields → type.toLogical = .error e → Refused fields []

/-- The conversion of a column panics. -/
def Panics (batches : List Batch) : Prop :=
  ∃ b ∈ batches, ∃ a ∈ b.columns, ∃ cause, a.toVector = .error (.panic cause)

/-- What an error says of the batches. -/
def Cause (fields : List (String × DataType)) (batches : List Batch) : Error → Prop
  | .panic _ => Panics batches
  | _ => Refused fields batches

/-- The types of the first batch's columns, and without batches those of the fields. -/
def Typed (fields : List (String × DataType)) (types : List LogicalType) : List Batch → Prop
  | [] => List.Forall₂ (fun field type => field.2.toLogical = .ok type) fields types
  | first :: _ => List.Forall₂ (fun a type => a.logicalType = .ok type) first.columns types

/-- The rows that a chunk keeps: with the last column they are lost. -/
def keptRows (b : Batch) : Nat := if b.columns = [] then 0 else b.rows

/-- The chunk has the vector of each column, all of the declared types. -/
structure Becomes (types : List LogicalType) (b : Batch) (chunk : NativeChunk) : Prop where
  vectors : List.Forall₂ (fun a n => a.toVector = .ok n) b.columns chunk.vectors
  types : chunk.vectors.map NativeVector.type = types
  rows : chunk.rows = b.keptRows

/-- Vectors have the types of their arrays and the rows that all of these have. -/
theorem shapes_of_vectors {rows : Nat} (laid : ∀ a ∈ arrays, a.Laid ∧ a.rows = rows)
    (h : List.Forall₂ (fun a n => a.toVector = .ok n) arrays vectors) :
    List.Forall₂ (fun a type => a.logicalType = .ok type) arrays
        (vectors.map NativeVector.type) ∧
      ∀ v ∈ vectors, v.rows = rows := by
  induction h with
  | nil => exact ⟨.nil, List.forall_mem_nil _⟩
  | cons made _ ih =>
    obtain ⟨⟨here, same⟩, others⟩ := List.forall_mem_cons.mp laid
    obtain ⟨typed, count⟩ := PhysicalArray.shape_of_toVector here made
    obtain ⟨typedOthers, counts⟩ := ih others
    exact ⟨.cons typed typedOthers, List.forall_mem_cons.mpr ⟨count.trans same, counts⟩⟩

/-- The type at a place is that of the array there. -/
theorem type_at (h : List.Forall₂ (fun a type => a.logicalType = .ok type) arrays types) {i : Nat}
    {a : PhysicalArray} {type : LogicalType} (there : arrays[i]? = some a)
    (typed : a.logicalType = .ok type) : types[i]? = some type := by
  obtain ⟨inside, rfl⟩ := List.getElem?_eq_some_iff.mp there
  have inside' : i < types.length := h.length_eq ▸ inside
  have found : arrays[i].logicalType = .ok types[i] := h.get inside inside'
  rw [List.getElem?_eq_getElem inside', Except.ok.inj (typed.symm.trans found)]

theorem checkWidth_eq_ok : b.checkWidth fields = .ok () ↔ b.columns.length = fields.length := by
  unfold checkWidth
  split_ifs with same <;> simp [same]

theorem checkTypes_eq_ok {number : Nat} (width : vectors.length = columns.length) :
    checkTypes number columns vectors = .ok () ↔
      vectors.map NativeVector.type = columns.map Prod.snd := by
  induction columns generalizing vectors with
  | nil =>
    obtain rfl := List.length_eq_zero_iff.mp width
    exact iff_of_true rfl rfl
  | cons column columns ih =>
    cases vectors with
    | nil => cases width
    | cons v vectors =>
      rw [checkTypes, List.map_cons, List.map_cons, List.cons_eq_cons]
      split_ifs with same
      · rw [ih (Nat.succ.inj width), and_iff_right same]
      · simp [same]

theorem checkRows_of_all {rows index : Nat} (h : ∀ v ∈ vectors, v.rows = rows) :
    NativeChunk.checkRows rows index vectors = .ok () := by
  induction vectors generalizing index with
  | nil => rfl
  | cons v vectors ih =>
    obtain ⟨first, others⟩ := List.forall_mem_cons.mp h
    rw [NativeChunk.checkRows, if_pos first, ih others]

theorem rows_of_vectors (laid : b.Laid)
    (h : List.Forall₂ (fun a n => a.toVector = .ok n) b.columns vectors) :
    ∀ v ∈ vectors, v.rows = b.keptRows := by
  intro v hv
  have some : b.columns ≠ [] := by
    intro none
    rw [none, List.forall₂_nil_left_iff] at h
    exact absurd hv (h ▸ List.not_mem_nil)
  rw [keptRows, if_neg some]
  exact (shapes_of_vectors laid h).2 v hv

/-- The vectors of a batch make a chunk. -/
theorem ofVectors_of_laid (laid : b.Laid)
    (h : List.Forall₂ (fun a n => a.toVector = .ok n) b.columns vectors) :
    NativeChunk.ofVectors vectors = .ok ⟨b.keptRows, vectors⟩ := by
  have counts := rows_of_vectors laid h
  have first : NativeChunk.firstRows vectors = b.keptRows := by
    cases vectors with
    | nil => rw [keptRows, if_pos (List.forall₂_nil_right_iff.mp h), NativeChunk.firstRows]
    | cons v _ => exact counts v List.mem_cons_self
  rw [NativeChunk.ofVectors, NativeChunk.ofRows, first, checkRows_of_all counts]
  rfl

/-- Such a chunk matches columns of those types. -/
theorem Becomes.matched (laid : b.Laid) (h : Becomes (columns.map Prod.snd) b chunk) :
    ¬chunk.Mismatched columns := by
  rintro (wide | ⟨⟨column, v⟩, paired, bad⟩)
  · apply wide
    rw [← List.length_map NativeVector.type, h.types, List.length_map]
  · obtain ⟨i, there⟩ := List.getElem?_of_mem paired
    obtain ⟨declared, found⟩ := List.getElem?_zip_eq_some.mp there
    have rows : v.rows = chunk.rows :=
      (rows_of_vectors laid h.vectors v (List.mem_of_getElem? found)).trans h.rows.symm
    have types := congrArg (fun types => types[i]?) h.types
    simp only [List.getElem?_map, found, declared, Option.map_some, Option.some_inj] at types
    exact bad.elim (fun other => other rows) fun other => other types

/-- One batch: the result goes on with its chunk behind the others. -/
theorem pushAll_cons_eq_ok (laid : b.Laid) (width : r.columns.length = fields.length) {number : Nat} :
    pushAll fields number r (b :: batches) = .ok r' ↔
      ∃ chunk, Becomes (r.columns.map Prod.snd) b chunk ∧
        pushAll fields (number + 1) ⟨r.columns, r.chunks ++ [chunk]⟩ batches = .ok r' := by
  constructor
  · intro h
    obtain ⟨⟨⟩, wide, h⟩ := Result.bind_eq_ok.mp h
    obtain ⟨vectors, made, h⟩ := Result.bind_eq_ok.mp h
    obtain ⟨⟨⟩, same, h⟩ := Result.bind_eq_ok.mp h
    rw [Batch.vectors, Result.mapM_eq_ok] at made
    have count : vectors.length = r.columns.length := by
      rw [← made.length_eq, checkWidth_eq_ok.mp wide, width]
    have becomes : Becomes (r.columns.map Prod.snd) b ⟨b.keptRows, vectors⟩ :=
      ⟨made, (checkTypes_eq_ok count).mp same, rfl⟩
    rw [ofVectors_of_laid laid made, Result.ok_bind,
      StoredResult.push_of_matched (becomes.matched laid)] at h
    exact ⟨_, becomes, h⟩
  · rintro ⟨⟨rows, vectors⟩, ⟨made, same, kept⟩, h⟩
    dsimp only at made same kept
    subst kept
    have count : vectors.length = r.columns.length := by
      rw [← List.length_map NativeVector.type, same, List.length_map]
    have wide : b.checkWidth fields = .ok () := by
      rw [checkWidth_eq_ok, made.length_eq, count, width]
    have matched : ¬NativeChunk.Mismatched r.columns ⟨b.keptRows, vectors⟩ :=
      Becomes.matched laid ⟨made, same, rfl⟩
    rw [pushAll, wide, Result.ok_bind, Batch.vectors, Result.mapM_eq_ok.mpr made, Result.ok_bind,
      (checkTypes_eq_ok count).mpr same, Result.ok_bind, ofVectors_of_laid laid made, Result.ok_bind,
      StoredResult.push_of_matched matched]
    exact h

/-- Any batches: the result holds what it held and then a chunk for each batch. -/
theorem pushAll_eq_ok (laid : ∀ b ∈ batches, b.Laid) (width : r.columns.length = fields.length)
    {number : Nat} : pushAll fields number r batches = .ok r' ↔
      ∃ chunks, List.Forall₂ (Becomes (r.columns.map Prod.snd)) batches chunks ∧
        r' = ⟨r.columns, r.chunks ++ chunks⟩ := by
  -- The result grows before the other batches are pushed, but its columns stay.
  induction batches generalizing r number with
  | nil => simp [pushAll, eq_comm]
  | cons b batches ih =>
    obtain ⟨here, later⟩ := List.forall_mem_cons.mp laid
    rw [pushAll_cons_eq_ok here width]
    constructor
    · rintro ⟨chunk, becomes, h⟩
      let extended : StoredResult := ⟨r.columns, r.chunks ++ [chunk]⟩
      obtain ⟨chunks, others, rfl⟩ := (ih (r := extended) later width).mp h
      exact ⟨chunk :: chunks, .cons becomes others, by rw [List.append_assoc]; rfl⟩
    · rintro ⟨chunks, all, rfl⟩
      cases all with
      | @cons _ chunk _ chunks becomes others =>
        let extended : StoredResult := ⟨r.columns, r.chunks ++ [chunk]⟩
        refine ⟨chunk, becomes, (ih (r := extended) later width).mpr ⟨chunks, others, ?_⟩⟩
        rw [List.append_assoc]
        rfl

theorem namedType_eq_ok {name : String} {type : Result LogicalType}
    {column : String × LogicalType} :
    namedType name type = .ok column ↔ column.1 = name ∧ type = .ok column.2 := by
  unfold namedType
  rw [Result.map_eq_ok]
  constructor
  · rintro ⟨type, found, rfl⟩
    exact ⟨rfl, found⟩
  · rintro ⟨rfl, found⟩
    exact ⟨_, found, rfl⟩

/-- Names beside types, each of which may be missing. -/
theorem mapM_namedType {α : Type} {f : α → String} {g : α → Result LogicalType} {items : List α} :
    items.mapM (fun item => namedType (f item) (g item)) = .ok columns ↔
      columns.map Prod.fst = items.map f ∧ List.Forall₂ (fun item type => g item = .ok type) items
        (columns.map Prod.snd) := by
  rw [Result.mapM_eq_ok, List.forall₂_map_right_iff]
  simp only [namedType_eq_ok]
  induction items generalizing columns with
  | nil => cases columns <;> simp
  | cons item items ih =>
    cases columns with
    | nil => simp
    | cons column columns => simp [ih, and_assoc, and_left_comm]

/-- With a batch of the fields' width its columns are named by the fields. -/
theorem columnTypes_cons {first : Batch} {rest : List Batch}
    (width : first.columns.length = fields.length) : columnTypes fields (first :: rest) =
      (fields.zip first.columns).mapM fun item => namedType item.1.1 item.2.logicalType := by
  rw [columnTypes, checkWidth_eq_ok.mpr width]
  rfl

/-- The declared columns have the names of the fields. -/
theorem columnTypes_eq_ok : columnTypes fields batches = .ok columns ↔
    columns.map Prod.fst = fields.map Prod.fst ∧ Typed fields (columns.map Prod.snd) batches := by
  cases batches with
  | nil => exact mapM_namedType
  | cons first rest =>
    by_cases width : first.columns.length = fields.length
    · have names : (fields.zip first.columns).map (fun item => item.1.1) = fields.map Prod.fst := by
        rw [← Function.comp_def Prod.fst Prod.fst, ← List.map_map, List.map_fst_zip width.ge]
      have arrays : (fields.zip first.columns).map Prod.snd = first.columns :=
        List.map_snd_zip width.le
      rw [columnTypes_cons width, mapM_namedType, names, Typed]
      nth_rewrite 2 [← arrays]
      rw [List.forall₂_map_left_iff]
    · refine iff_of_false ?_ ?_
      · intro h
        obtain ⟨⟨⟩, wide, -⟩ := Result.bind_eq_ok.mp h
        exact width (checkWidth_eq_ok.mp wide)
      · rintro ⟨names, typed⟩
        apply width
        rw [typed.length_eq, List.length_map, ← List.length_map Prod.fst, names, List.length_map]

/-- A result over batches has a column for each field and a chunk for each batch. -/
theorem toResult_eq_ok (laid : ∀ b ∈ batches, b.Laid) : toResult fields batches = .ok r ↔
    r.columns.map Prod.fst = fields.map Prod.fst ∧ Typed fields (r.columns.map Prod.snd) batches ∧
      List.Forall₂ (Becomes (r.columns.map Prod.snd)) batches r.chunks := by
  have wide {columns : List (String × LogicalType)}
      (names : columns.map Prod.fst = fields.map Prod.fst) : columns.length = fields.length := by
    rw [← List.length_map Prod.fst, names, List.length_map]
  unfold toResult
  rw [Result.bind_eq_ok]
  constructor
  · rintro ⟨columns, declared, h⟩
    obtain ⟨names, typed⟩ := columnTypes_eq_ok.mp declared
    obtain ⟨chunks, all, rfl⟩ := (pushAll_eq_ok (r := ⟨columns, []⟩) laid (wide names)).mp h
    exact ⟨names, typed, all⟩
  · rintro ⟨names, typed, all⟩
    exact ⟨r.columns, columnTypes_eq_ok.mpr ⟨names, typed⟩,
      (pushAll_eq_ok (r := ⟨r.columns, []⟩) laid (wide names)).mpr ⟨r.chunks, all, rfl⟩⟩

/-- The types that a batch's chunk has are those of its arrays. -/
theorem Becomes.typed (laid : b.Laid) (h : Becomes types b chunk) :
    List.Forall₂ (fun a type => a.logicalType = .ok type) b.columns types := by
  rw [← h.types]
  exact (shapes_of_vectors laid h.vectors).1

theorem Becomes.length_eq (h : Becomes types b chunk) : b.columns.length = types.length := by
  rw [h.vectors.length_eq, ← h.types, List.length_map]

/-- Batches of which each becomes a chunk are not refused, and none of their columns panics. -/
theorem not_refused_of_chunks (laid : ∀ b ∈ batches, b.Laid) (width : types.length = fields.length)
    (typed : Typed fields types batches) {chunks : List NativeChunk}
    (all : List.Forall₂ (Becomes types) batches chunks) :
    ¬(Refused fields batches ∨ Panics batches) := by
  have each : ∀ b ∈ batches, ∃ chunk, Becomes types b chunk := by
    intro b hb
    obtain ⟨i, inside, rfl⟩ := List.mem_iff_getElem.mp hb
    exact ⟨_, all.get inside (all.length_eq ▸ inside)⟩
  have converts {b : Batch} (hb : b ∈ batches) {a : PhysicalArray} (ha : a ∈ b.columns) :
      ∃ n, a.toVector = .ok n := by
    obtain ⟨chunk, becomes⟩ := each b hb
    exact Result.ok_of_mapM (Result.mapM_eq_ok.mpr becomes.vectors) a ha
  rintro ((⟨hb, other⟩ | ⟨hb, ha, failed, -⟩ | ⟨hb, there, there', found, found', differ⟩ |
    ⟨hf, failed⟩) | ⟨b, hb, a, ha, cause, failed⟩)
  · obtain ⟨chunk, becomes⟩ := each _ hb
    exact other (becomes.length_eq.trans width)
  · obtain ⟨n, made⟩ := converts hb ha
    exact nomatch failed.symm.trans made
  · obtain ⟨chunk, becomes⟩ := each _ (List.mem_cons_of_mem _ hb)
    have first := type_at typed there found
    have later := type_at (becomes.typed (laid _ (List.mem_cons_of_mem _ hb))) there' found'
    exact differ (Option.some.inj (later.symm.trans first))
  · obtain ⟨n, made⟩ := Result.ok_of_mapM (Result.mapM_eq_ok.mpr typed) _ hf
    exact nomatch failed.symm.trans made
  · obtain ⟨n, made⟩ := converts hb ha
    exact nomatch failed.symm.trans made

/-- Types of arrays at the same places are the same, when no place has two. -/
theorem types_eq {others : List PhysicalArray} {otherTypes : List LogicalType}
    (typed : List.Forall₂ (fun a type => a.logicalType = .ok type) arrays types)
    (otherTyped : List.Forall₂ (fun a type => a.logicalType = .ok type) others otherTypes)
    (width : others.length = arrays.length)
    (same : ∀ (i : Nat) (a other : PhysicalArray) (type otherType : LogicalType),
      arrays[i]? = some a → others[i]? = some other → a.logicalType = .ok type →
        other.logicalType = .ok otherType → otherType = type) : otherTypes = types := by
  have lengths := typed.length_eq
  have otherLengths := otherTyped.length_eq
  refine List.ext_getElem (by omega) fun i inside inside' => ?_
  exact same i _ _ _ _ (List.getElem?_eq_getElem (by omega)) (List.getElem?_eq_getElem (by omega))
    (typed.get (by omega) inside') (otherTyped.get (by omega) inside)

/-- The vectors of a batch have the declared types, or a later batch is refused for another type. -/
theorem types_of_vectors (laid : ∀ b ∈ batches, b.Laid) (typed : Typed fields types batches)
    (width : types.length = fields.length) (hb : b ∈ batches)
    (wide : b.columns.length = fields.length) (made : b.vectors = .ok vectors) :
    vectors.map NativeVector.type = types ∨ Refused fields batches := by
  by_cases refused : Refused fields batches
  · exact .inr refused
  refine .inl ?_
  obtain ⟨own, -⟩ := shapes_of_vectors (laid b hb) (Result.mapM_eq_ok.mp made)
  cases batches with
  | nil => cases hb
  | cons first rest =>
    have firstTyped : List.Forall₂ (fun a type => a.logicalType = .ok type) first.columns types :=
      typed
    have same : b.columns.length = first.columns.length := by
      rw [wide, firstTyped.length_eq, width]
    refine types_eq firstTyped own same ?_
    intro i a other type otherType there there' found found'
    rcases List.mem_cons.mp hb with rfl | later
    · rw [there, Option.some_inj] at there'
      subst there'
      exact Except.ok.inj (found'.symm.trans found)
    · exact not_not.mp fun differ => refused (.type later there there' found found' differ)

theorem cause_iff_refused {e : Error} (returned : e.isPanic = false) :
    Cause fields batches e ↔ Refused fields batches := by
  cases e with
  | panic cause => cases returned
  | _ => exact Iff.rfl

section Causes

variable (hb : b ∈ batches)
include hb

theorem checkWidth_cause : FailsOnly (Cause fields batches) (b.checkWidth fields) := by
  unfold checkWidth
  split_ifs with wide
  · exact .ok ()
  · exact .error (.width hb wide)

theorem toVector_cause {a : PhysicalArray} (ha : a ∈ b.columns) :
    FailsOnly (Cause fields batches) a.toVector := by
  intro e failed
  cases e with
  | panic cause => exact ⟨b, hb, a, ha, cause, failed⟩
  | _ => exact .column hb ha failed rfl

theorem vectors_cause : FailsOnly (Cause fields batches) b.vectors :=
  .mapM fun _ ha => toVector_cause hb ha

end Causes

theorem checkTypes_returns (number : Nat) (columns : List (String × LogicalType))
    (vectors : List NativeVector) :
    FailsOnly (·.isPanic = false) (checkTypes number columns vectors) := by
  induction columns generalizing vectors with
  | nil => exact .ok ()
  | cons column columns ih =>
    cases vectors with
    | nil => exact .ok ()
    | cons v vectors =>
      rw [checkTypes]
      split_ifs
      · exact ih vectors
      · exact .error rfl

/-- What keeps the batches from declaring columns. -/
theorem columnTypes_cause : FailsOnly (Cause fields batches) (columnTypes fields batches) := by
  cases batches with
  | nil =>
    refine .mapM fun field hf => .map (fun e failed => ?_) _
    exact (cause_iff_refused (field.2.toLogical_returns e failed)).mpr (.field hf failed)
  | cons first rest =>
    refine (checkWidth_cause List.mem_cons_self).bind fun _ _ => .mapM fun item hi => ?_
    -- An array without a column type has no vector either, for the same error.
    refine .map (fun e failed => toVector_cause List.mem_cons_self (List.of_mem_zip hi).2 e ?_) _
    rw [PhysicalArray.toVector, failed, Result.error_bind]

/-- What keeps the batches from becoming chunks of the declared types, one after another. -/
theorem pushAll_cause (laid : ∀ b ∈ batches, b.Laid)
    (typed : Typed fields (r.columns.map Prod.snd) batches) (width : r.columns.length = fields.length)
    {others : List Batch} (inside : others ⊆ batches) {number : Nat} :
    FailsOnly (Cause fields batches) (pushAll fields number r others) := by
  induction others generalizing r number with
  | nil => exact .ok r
  | cons b others ih =>
    obtain ⟨hb, inside⟩ := List.cons_subset.mp inside
    rw [pushAll]
    refine (checkWidth_cause hb).bind fun _ wide => (vectors_cause hb).bind fun vectors made => ?_
    rw [checkWidth_eq_ok] at wide
    have count : vectors.length = r.columns.length := by
      rw [← (Result.mapM_eq_ok.mp made).length_eq, wide, width]
    apply FailsOnly.bind
    · intro e failed
      have refused : Refused fields batches := by
        rcases types_of_vectors laid typed (by rw [List.length_map, width]) hb wide made with
          same | refused
        · rw [(checkTypes_eq_ok count).mpr same] at failed
          cases failed
        · exact refused
      exact (cause_iff_refused (checkTypes_returns _ _ _ e failed)).mpr refused
    · intro _ same
      have becomes : Becomes (r.columns.map Prod.snd) b ⟨b.keptRows, vectors⟩ :=
        ⟨Result.mapM_eq_ok.mp made, (checkTypes_eq_ok count).mp same, rfl⟩
      rw [ofVectors_of_laid (laid b hb) becomes.vectors, Result.ok_bind,
        StoredResult.push_of_matched (becomes.matched (laid b hb))]
      exact ih (r := ⟨r.columns, r.chunks ++ [_]⟩) typed width inside

/-- What keeps the batches from becoming a result. -/
theorem toResult_cause (laid : ∀ b ∈ batches, b.Laid) :
    FailsOnly (Cause fields batches) (toResult fields batches) := by
  refine columnTypes_cause.bind fun columns declared => ?_
  obtain ⟨names, typed⟩ := columnTypes_eq_ok.mp declared
  have width : columns.length = fields.length := by
    rw [← List.length_map Prod.fst, names, List.length_map]
  exact pushAll_cause (r := ⟨columns, []⟩) laid typed width (List.Subset.refl _)

/-- There is no result exactly when the batches are refused or a column panics. -/
theorem toResult_error_iff (laid : ∀ b ∈ batches, b.Laid) :
    (∃ e, toResult fields batches = .error e) ↔ Refused fields batches ∨ Panics batches := by
  constructor
  · rintro ⟨e, failed⟩
    have cause := toResult_cause laid e failed
    cases e with
    | panic _ => exact .inr cause
    | _ => exact .inl cause
  · intro stopped
    cases made : toResult fields batches with
    | error e => exact ⟨e, rfl⟩
    | ok r =>
      obtain ⟨names, typed, all⟩ := (toResult_eq_ok laid).mp made
      have width : (r.columns.map Prod.snd).length = fields.length := by
        rw [List.length_map, ← List.length_map Prod.fst, names, List.length_map]
      exact absurd stopped (not_refused_of_chunks laid width typed all)

theorem Becomes.toChunk_eq (laid : b.Laid) (h : Becomes types b chunk) : b.toChunk = .ok chunk := by
  rw [toChunk, Batch.vectors, Result.mapM_eq_ok.mpr h.vectors, Result.ok_bind,
    ofVectors_of_laid laid h.vectors, ← h.rows]

/-- Batches flow through whole. They make no result exactly when they are refused, which without
batches every dictionary among the fields is a reason for, or when the conversion of a column panics;
an error is returned only for the one, and the whole panics only for the other. A result has the names
of the fields, the types of the first batch, and one chunk for each batch in order, with the rows of
the batch and the vector of each of its columns in its place. Batches without columns are taken to
have no rows. -/
theorem toResult_keeps_batches (fields : List (String × DataType)) {batches : List Batch}
    (laid : ∀ b ∈ batches, b.Laid) (counted : ∀ b ∈ batches, b.columns = [] → b.rows = 0) :
    ((∃ e, toResult fields batches = .error e) ↔ Refused fields batches ∨ Panics batches) ∧
    (∀ e, toResult fields batches = .error e → e.isPanic = false → Refused fields batches) ∧
    (∀ cause, toResult fields batches = .error (.panic cause) → Panics batches) ∧
    (∀ name key content, (name, .dictionary key content) ∈ fields → Refused fields []) ∧
    ∀ r, toResult fields batches = .ok r →
      r.columns.map Prod.fst = fields.map Prod.fst ∧ Typed fields (r.columns.map Prod.snd) batches ∧
      List.Forall₂ (fun b chunk => chunk.rows = b.rows ∧ b.toChunk = .ok chunk ∧
        List.Forall₂ (fun a n => a.toVector = .ok n) b.columns chunk.vectors ∧
        chunk.vectors.map NativeVector.type = r.columns.map Prod.snd) batches r.chunks := by
  have caused : FailsOnly (Cause fields batches) (toResult fields batches) := toResult_cause laid
  refine ⟨toResult_error_iff laid, fun e failed returned => (cause_iff_refused returned).mp
    (caused e failed), fun cause failed => caused _ failed, fun name key content hf =>
    .field hf rfl, fun r made => ?_⟩
  obtain ⟨names, typed, all⟩ := (toResult_eq_ok laid).mp made
  refine ⟨names, typed, List.forall₂_iff_zip.mpr ⟨all.length_eq, fun {b chunk} paired => ?_⟩⟩
  have hb : b ∈ batches := (List.of_mem_zip paired).1
  have becomes := List.forall₂_zip all paired
  refine ⟨?_, becomes.toChunk_eq (laid b hb), becomes.vectors, becomes.types⟩
  rw [becomes.rows, keptRows]
  split_ifs with none
  · exact (counted b hb none).symm
  · rfl

/-- Two batches over one dictionary, and one with another dictionary behind the first. -/
theorem toResult_keeps_batches_of_names :
    let names (entries : List String) (codes : List Int) : PhysicalArray :=
      .dictionary .i8 (codes.map fun code => ⟨.wrap .i8 code, true⟩)
        (.utf8 .offsets32 (entries.map fun name => ⟨name, true⟩))
    let fields := [("parity", DataType.dictionary (.int .i8) (.utf8 .offsets32))]
    let first : Batch := ⟨2, [names ["even", "odd"] [0, 1]]⟩
    let second : Batch := ⟨1, [names ["even", "odd"] [1]]⟩
    let swapped : Batch := ⟨1, [names ["odd", "even"] [1]]⟩
    (∃ r, toResult fields [first, second] = .ok r ∧
      r.columns.map Prod.fst = ["parity"] ∧
      List.Forall₂ (fun b chunk => chunk.rows = b.rows ∧ b.toChunk = .ok chunk)
        [first, second] r.chunks) ∧
    ∃ e, toResult fields [first, swapped] = .error e := by
  intro names fields first second swapped
  have laid : ∀ b ∈ [first, second, swapped], b.Laid := by
    simp [Laid, first, second, swapped, names, PhysicalArray.Laid, PhysicalArray.rows,
      PhysicalArray.validity]
  have filled : ∀ b ∈ [first, second, swapped], b.columns = [] → b.rows = 0 := by
    simp [first, second, swapped]
  have kept (batches : List Batch) (some : batches ⊆ [first, second, swapped]) :=
    toResult_keeps_batches fields (fun b hb => laid b (some hb)) fun b hb => filled b (some hb)
  constructor
  · obtain ⟨r, made⟩ : ∃ r, toResult fields [first, second] = .ok r := ⟨_, by cbv⟩
    obtain ⟨-, -, -, -, whole⟩ := kept [first, second] (by simp)
    obtain ⟨declared, -, chunks⟩ := whole r made
    exact ⟨r, made, declared, chunks.imp fun b chunk same => ⟨same.1, same.2.1⟩⟩
  · obtain ⟨refused, -⟩ := kept [first, swapped] (by simp)
    refine refused.mpr (.inl (.type (i := 0) List.mem_cons_self rfl rfl rfl rfl ?_))
    decide

/-- The rows of a batch without columns are lost. -/
theorem toResult_keeps_no_bare_rows :
    let b : Batch := ⟨3, []⟩
    b.Laid ∧ ∃ r, toResult [] [b] = .ok r ∧
      ¬List.Forall₂ (fun b chunk => chunk.rows = b.rows) [b] r.chunks := by
  intro b
  refine ⟨List.forall_mem_nil _, ⟨[], [⟨0, []⟩]⟩, rfl, ?_⟩
  rintro ⟨⟩
  contradiction

end Batch
end TypedColumns.Arrow
