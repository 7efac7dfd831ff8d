import TypedColumns.Proofs.EncodedTrees
import TypedColumns.Proofs.SlotDecoding

/-!
Rows do not influence one another. Once values are written, what a row is read as depends on the type
and on the value of that row alone; so rows that are chosen from others are written as well, and are
read as they were among the others.
-/
namespace TypedColumns

theorem exists_forall₂ {α β : Type} {R : α → β → Prop} {items : List α}
    (h : ∀ item ∈ items, ∃ b, R item b) : ∃ bs, List.Forall₂ R items bs := by
  induction items with
  | nil => exact ⟨[], .nil⟩
  | cons item rest ih =>
    obtain ⟨⟨b, first⟩, others⟩ := List.forall_mem_cons.mp h
    obtain ⟨bs, later⟩ := ih others
    exact ⟨b :: bs, .cons first later⟩

namespace LogicalType

mutual

/-- The rows of every vector below are counted in 64 bits. -/
def RowsFit : LogicalType → (rows : List Value) → Prop
  | .list child, rows =>
    rows.length < sizeModulus ∧ RowsFit child (rows.map elements).flatten
  | .array child size, rows =>
    rows.length < sizeModulus ∧ RowsFit child (rows.map (arrayElements size)).flatten
  | .struct members, rows =>
    rows.length < sizeModulus ∧ AllRowsFit members (rows.map (memberCells members.length))
  | .map key content, rows => rows.length < sizeModulus ∧
      RowsFit key ((rows.map entries).flatten.map Prod.fst) ∧
      RowsFit content ((rows.map entries).flatten.map Prod.snd)
  | _, rows => rows.length < sizeModulus

/-- For the members, whose values stand in one row of cells after another. -/
def AllRowsFit : List (String × LogicalType) → (cells : List (List Value)) → Prop
  | [], _ => True
  | (_, type) :: rest, cells =>
    RowsFit type (cells.map fun row => row.headD .null) ∧ AllRowsFit rest (cells.map List.tail)

end

theorem RowsFit.count {type : LogicalType} {rows : List Value} (h : RowsFit type rows) :
    rows.length < sizeModulus := by
  cases type with
  | list _ | array _ _ | struct _ | map _ _ => exact h.1
  | _ => exact h

theorem memberCells_length_of_ok {type : LogicalType} {count : Nat} {v : Value} {cells : List Value}
    (h : memberValuesOf type count v = .ok cells) : cells.length = count := by
  unfold memberValuesOf at h
  split at h
  · cases h
    exact List.length_replicate
  · split at h
    · next same =>
      cases h
      rwa [List.length_map]
    · cases h
  · cases h

end LogicalType

namespace NativeVector

open LogicalType

/-- What makes the answer for a row of the type from its value: rows that are written are read so, and
so are any rows that are chosen from them. -/
def AnswersBy (type : LogicalType) (answer : Value → Result Value) : Prop :=
  ∀ rows n, ofValues type rows = .ok n → RowsFit type rows →
    ∀ chosen : List Value, chosen.Sublist rows →
      ∃ part, ofValues type chosen = .ok part ∧ part.Answers type (chosen.map answer)

/-- A row without a value is read as null. -/
def orNull (answer : Value → Result Value) (v : Value) : Result Value :=
  if v.isNull then .ok .null else answer v

theorem orNull_null (answer : Value → Result Value) : orNull answer .null = .ok .null := rfl

theorem orNull_present {answer : Value → Result Value} {v : Value} (present : v.isNull = false) :
    orNull answer v = answer v := by
  rw [orNull, present]
  rfl

/-- What a row of a leaf is read as is decoded from what its slot holds. -/
theorem leafAt_content {type : LogicalType} (valid : type.check = .ok ())
    (leaf : type.kind.isNested = false) : ∃ decode : List UInt8 → Result Value, ∀ n row,
      leafAt type n row = ColumnView.loaded (n.content? type.storage row) >>= decode := by
  obtain ⟨read, hr⟩ := boxed?_isSome valid leaf
  obtain ⟨decode, hd⟩ := Reader.boxed?_decodes hr
  refine ⟨decode ⟨type, valid⟩, fun n row => ?_⟩
  obtain ⟨reads, -⟩ := hd ⟨⟨type, valid⟩, n.rows, n, []⟩ rfl rfl
  rw [leafAt, Column.ofType_of_check valid, Result.ok_bind, hr]
  exact reads row

/-- A row of a leaf that holds a value is read as `answer` says, any other row as null. -/
theorem Answers.leaf {type : LogicalType} (leaf : type.kind.isNested = false) {n : NativeVector}
    {rows : List Value} {answer : Value → Result Value} (ht : n.type = type)
    (hr : n.rows = rows.length) (hb : n.bitmap = present rows)
    (reads : ∀ (row : Nat) (h : row < rows.length), rows[row].isNull = false →
      n.leafAt type row = answer rows[row]) :
    n.Answers type (rows.map (orNull answer)) := by
  refine .of_present (hasType_leaf leaf ht) hr (covers_leaf leaf n _) hb (orNull_null answer) ?_
  intro row hrow there
  rw [readPresent_leaf leaf, reads row hrow there, orNull_present there]

theorem slotted_rowwise {type : LogicalType} (valid : type.check = .ok ()) (slotted : type.isSlotted) :
    ∃ answer, AnswersBy type answer := by
  have leaf := leaf_of_slotted slotted
  obtain ⟨decode, hd⟩ := leafAt_content valid leaf
  refine ⟨orNull fun v => type.slotOf v >>= decode, ?_⟩
  intro rows n h _ chosen sub
  rw [ofValues_slotted valid slotted] at h ⊢
  obtain ⟨-, width, hw, fits⟩ := ofSlotValues_hasRows slotted h
  obtain ⟨slots, hslots, -⟩ := Result.bind_eq_ok.mp h
  obtain ⟨-, written⟩ := mapPresent_eq_ok hslots
  have fewer : chosen.length * width < sizeModulus :=
    Nat.lt_of_le_of_lt (Nat.mul_le_mul_right width sub.length_le) fits
  have written : ∀ v ∈ chosen, v.isNull = false → ∃ slot, type.slotOf v = .ok slot :=
    fun v hv => written v (sub.subset hv)
  obtain ⟨part, hpart, ht, hr, hb, slot⟩ := ofSlotValues_ok valid slotted hw written fewer
  refine ⟨part, hpart, .leaf leaf ht hr hb fun row hrow there => ?_⟩
  obtain ⟨bytes, hs⟩ := written _ (List.getElem_mem hrow) there
  have plain : type.storage.isStringLike = false := by
    have plain := storage_of_slotted slotted
    rw [Bool.or_eq_false_iff] at plain
    exact plain.1
  rw [hd, content?, plain, if_neg Bool.false_ne_true, hw, Option.getD_some,
    slot row hrow bytes there hs, hs]
  rfl

theorem payloads_rowwise {kind : Kind} (string : kind.isStringLike) :
    ∃ answer, AnswersBy (.scalar kind) answer := by
  have leaf := leaf_of_stringLike string
  obtain ⟨decode, hd⟩ := leafAt_content (check_of_stringLike string) leaf
  refine ⟨orNull fun v => (scalar kind).payloadOf v >>= decode, ?_⟩
  intro rows n h fit chosen sub
  rw [ofValues_stringLike string] at h ⊢
  obtain ⟨cells, hc, h⟩ := Result.bind_eq_ok.mp h
  obtain ⟨rfl, there⟩ := mapPresent_eq_ok hc
  obtain ⟨-, -, slots, heap, hs, -⟩ := ofPayloads_eq_ok h
  obtain ⟨-, -, short⟩ := stringSlots_shape hs
  have written : ∀ v ∈ chosen, v.isNull = false →
      ∃ payload, (scalar kind).payloadOf v = .ok payload ∧ payload.length < 0x100000000 := by
    intro v hv present
    obtain ⟨payload, hp⟩ := there v (sub.subset hv) present
    exact ⟨payload, hp, short payload
      (List.mem_map.mpr ⟨v, sub.subset hv, stored_of_ok present hp⟩)⟩
  obtain ⟨part, hpart, ht, hr, hb, payload⟩ :=
    ofPayloadValues_ok string written (Nat.lt_of_le_of_lt sub.length_le fit.count)
  refine ⟨part, hpart, .leaf leaf ht hr hb fun row hrow present => ?_⟩
  obtain ⟨bytes, hp, -⟩ := written _ (List.getElem_mem hrow) present
  have strings : (scalar kind).storage.isStringLike = true := by
    cases kind <;> first | rfl | cases string
  rw [hd, content?, strings, if_pos rfl, payload row hrow bytes present hp, hp]
  rfl

theorem nulls_rowwise : AnswersBy (.scalar .null) fun _ => .ok .null := by
  intro rows n _ _ chosen _
  refine ⟨nulls chosen.length, rfl, rfl, by rw [List.length_map]; rfl, trivial, fun row h => ?_⟩
  rw [List.length_map] at h
  rw [List.getElem_map]
  unfold NativeVector.read whenPresent
  rw [bit?_nulls h]
  rfl

theorem list_rowwise {child : LogicalType} {answer : Value → Result Value}
    (ih : AnswersBy child answer) : AnswersBy (.list child) (orNull fun v =>
      (((elements v).map answer).mapM id).map .list) := by
  intro rows n h fit chosen sub
  rw [ofValues] at h ⊢
  split at h
  · cases h
  next valid =>
  obtain ⟨cells, hcells, h⟩ := Result.bind_eq_ok.mp h
  obtain ⟨vector, hvector, -⟩ := Result.bind_eq_ok.mp h
  rw [parts_of_mapPresent elements hcells rfl fun v items => itemsOf_eq] at hvector
  obtain ⟨-, there⟩ := mapPresent_eq_ok hcells
  have written := mapPresent_ok fun v hv => there v (sub.subset hv)
  have inside : (chosen.map elements).flatten.Sublist (rows.map elements).flatten :=
    (sub.map elements).flatten
  obtain ⟨part, hpart, answers⟩ := ih _ _ hvector fit.2 _ inside
  rw [map_flatten_map] at answers
  have total : (chosen.map fun v => (elements v).map answer).flatten.length < sizeModulus := by
    rw [← map_flatten_map, List.length_map]
    exact Nat.lt_of_le_of_lt inside.length_le fit.2.count
  obtain ⟨made, hmade, result⟩ := list_answers valid (orNull_null _)
    (fun v _ present => orNull_present present) answers total
  rw [← lengths_map] at hmade
  refine ⟨made, ?_, result⟩
  simp only [written, Result.ok_bind,
    parts_of_mapPresent elements written rfl fun v items => itemsOf_eq, hpart, hmade]

theorem array_rowwise {child : LogicalType} {size : Nat} {answer : Value → Result Value}
    (ih : AnswersBy child answer) : AnswersBy (.array child size) (orNull fun v =>
      (((arrayElements size v).map answer).mapM id).map .list) := by
  intro rows n h fit chosen sub
  rw [ofValues] at h ⊢
  split at h
  · cases h
  next valid =>
  obtain ⟨items, hitems, h⟩ := Result.bind_eq_ok.mp h
  obtain ⟨vector, hvector, -⟩ := Result.bind_eq_ok.mp h
  have parts : items = rows.map (arrayElements size) :=
    Result.eq_map_of_mapM hitems fun v part found => (arrayElements_of_ok found).1
  rw [parts] at hvector
  have written : ∀ v ∈ chosen,
      arrayItemsOf (.array child size) size v = .ok (arrayElements size v) := by
    intro v hv
    obtain ⟨part, found⟩ := Result.ok_of_mapM hitems v (sub.subset hv)
    rw [found, (arrayElements_of_ok found).1]
  have sizes : ∀ v ∈ chosen, ((arrayElements size v).map answer).length = size := by
    intro v hv
    rw [List.length_map]
    exact (arrayElements_of_ok (written v hv)).2
  have inside : (chosen.map (arrayElements size)).flatten.Sublist
      (rows.map (arrayElements size)).flatten := (sub.map _).flatten
  obtain ⟨part, hpart, answers⟩ := ih _ _ hvector fit.2 _ inside
  rw [map_flatten_map] at answers
  have total : chosen.length * size < sizeModulus := by
    have uniform : ∀ part ∈ chosen.map (arrayElements size), part.length = size := by
      intro part hp
      obtain ⟨v, hv, rfl⟩ := List.mem_map.mp hp
      exact (arrayElements_of_ok (written v hv)).2
    have few := inside.length_le
    rw [length_flatten_uniform uniform, List.length_map] at few
    exact Nat.lt_of_le_of_lt few fit.2.count
  obtain ⟨made, hmade, result⟩ := array_answers valid (orNull_null _)
    (fun v _ present => orNull_present present) sizes answers total
  refine ⟨made, ?_, result⟩
  simp only [Result.mapM_eq_map written, Result.ok_bind, hpart, hmade]

theorem map_rowwise {key content : LogicalType} {keyAnswer answer : Value → Result Value}
    (ihk : AnswersBy key keyAnswer) (ihw : AnswersBy content answer) :
    AnswersBy (.map key content) (orNull fun v =>
      (((entries v).map fun pair => (keyAnswer pair.1, answer pair.2)).mapM entryAnswer).map
        .map) := by
  let both (pair : Value × Value) : Result Value × Result Value := (keyAnswer pair.1, answer pair.2)
  intro rows n h fit chosen sub
  rw [ofValues] at h ⊢
  split at h
  · cases h
  next valid =>
  obtain ⟨cells, hcells, h⟩ := Result.bind_eq_ok.mp h
  rw [parts_of_mapPresent entries hcells rfl fun v pairs => entriesOf_eq] at h
  obtain ⟨keys, hkeys, h⟩ := Result.bind_eq_ok.mp h
  obtain ⟨contents, hcontents, -⟩ := Result.bind_eq_ok.mp h
  obtain ⟨-, there⟩ := mapPresent_eq_ok hcells
  have written := mapPresent_ok fun v hv => there v (sub.subset hv)
  have inside : (chosen.map entries).flatten.Sublist (rows.map entries).flatten :=
    (sub.map entries).flatten
  obtain ⟨keyPart, hkeyPart, keyAnswers⟩ := ihk _ _ hkeys fit.2.1 _ (inside.map Prod.fst)
  obtain ⟨part, hpart, answers⟩ := ihw _ _ hcontents fit.2.2 _ (inside.map Prod.snd)
  have joined := map_flatten_map both entries chosen
  have count : (chosen.map entries).flatten.length =
      (chosen.map fun v => (entries v).map both).flatten.length := by
    rw [← joined, List.length_map]
  have total : (chosen.map fun v => (entries v).map both).flatten.length < sizeModulus := by
    have few := fit.2.1.count
    rw [List.length_map] at few
    rw [← count]
    exact Nat.lt_of_le_of_lt inside.length_le few
  have keyAnswers : keyPart.Answers key
      ((chosen.map fun v => (entries v).map both).flatten.map Prod.fst) := by
    rw [← joined, List.map_map]
    rwa [List.map_map] at keyAnswers
  have answers : part.Answers content
      ((chosen.map fun v => (entries v).map both).flatten.map Prod.snd) := by
    rw [← joined, List.map_map]
    rwa [List.map_map] at answers
  obtain ⟨structs, made, hstructs, hmade, result⟩ := map_answers valid (orNull_null _)
    (fun v _ present => orNull_present present) keyAnswers answers total
  rw [← count] at hstructs hmade
  rw [← lengths_map both] at hmade
  refine ⟨made, ?_, result⟩
  simp only [written, Result.ok_bind,
    parts_of_mapPresent entries written rfl fun v pairs => entriesOf_eq, hkeyPart, hpart, hstructs,
    hmade]

/-- The answers for the members of a row, by one function for each of them. -/
def memberAnswers (answers : List (Value → Result Value)) (cells : List Value) :
    List (Result Value) :=
  List.zipWith (fun answer v => answer v) answers cells

theorem columns_rowwise {members : List (String × LogicalType)}
    {answers : List (Value → Result Value)}
    (each : List.Forall₂ (fun m answer => AnswersBy m.2 answer) members answers)
    {cells : List (List Value)} {vectors : List NativeVector}
    (h : ofColumns members cells = .ok vectors) (fit : AllRowsFit members cells)
    (counts : ∀ row ∈ cells, row.length = members.length) {chosen : List (List Value)}
    (sub : chosen.Sublist cells) : ∃ parts, ofColumns members chosen = .ok parts ∧
      AnswerAll members parts (chosen.map (memberAnswers answers)) := by
  induction each generalizing cells vectors chosen with
  | nil =>
    refine ⟨[], rfl, .nil fun row hrow => ?_⟩
    obtain ⟨cell, -, rfl⟩ := List.mem_map.mp hrow
    rfl
  | @cons m answer rest others first _ ih =>
    rw [ofColumns] at h
    obtain ⟨vector, hvector, h⟩ := Result.bind_eq_ok.mp h
    obtain ⟨vectors, hvectors, -⟩ := Result.bind_eq_ok.mp h
    obtain ⟨part, hpart, heads⟩ := first _ _ hvector fit.1 _ (sub.map _)
    obtain ⟨parts, hparts, tails⟩ := ih hvectors fit.2 (by
      intro row hrow
      obtain ⟨cell, hc, rfl⟩ := List.mem_map.mp hrow
      rw [List.length_tail, counts cell hc]
      rfl) (sub.map List.tail)
    have split : ∀ cell ∈ chosen, ∃ v values, cell = v :: values := by
      intro cell hc
      have count := counts cell (sub.subset hc)
      cases cell with
      | nil => cases count
      | cons v values => exact ⟨v, values, rfl⟩
    have made : ofColumns (m :: rest) chosen = .ok (part :: parts) := by
      rw [ofColumns, hpart, Result.ok_bind, hparts]
      rfl
    refine ⟨part :: parts, made, .cons ?_ ?_ ?_⟩
    · intro row hrow
      obtain ⟨cell, hc, rfl⟩ := List.mem_map.mp hrow
      obtain ⟨v, values, rfl⟩ := split cell hc
      exact List.cons_ne_nil _ _
    · rw [List.map_map] at heads ⊢
      convert heads using 1
      apply List.map_congr_left
      intro cell hc
      obtain ⟨v, values, rfl⟩ := split cell hc
      rfl
    · rw [List.map_map] at tails ⊢
      convert tails using 1
      apply List.map_congr_left
      intro cell hc
      obtain ⟨v, values, rfl⟩ := split cell hc
      rfl

theorem struct_rowwise {members : List (String × LogicalType)}
    {answers : List (Value → Result Value)}
    (each : List.Forall₂ (fun m answer => AnswersBy m.2 answer) members answers) :
    AnswersBy (.struct members) (orNull fun v =>
      ((memberAnswers answers (memberCells members.length v)).mapM id).map fun values =>
        .struct ((members.map Prod.fst).zip values)) := by
  intro rows n h fit chosen sub
  rw [ofValues] at h ⊢
  split at h
  · cases h
  next valid =>
  obtain ⟨cells, hcells, h⟩ := Result.bind_eq_ok.mp h
  obtain ⟨vectors, hvectors, -⟩ := Result.bind_eq_ok.mp h
  have parts : cells = rows.map (memberCells members.length) :=
    Result.eq_map_of_mapM hcells fun v part => memberCells_of_ok
  rw [parts] at hvectors
  have written : ∀ v ∈ rows,
      memberValuesOf (.struct members) members.length v = .ok (memberCells members.length v) := by
    intro v hv
    obtain ⟨part, found⟩ := Result.ok_of_mapM hcells v hv
    rw [found, memberCells_of_ok found]
  have counts : ∀ row ∈ rows.map (memberCells members.length), row.length = members.length := by
    intro row hrow
    obtain ⟨v, hv, rfl⟩ := List.mem_map.mp hrow
    exact memberCells_length_of_ok (written v hv)
  obtain ⟨vectors, hparts, all⟩ := columns_rowwise each hvectors fit.2 counts (sub.map _)
  rw [List.map_map] at all
  obtain ⟨made, hmade, result⟩ := struct_answers valid (orNull_null _)
    (fun v _ present => orNull_present present) all
  refine ⟨made, ?_, result⟩
  simp only [Result.mapM_eq_map fun v hv => written v (sub.subset hv), Result.ok_bind, hparts,
    hmade]

/-- In a column without a UNION, what a row is read as is made from the value of that row alone. -/
theorem rowwise {type : LogicalType} (free : type.isUnionFree) : ∃ answer, AnswersBy type answer := by
  induction type using induction_on_members with
  | scalar kind =>
    cases valid : (LogicalType.scalar kind).check with
    | error fault =>
      refine ⟨fun _ => .ok .null, fun rows n h => ?_⟩
      rw [ofValues, valid] at h
      cases h
    | ok =>
      by_cases null : kind = .null
      · subst null
        exact ⟨_, nulls_rowwise⟩
      · by_cases string : kind.isStringLike
        · exact payloads_rowwise string
        · have leaf := check_scalar_nested valid
          refine slotted_rowwise valid ?_
          simp [isSlotted, LogicalType.kind] at leaf ⊢
          simp [leaf, string, null]
  | decimal width scale =>
    cases valid : (LogicalType.decimal width scale).check with
    | error fault =>
      refine ⟨fun _ => .ok .null, fun rows n h => ?_⟩
      rw [ofValues, valid] at h
      cases h
    | ok => exact slotted_rowwise valid rfl
  | enum dictionary =>
    cases valid : (LogicalType.enum dictionary).check with
    | error fault =>
      refine ⟨fun _ => .ok .null, fun rows n h => ?_⟩
      rw [ofValues, valid] at h
      cases h
    | ok => exact slotted_rowwise valid rfl
  | list child ih =>
    obtain ⟨answer, h⟩ := ih free
    exact ⟨_, list_rowwise h⟩
  | array child size ih =>
    obtain ⟨answer, h⟩ := ih free
    exact ⟨_, array_rowwise h⟩
  | struct members ih =>
    have each : ∀ m ∈ members, ∃ answer, AnswersBy m.2 answer :=
      fun m hm => ih m hm (isUnionFree_of_mem free hm)
    obtain ⟨answers, h⟩ := exists_forall₂ each
    exact ⟨_, struct_rowwise h⟩
  | map key content ihk ihw =>
    simp only [isUnionFree, Bool.and_eq_true] at free
    obtain ⟨keyAnswer, hk⟩ := ihk free.1
    obtain ⟨answer, hw⟩ := ihw free.2
    exact ⟨_, map_rowwise hk hw⟩
  | union _ _ => cases free

end NativeVector
end TypedColumns
