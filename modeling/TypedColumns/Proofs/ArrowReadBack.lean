import TypedColumns.Proofs.ArrowRows

/-!
Arrow arrays are read back as what their rows stand for. An array of lists, structs or maps becomes
values before it becomes a vector, and its rows may be null or leave out rows of the children; so the
induction over an array is about all rows that can be drawn from it in order.
-/
namespace TypedColumns.Arrow.PhysicalArray

open LogicalType NativeVector

variable {α : Type}

/-- Values sit in child arrays. -/
def isNested : PhysicalArray → Bool
  | list _ _ _ _ _ | fixedList _ _ _ _ | struct _ _ | map _ _ _ _ _ _ _ => true
  | _ => false

/-- The children have the rows that the array's rows refer to. -/
def Laid : PhysicalArray → Prop
  | list _ _ offsets valid child => Offsets offsets valid.length child.rows
  | fixedList _ size valid child => valid.length * size ≤ child.rows
  | struct fields valid => ∀ field ∈ fields, field.2.rows = valid.length
  | map _ _ _ offsets valid key value =>
    Offsets offsets valid.length key.rows ∧ value.rows = key.rows
  | _ => True

def OnValid (P : α → Prop) (cells : List (Cell α)) : Prop :=
  ∀ cell ∈ cells, cell.valid → P cell.content

/-- The array is of a type with a column type, and its valid cells are in range: payloads below
4 GiB, days of 32 bits, times up to 24:00:00, instants of the calendar that no slot takes for an
infinity, numbers with no more digits than their column. -/
def InRange : PhysicalArray → Prop
  | utf8 _ cells => OnValid (fun text => (Utf8.encode text).length < 0x100000000) cells
  | binary _ cells | fixedBinary _ cells => OnValid (fun bytes => bytes.length < 0x100000000) cells
  | date64 cells => OnValid (fun millis => IntKind.i32.Holds (millis.val / 86400000)) cells
  | time32 unit cells => OnValid (fun raw =>
      0 ≤ raw.val * unit.nanoseconds ∧ raw.val * unit.nanoseconds ≤ 86400000000000) cells
  | time64 unit cells => OnValid (fun raw =>
      0 ≤ raw.val * unit.nanoseconds ∧ raw.val * unit.nanoseconds ≤ 86400000000000) cells
  | timestamp unit _ cells => OnValid (fun raw => Timestamp.slotFinite raw ∧
      (DateTime.ofNanos? (raw.val * unit.nanoseconds)).isSome) cells
  | decimal128 precision scale cells => 0 ≤ scale ∧ decimalAllowed precision scale.toNat ∧
      OnValid (fun n => n.val.natAbs < 10 ^ precision) cells
  | dictionary _ _ _ | unread _ _ => False
  | _ => True

/-- One array by itself, its children apart. -/
structure Storable (a : PhysicalArray) : Prop where
  laid : a.Laid
  inRange : a.InRange
  /-- Slots of all rows fit in the memory. -/
  room : a.rows * 16 < sizeModulus

/-- The array and every array inside it have the property. -/
inductive Everywhere (P : PhysicalArray → Prop) : PhysicalArray → Prop where
  | leaf {a : PhysicalArray} (bare : a.isNested = false) (here : P a) : Everywhere P a
  | list {large : Bool} {name : String} {offsets : List Nat} {valid : List Bool}
    {child : PhysicalArray} (here : P (list large name offsets valid child))
    (inside : Everywhere P child) : Everywhere P (list large name offsets valid child)
  | fixedList {name : String} {size : Nat} {valid : List Bool} {child : PhysicalArray}
    (here : P (fixedList name size valid child)) (inside : Everywhere P child) :
    Everywhere P (fixedList name size valid child)
  | struct {fields : List (String × PhysicalArray)} {valid : List Bool}
    (here : P (struct fields valid)) (inside : ∀ field ∈ fields, Everywhere P field.2) :
    Everywhere P (struct fields valid)
  | map {name keyName valueName : String} {offsets : List Nat} {valid : List Bool}
    {key value : PhysicalArray} (here : P (map name keyName valueName offsets valid key value))
    (keys : Everywhere P key) (values : Everywhere P value) :
    Everywhere P (map name keyName valueName offsets valid key value)

/-- The values of the array are stored as the contents of its rows, in a column without a UNION that
has room for all rows that can be drawn. -/
structure Faithful (a : PhysicalArray) (content : Nat → Value) (type : LogicalType)
    (vals : List Value) : Prop where
  typed : a.logicalType = .ok type
  valid : type.check = .ok ()
  free : type.isUnionFree
  values : a.values = .ok vals
  stored : List.Forall₂ (StoredAs type) vals ((List.range a.rows).map content)
  fits : ∀ rows, DrawnFrom content a.rows rows → Fits type rows

/-- What the rows stand for. -/
def contents (a : PhysicalArray) : List Value := (List.range a.rows).map a.element

theorem length_contents (a : PhysicalArray) : a.contents.length = a.rows := by
  rw [contents, List.length_map, List.length_range]

/-- What a string-like column stores of the value has a length of 32 bits. -/
def ShortPayload (type : LogicalType) (v : Value) : Prop :=
  ∀ payload, type.payloadOf v = .ok payload → payload.length < 0x100000000

theorem shortPayload_null (type : LogicalType) : ShortPayload type .null := by
  intro payload h
  unfold payloadOf at h
  cases hk : type.kind <;> rw [hk] at h <;> cases h

/-- Other columns store no payloads. -/
theorem shortPayload_of_plain {type : LogicalType} (plain : type.kind.isStringLike = false)
    (v : Value) : ShortPayload type v := by
  intro payload h
  unfold payloadOf at h
  cases hk : type.kind <;> rw [hk] at h plain <;> first | cases h | cases plain

/-- Slots are at most 16 bytes wide, so that a column without children has room for as many rows as
the array has. -/
theorem fits_of_drawn {content : Nat → Value} {count : Nat} {type : LogicalType}
    (leaf : type.kind.isNested = false) (room : count * 16 < sizeModulus)
    (short : ∀ row, ShortPayload type (content row)) {rows : List Value}
    (h : DrawnFrom content count rows) : Fits type rows := by
  have width : type.storage.slotWidth?.getD 0 ≤ 16 := by
    cases hw : type.storage.slotWidth? with
    | none => exact Nat.zero_le _
    | some width => exact slotWidth_le hw
  have slots : rows.length * type.storage.slotWidth?.getD 0 < sizeModulus :=
    Nat.lt_of_le_of_lt (Nat.mul_le_mul h.length_le width) room
  have payloads : ∀ v ∈ rows, ShortPayload type v := by
    obtain ⟨indices, each, -⟩ := List.sublistForall₂_iff.mp h
    refine (forall_of_forall₂ (Q := fun _ => True) each ?_).1
    rintro v row (rfl | rfl)
    · exact ⟨shortPayload_null type, trivial⟩
    · exact ⟨short row, trivial⟩
  cases type with
  | list _ | array _ _ | struct _ | map _ _ | union _ => cases leaf
  | _ => exact ⟨slots, payloads⟩

section Cells

variable {a : PhysicalArray} {content : Nat → Value} {type : LogicalType} {box : α → Value}
  {cells : List (Cell α)}

theorem contents_cells (flags : a.validity = cells.map Cell.valid)
    (element : ∀ row, content row = cellAt box cells row) :
    (List.range a.rows).map content = cells.map (boxed box) := by
  have count : a.rows = cells.length := by rw [rows, flags, List.length_map]
  rw [count]
  apply List.ext_getElem (by simp)
  intro row _ inside
  rw [List.length_map] at inside
  simp [element, cellAt, inside]

/-- An array of cells, each of which has a value that is stored as what the cell stands for. -/
theorem faithful_of_cells {value : α → Result Value} (typed : a.logicalType = .ok type)
    (flags : a.validity = cells.map Cell.valid)
    (element : ∀ row, content row = cellAt box cells row)
    (values : a.values = cellValues value cells) (valid : type.check = .ok ())
    (leaf : type.kind.isNested = false) (room : a.rows * 16 < sizeModulus)
    (each : OnValid (fun x => ∃ v, value x = .ok v ∧ StoredAs type v (box x)) cells)
    (short : OnValid (fun x => ShortPayload type (box x)) cells) : ∃ vals, a.Faithful content type vals := by
  have free : type.isUnionFree := by
    cases type with
    | list _ | array _ _ | struct _ | map _ _ | union _ => cases leaf
    | _ => rfl
  refine ⟨cells.map (cellValue value), typed, valid, free, ?_, ?_, fun rows drawn => ?_⟩
  · rw [values, cellValues_ok fun cell hc valid => (each cell hc valid).imp fun _ h => h.1]
  · rw [contents_cells flags element, List.forall₂_map_left_iff, List.forall₂_map_right_iff,
      List.forall₂_same]
    intro cell hc
    by_cases there : cell.valid
    · obtain ⟨v, hv, stored⟩ := each cell hc there
      rwa [cellValue_of_ok there hv, boxed, if_pos there]
    · rw [cellValue, boxed, if_neg there, if_neg there]
      exact storedAs_null type
  · refine fits_of_drawn leaf room (fun row => ?_) drawn
    rw [element, cellAt]
    cases found : cells[row]? with
    | none => exact shortPayload_null type
    | some cell =>
      rw [Option.elim_some, boxed]
      by_cases there : cell.valid
      · rw [if_pos there]
        exact short cell (List.mem_of_getElem? found) there
      · rw [if_neg there]
        exact shortPayload_null type

end Cells

/-- An array of cells that all have a value. -/
theorem faithful_of_plain {a : PhysicalArray} {content : Nat → Value} {type : LogicalType}
    {value box : α → Value} {cells : List (Cell α)} (typed : a.logicalType = .ok type)
    (flags : a.validity = cells.map Cell.valid)
    (element : ∀ row, content row = cellAt box cells row)
    (values : a.values = plainValues value cells) (valid : type.check = .ok ())
    (leaf : type.kind.isNested = false) (room : a.rows * 16 < sizeModulus)
    (each : OnValid (fun x => StoredAs type (value x) (box x)) cells)
    (short : OnValid (fun x => ShortPayload type (box x)) cells) : ∃ vals, a.Faithful content type vals :=
  faithful_of_cells typed flags element values valid leaf room
    (fun cell hc there => ⟨_, rfl, each cell hc there⟩) short

/-- The same of a column without payloads. -/
theorem faithful_of_slots {a : PhysicalArray} {content : Nat → Value} {type : LogicalType}
    {value box : α → Value} {cells : List (Cell α)} (typed : a.logicalType = .ok type)
    (flags : a.validity = cells.map Cell.valid)
    (element : ∀ row, content row = cellAt box cells row)
    (values : a.values = plainValues value cells) (valid : type.check = .ok ())
    (leaf : type.kind.isNested = false) (plain : type.kind.isStringLike = false)
    (room : a.rows * 16 < sizeModulus)
    (each : OnValid (fun x => StoredAs type (value x) (box x)) cells) :
    ∃ vals, a.Faithful content type vals :=
  faithful_of_plain typed flags element values valid leaf room each
    fun _ _ _ => shortPayload_of_plain plain _

theorem faithful_null {rows : Nat} (room : rows * 16 < sizeModulus) :
    ∃ vals, (null rows).Faithful (null rows).element (scalar .null) vals := by
  have count : (null rows).rows = rows := by rw [PhysicalArray.rows, validity, List.length_replicate]
  have missing : (List.range (null rows).rows).map (null rows).element = List.replicate rows .null := by
    rw [count]
    exact List.map_const'.trans (by rw [List.length_range])
  refine ⟨List.replicate rows .null, rfl, rfl, rfl, rfl, ?_, fun drawn h => ?_⟩
  · rw [missing, List.forall₂_same]
    intro v hv
    rw [List.eq_of_mem_replicate hv]
    exact storedAs_null _
  · exact fits_of_drawn rfl (by rwa [count]) (fun _ => shortPayload_null _) h

/-- An array without children that can be stored. -/
theorem faithful_leaf {a : PhysicalArray} (bare : a.isNested = false) (h : a.Storable) :
    ∃ type vals, a.Faithful a.element type vals := by
  obtain ⟨-, inRange, room⟩ := h
  cases a with
  | null rows =>
    refine ⟨_, faithful_null ?_⟩
    rwa [PhysicalArray.rows, validity, List.length_replicate] at room
  | boolean cells =>
    refine ⟨_, faithful_of_slots rfl rfl (fun _ => rfl) rfl rfl rfl rfl room ?_⟩
    exact fun _ _ _ => storedAs_self rfl (.inr (boolean_readable _))
  | int k cells =>
    refine ⟨_, faithful_of_slots rfl rfl (fun _ => rfl) rfl rfl rfl rfl room ?_⟩
    exact fun _ _ _ => storedAs_self rfl (canonical_of_hasSlot rfl rfl rfl (int_slotHolds _).read)
  | float format cells =>
    cases format with
    | single =>
      refine ⟨_, faithful_of_slots rfl rfl (fun _ => rfl) rfl rfl rfl rfl room ?_⟩
      exact fun _ _ _ => storedAs_self rfl (canonical_of_hasSlot rfl rfl rfl (float_hasSlot _))
    | double =>
      refine ⟨_, faithful_of_slots rfl rfl (fun _ => rfl) rfl rfl rfl rfl room ?_⟩
      exact fun _ _ _ => storedAs_self rfl (canonical_of_hasSlot rfl rfl rfl (double_hasSlot _))
  | utf8 layout cells =>
    have short : OnValid (fun text => ShortPayload (scalar .varchar) (.text text)) cells := by
      rintro cell hc there payload ⟨⟩
      exact inRange cell hc there
    refine ⟨_, faithful_of_plain rfl rfl (fun _ => rfl) rfl rfl rfl room ?_ short⟩
    exact fun cell hc there =>
      storedAs_self rfl (canonical_of_hasPayload rfl rfl (text_hasPayload _) (short cell hc there))
  | binary _ cells | fixedBinary _ cells =>
    have short : OnValid (fun bytes => ShortPayload (scalar .blob) (.blob bytes)) cells := by
      rintro cell hc there payload ⟨⟩
      exact inRange cell hc there
    refine ⟨_, faithful_of_plain rfl rfl (fun _ => rfl) rfl rfl rfl room ?_ short⟩
    exact fun cell hc there =>
      storedAs_self rfl (canonical_of_hasPayload rfl rfl (blob_hasPayload _) (short cell hc there))
  | date32 cells =>
    refine ⟨_, faithful_of_slots rfl rfl (fun _ => rfl) rfl rfl rfl rfl room ?_⟩
    exact fun _ _ _ => (dayValue_slotHolds _).stored rfl rfl rfl rfl
  | date64 cells =>
    refine ⟨_, faithful_of_cells rfl rfl (fun _ => rfl) rfl rfl rfl room ?_ ?_⟩
    · intro cell hc there
      let days : Word .i32 := ⟨_, inRange cell hc there⟩
      have found : dateOfMillis cell.content = .ok (.rawDate days) := by
        have word : Word.ofInt? .i32 (cell.content.val / 86400000) = some days :=
          dif_pos (inRange cell hc there)
        simp only [dateOfMillis, word]
      exact ⟨_, found, (dayValue_slotHolds days).stored rfl rfl rfl rfl⟩
    · exact fun _ _ _ => shortPayload_of_plain rfl _
  | time32 unit cells | time64 unit cells =>
    refine ⟨_, faithful_of_slots rfl rfl (fun _ => rfl) rfl rfl rfl rfl room ?_⟩
    exact fun cell hc there => timeMicros_stored (inRange cell hc there)
  | timestamp unit zone cells =>
    cases zone with
    | none =>
      refine ⟨_, faithful_of_cells rfl rfl (fun _ => rfl) rfl ?_ ?_ room ?_ ?_⟩
      · cases unit <;> rfl
      · cases unit <;> rfl
      · exact fun cell hc there => naive_stored (inRange cell hc there).1 (inRange cell hc there).2
      · exact fun _ _ _ => shortPayload_of_plain (by cases unit <;> rfl) _
    | some zone =>
      refine ⟨_, faithful_of_cells rfl rfl (fun _ => rfl) rfl rfl rfl room ?_ ?_⟩
      · exact fun cell hc there => zoned_stored zone (inRange cell hc there).2
      · exact fun _ _ _ => shortPayload_of_plain rfl _
  | monthDayNano cells =>
    refine ⟨_, faithful_of_slots rfl rfl (fun _ => rfl) rfl rfl rfl rfl room ?_⟩
    exact fun _ _ _ => storedAs_self rfl (canonical_of_hasSlot rfl rfl rfl (interval_hasSlot _))
  | decimal128 precision scale cells =>
    obtain ⟨positive, allowed, digits⟩ := inRange
    have valid : (decimal precision scale.toNat).check = .ok () := if_pos allowed
    have typed : (decimal128 precision scale cells).logicalType =
        .ok (decimal precision scale.toNat) := by
      have column : decimal? precision scale.toNat = some (decimal precision scale.toNat) :=
        if_pos allowed
      show DataType.toLogical (.decimal128 precision scale) = _
      unfold DataType.toLogical DataType.decimalType
      rw [if_pos positive, column]
    have small : precision ≤ 38 := by
      simp only [decimalAllowed, Bool.and_eq_true, decide_eq_true_eq] at allowed
      exact allowed.1.2
    refine ⟨_, faithful_of_slots typed rfl (fun _ => rfl) rfl valid rfl rfl room ?_⟩
    exact fun cell hc there => decimal_stored valid small (digits cell hc there)
  | dictionary _ _ _ | unread _ _ => exact inRange.elim
  | list _ _ _ _ _ | fixedList _ _ _ _ | struct _ _ | map _ _ _ _ _ _ _ => cases bare

theorem storedAs_whereValid {type : LogicalType} {valid : List Bool} {row : Nat} {v x : Value}
    (h : StoredAs type v x) :
    StoredAs type (whereValid valid row v) (whereValid valid row x) := by
  unfold whereValid
  split
  · exact h
  · exact storedAs_null type

/-- Rows of the array, null where the flag is clear. -/
theorem stored_rows {type : LogicalType} {valid : List Bool} {v x : Nat → Value}
    (each : ∀ row < valid.length, StoredAs type (v row) (x row)) :
    List.Forall₂ (StoredAs type) (masked valid ((List.range valid.length).map v))
      ((List.range valid.length).map fun row => whereValid valid row (x row)) := by
  rw [masked_range, List.forall₂_map_left_iff, List.forall₂_map_right_iff, List.forall₂_same]
  intro row inside
  exact storedAs_whereValid (each row (List.mem_range.mp inside))

section Lists

variable {name : String} {offsets : List Nat} {valid : List Bool}

section OneChild

variable {child : PhysicalArray} {content : Nat → Value} {type : LogicalType} {vals : List Value}

theorem faithful_list (h : child.Faithful content type vals) {large : Bool}
    (laid : Offsets offsets valid.length child.rows) (room : child.rows * 16 < sizeModulus) :
    ∃ vals, (list large name offsets valid child).Faithful
      (fun row => whereValid valid row (.list ((spanRows offsets row).map content)))
      (.list type) vals := by
  refine ⟨masked valid ((spans vals offsets).map .list), ?_, ?_, h.free, ?_, ?_, ?_⟩
  · rw [logicalType, h.typed]
    rfl
  · rw [check_list, h.valid]
  · rw [values, h.values]
    rfl
  · have count : offsets.length - 1 = valid.length := by rw [laid.count, Nat.add_sub_cancel]
    rw [spans_eq, count, List.map_map]
    refine stored_rows fun row inside => ?_
    obtain ⟨ascending, last⟩ := laid.span inside
    exact .inr ⟨_, _, rfl, rfl, window_related h.stored (by omega)⟩
  · intro rows drawn
    have below := drawn.list laid
    refine ⟨?_, h.fits _ below⟩
    have few := below.length_le
    omega

theorem faithful_fixedList (h : child.Faithful content type vals) {size : Nat}
    (laid : valid.length * size ≤ child.rows) (room : child.rows * 16 < sizeModulus) :
    ∃ vals, (fixedList name size valid child).Faithful
      (fun row => whereValid valid row (.list ((List.range' (row * size) size).map content)))
      (.array type size) vals := by
  refine ⟨masked valid ((runs size valid.length vals).map .list), ?_, ?_, h.free, ?_, ?_, ?_⟩
  · rw [logicalType, h.typed]
    rfl
  · rw [check_array, h.valid]
  · rw [values, h.values]
    rfl
  · rw [runs_eq, List.map_map]
    refine stored_rows fun row inside => ?_
    have last : row * size + size ≤ valid.length * size := by
      rw [← Nat.succ_mul]
      exact Nat.mul_le_mul_right size inside
    refine .inr ⟨_, _, rfl, rfl, ?_, window_related h.stored (by omega)⟩
    rw [List.length_map, List.length_range']
  · intro rows drawn
    refine ⟨?_, h.fits _ (drawn.fixedList laid)⟩
    have few : rows.length * size ≤ valid.length * size :=
      Nat.mul_le_mul_right size drawn.length_le
    omega

end OneChild

theorem faithful_map {keyName valueName : String} {key value : PhysicalArray}
    {keyContent content : Nat → Value} {keyType valueType : LogicalType} {keyVals vals : List Value}
    (hk : key.Faithful keyContent keyType keyVals) (hw : value.Faithful content valueType vals)
    (laid : Offsets offsets valid.length key.rows) (same : value.rows = key.rows)
    (room : key.rows * 16 < sizeModulus) : ∃ vals,
      (map name keyName valueName offsets valid key value).Faithful
        (fun row => whereValid valid row
          (.map ((spanRows offsets row).map fun j => (keyContent j, content j))))
        (.map keyType valueType) vals := by
  refine ⟨masked valid ((spans (keyVals.zip vals) offsets).map .map), ?_, ?_, ?_, ?_, ?_, ?_⟩
  · rw [logicalType, hk.typed, hw.typed]
    rfl
  · rw [check, hk.valid]
    exact hw.valid
  · rw [isUnionFree, hk.free, hw.free]
    rfl
  · rw [values, hk.values, hw.values]
    rfl
  · have count : offsets.length - 1 = valid.length := by rw [laid.count, Nat.add_sub_cancel]
    have pairs := zip_related hk.stored hw.stored
    rw [same, List.zip_map'] at pairs
    rw [spans_eq, count, List.map_map]
    refine stored_rows fun row inside => ?_
    obtain ⟨ascending, last⟩ := laid.span inside
    exact .inr ⟨_, _, rfl, rfl, window_related pairs (by omega)⟩
  · intro rows drawn
    obtain ⟨keys, contents⟩ := drawn.map laid
    have few := keys.length_le
    rw [List.length_map] at few
    exact ⟨by omega, hk.fits _ keys, hw.fits _ (by rwa [same])⟩

end Lists

/-- The same of every field, with its contents and with the member and the values that it becomes. -/
inductive FaithfulFields : List (String × PhysicalArray) → List (Nat → Value) →
    List (String × LogicalType) → List (List Value) → Prop where
  | nil : FaithfulFields [] [] [] []
  | cons {name : String} {a : PhysicalArray} {content : Nat → Value} {type : LogicalType}
    {vals : List Value} {fields : List (String × PhysicalArray)} {contents : List (Nat → Value)}
    {members : List (String × LogicalType)} {columns : List (List Value)}
    (first : a.Faithful content type vals) (rest : FaithfulFields fields contents members columns) :
    FaithfulFields ((name, a) :: fields) (content :: contents) ((name, type) :: members)
      (vals :: columns)

theorem faithfulFields_of_faithful {fields : List (String × PhysicalArray)}
    {content : PhysicalArray → Nat → Value}
    (h : ∀ field ∈ fields, ∃ type vals, field.2.Faithful (content field.2) type vals) :
    ∃ members columns,
      FaithfulFields fields (fields.map fun field => content field.2) members columns := by
  induction fields with
  | nil => exact ⟨[], [], .nil⟩
  | cons field rest ih =>
    obtain ⟨name, a⟩ := field
    obtain ⟨⟨type, vals, first⟩, others⟩ := List.forall_mem_cons.mp h
    obtain ⟨members, columns, later⟩ := ih others
    exact ⟨_, _, .cons first later⟩

theorem Faithful.stored_at {a : PhysicalArray} {content : Nat → Value} {type : LogicalType}
    {vals : List Value} (h : a.Faithful content type vals) {row : Nat} (inside : row < a.rows) :
    StoredAs type (vals[row]?.getD .null) (content row) := by
  have there : row < ((List.range a.rows).map content).length := by
    rwa [List.length_map, List.length_range]
  have first : row < vals.length := by rwa [h.stored.length_eq]
  have each := h.stored.get first there
  simp only [List.get_eq_getElem, List.getElem_map, List.getElem_range] at each
  rwa [List.getElem?_eq_getElem first]

namespace FaithfulFields

variable {fields : List (String × PhysicalArray)} {contents : List (Nat → Value)}
  {members : List (String × LogicalType)} {columns : List (List Value)}

theorem typed (h : FaithfulFields fields contents members columns) :
    memberTypes fields = .ok members := by
  induction h with
  | nil => rfl
  | cons first _ ih =>
    rw [memberTypes, first.typed, Result.ok_bind, ih]
    rfl

theorem check (h : FaithfulFields fields contents members columns) :
    checkAll members = .ok () := by
  induction h with
  | nil => rfl
  | cons first _ ih =>
    rw [checkAll, first.valid]
    exact ih

theorem free (h : FaithfulFields fields contents members columns) : areUnionFree members := by
  induction h with
  | nil => rfl
  | cons first _ ih => rw [areUnionFree, first.free, ih, Bool.and_self]

theorem values (h : FaithfulFields fields contents members columns) :
    PhysicalArray.columns fields = .ok columns := by
  induction h with
  | nil => rfl
  | cons first _ ih =>
    rw [PhysicalArray.columns, first.values, Result.ok_bind, ih]
    rfl

theorem names (h : FaithfulFields fields contents members columns) :
    members.map Prod.fst = fields.map Prod.fst ∧ contents.length = fields.length ∧
      columns.length = fields.length := by
  induction h with
  | nil => exact ⟨rfl, rfl, rfl⟩
  | cons first _ ih =>
    obtain ⟨types, count, count'⟩ := ih
    simp only [List.map_cons, types, List.length_cons, count, count', and_self]

/-- The values of one row, one for each field. -/
theorem stored (h : FaithfulFields fields contents members columns) {row : Nat}
    (inside : ∀ field ∈ fields, row < field.2.rows) :
    CellsStoredAs members (columns.map fun column => column[row]?.getD .null)
      (contents.map fun content => content row) := by
  induction h with
  | nil => trivial
  | cons first _ ih =>
    obtain ⟨here, others⟩ := List.forall_mem_cons.mp inside
    exact ⟨first.stored_at here, ih others⟩

/-- Rows of cells that are drawn from the fields. -/
theorem fitAll (h : FaithfulFields fields contents members columns) {count : Nat}
    (same : ∀ field ∈ fields, field.2.rows = count) {cells : List (List Value)}
    (drawn : CellsDrawnFrom contents count cells) : FitAll members cells := by
  induction h generalizing cells with
  | nil => trivial
  | cons first _ ih =>
    obtain ⟨rfl, others⟩ := List.forall_mem_cons.mp same
    exact ⟨first.fits _ drawn.head, ih others drawn.tail⟩

end FaithfulFields

theorem faithful_struct {fields : List (String × PhysicalArray)} {contents : List (Nat → Value)}
    {members : List (String × LogicalType)} {columns : List (List Value)} {valid : List Bool}
    (each : FaithfulFields fields contents members columns)
    (same : ∀ field ∈ fields, field.2.rows = valid.length) :
    ∃ vals, (struct fields valid).Faithful
      (fun row => whereValid valid row
        (.struct ((fields.map Prod.fst).zip (contents.map fun content => content row))))
      (.struct members) vals := by
  obtain ⟨types, count, count'⟩ := each.names
  let rows := (transpose valid.length columns).map fun row => Value.struct
    ((fields.map Prod.fst).zip row)
  refine ⟨masked valid rows, ?_, each.check, each.free, ?_, ?_, ?_⟩
  · rw [logicalType, each.typed]
    rfl
  · rw [PhysicalArray.values, each.values]
    rfl
  · simp only [rows]
    rw [transpose_eq, List.map_map]
    refine stored_rows fun row inside => ?_
    refine .inr ⟨_, _, rfl, rfl, ?_, ?_⟩
    · rw [List.map_fst_zip (by simp [count]), types]
    · rw [List.map_snd_zip (by simp [count']), List.map_snd_zip (by simp [count])]
      exact each.stored fun field hf => by rwa [same field hf]
  · intro rows drawn
    have length : members.length = contents.length := by
      have names := congrArg List.length types
      rwa [List.length_map, List.length_map, ← count] at names
    show FitAll members (rows.map (memberCells members.length))
    rw [length]
    exact each.fitAll same (drawn.struct (by rw [List.length_map, count]))

theorem Everywhere.here {P : PhysicalArray → Prop} {a : PhysicalArray} (h : a.Everywhere P) : P a := by
  cases h with
  | leaf _ here => exact here
  | list here _ => exact here
  | fixedList here _ => exact here
  | struct here _ => exact here
  | map here _ _ => exact here

theorem Everywhere.mono {P Q : PhysicalArray → Prop} {a : PhysicalArray} (h : a.Everywhere P)
    (imp : ∀ b, P b → Q b) : a.Everywhere Q := by
  induction h with
  | leaf bare here => exact .leaf bare (imp _ here)
  | list here _ ih => exact .list (imp _ here) ih
  | fixedList here _ ih => exact .fixedList (imp _ here) ih
  | struct here _ ih => exact .struct (imp _ here) ih
  | map here _ _ ihk ihw => exact .map (imp _ here) ihk ihw

theorem fieldElements_eq (fields : List (String × PhysicalArray)) (row : Nat) :
    fieldElements fields row = (fields.map Prod.fst).zip
      ((fields.map fun field => field.2.element).map fun content => content row) := by
  induction fields with
  | nil => rfl
  | cons field rest ih =>
    rw [fieldElements, ih]
    rfl

/-- Arrays that can be stored become values that are stored as what their rows stand for. -/
theorem faithful {a : PhysicalArray} (h : a.Everywhere Storable) :
    ∃ type vals, a.Faithful a.element type vals := by
  induction h with
  | leaf bare here => exact faithful_leaf bare here
  | list here inside ih =>
    obtain ⟨type, vals, child⟩ := ih
    exact ⟨_, faithful_list child here.laid inside.here.room⟩
  | fixedList here inside ih =>
    obtain ⟨type, vals, child⟩ := ih
    exact ⟨_, faithful_fixedList child here.laid inside.here.room⟩
  | @struct fields valid here _ ih =>
    obtain ⟨members, columns, each⟩ := faithfulFields_of_faithful ih
    obtain ⟨vals, whole⟩ := faithful_struct each here.laid
    refine ⟨.struct members, vals, ?_⟩
    simp only [← fieldElements_eq] at whole
    exact whole
  | map here keys _ ihk ihw =>
    obtain ⟨keyType, keyVals, key⟩ := ihk
    obtain ⟨valueType, vals, value⟩ := ihw
    exact ⟨_, faithful_map key value here.laid.1 here.laid.2 keys.here.room⟩

/-- A vector of copied slots holds what the cells stand for. -/
theorem Copied.holds {a : PhysicalArray} {type : LogicalType} {bytes : α → List UInt8}
    {value : α → Result Value} {cells : List (Cell α)} (h : a.Copied type bytes value cells)
    {box : α → Value} (element : ∀ row, a.element row = cellAt box cells row)
    (room : a.rows * 16 < sizeModulus)
    (each : OnValid (fun x => SlotHolds type (bytes x) (box x)) cells) :
    ∃ n, a.toVector = .ok n ∧ n.Holds type a.contents := by
  have leaf := leaf_of_slotted h.slotted
  have contents : a.contents = cells.map (boxed box) := contents_cells h.flags element
  have count : a.contents.length = cells.length := by rw [contents, List.length_map]
  obtain ⟨width, hw, -⟩ := h.slotWidth
  have fits : cells.length * width < sizeModulus := by
    have small := Nat.mul_le_mul_left cells.length (slotWidth_le hw)
    rw [h.rows_eq] at room
    omega
  obtain ⟨n, hn, ht, hr, found⟩ := h.toVector_ok hw fits
  refine ⟨n, hn, hasType_leaf leaf ht, ?_, covers_leaf leaf n _, ?_⟩
  · rw [hr, h.rows_eq, count]
  · intro row inside
    have here : row < cells.length := by rwa [count] at inside
    obtain ⟨bit, slot⟩ := found row here
    have value : a.contents[row] = boxed box cells[row] := by simp [contents]
    rw [value]
    unfold NativeVector.read whenPresent boxed
    rw [bit]
    cases valid : cells[row].valid with
    | true =>
      rw [readPresent_leaf leaf, (each _ (List.getElem_mem here) valid).leafAt hw slot]
      rfl
    | false => rfl

/-- The same of any array that is copied as slots. -/
theorem copied_holds {a : PhysicalArray} (h : a.Storable) (copied : a.rawSlots?.isSome) :
    ∃ type n, a.logicalType = .ok type ∧ type.check = .ok () ∧ a.toVector = .ok n ∧
      n.Holds type a.contents := by
  obtain ⟨-, inRange, room⟩ := h
  cases a with
  | int k cells =>
    obtain ⟨n, hn, holds⟩ := (copied_int cells).holds (fun _ => rfl) room fun cell _ _ =>
      int_slotHolds cell.content
    exact ⟨_, n, rfl, rfl, hn, holds⟩
  | float format cells =>
    cases format with
    | single =>
      obtain ⟨n, hn, holds⟩ := (copied_single cells).holds (fun _ => rfl) room fun cell _ _ =>
        float_slotHolds cell.content
      exact ⟨_, n, rfl, rfl, hn, holds⟩
    | double =>
      obtain ⟨n, hn, holds⟩ := (copied_double cells).holds (fun _ => rfl) room fun cell _ _ =>
        double_slotHolds cell.content
      exact ⟨_, n, rfl, rfl, hn, holds⟩
  | date32 cells =>
    obtain ⟨n, hn, holds⟩ := (copied_date cells).holds (fun _ => rfl) room fun cell _ _ =>
      dayValue_slotHolds cell.content
    exact ⟨_, n, rfl, rfl, hn, holds⟩
  | time64 unit cells =>
    cases unit with
    | microsecond =>
      obtain ⟨n, hn, holds⟩ := (copied_time cells).holds (fun _ => rfl) room fun cell hc there => by
        have inside := inRange cell hc there
        simp only [TimeUnit.nanoseconds] at inside
        exact timeValue_slotHolds (by simp only [TimeUnit.nanoseconds]; omega) (by omega)
      exact ⟨_, n, rfl, rfl, hn, holds⟩
    | _ => cases copied
  | timestamp unit zone cells =>
    cases zone with
    | some _ => cases copied
    | none =>
      obtain ⟨n, hn, holds⟩ := (copied_timestamp unit cells).holds (fun _ => rfl) room
        fun cell hc there => naive_slotHolds (inRange cell hc there).1 (inRange cell hc there).2
      exact ⟨_, n, rfl, (copied_timestamp unit cells).valid, hn, holds⟩
  | _ => cases copied

theorem toVector_of_values {a : PhysicalArray} (raw : a.rawSlots? = none) {type : LogicalType}
    (typed : a.logicalType = .ok type) :
    a.toVector = a.values >>= ofValues type := by
  unfold toVector
  rw [typed, Result.ok_bind, raw]

/-- Values that are stored as the contents make a vector that holds these. -/
theorem Faithful.toVector_ok {a : PhysicalArray} {content : Nat → Value} {type : LogicalType}
    {vals : List Value} (h : a.Faithful content type vals) (raw : a.rawSlots? = none) :
    ∃ n, a.toVector = .ok n ∧ ofValues type vals = .ok n ∧
      n.Holds type ((List.range a.rows).map content) := by
  obtain ⟨n, hn, holds⟩ := ofValues_holds_stored h.valid h.free _ _ h.stored
    (h.fits _ (.all content a.rows))
  refine ⟨n, ?_, hn, holds⟩
  rw [toVector_of_values raw h.typed, h.values, Result.ok_bind, hn]

/-- The vector of an array that can be stored holds what the rows stand for. -/
theorem toVector_holds {a : PhysicalArray} (h : a.Everywhere Storable) :
    ∃ type n, a.logicalType = .ok type ∧ type.check = .ok () ∧ a.toVector = .ok n ∧
      n.Holds type a.contents := by
  cases raw : a.rawSlots? with
  | some found => exact copied_holds h.here (by rw [raw]; rfl)
  | none =>
    obtain ⟨type, vals, each⟩ := faithful h
    obtain ⟨n, hn, -, holds⟩ := each.toVector_ok raw
    exact ⟨type, n, each.typed, each.valid, hn, holds⟩

/-- The array has no value at the row. -/
def isNullAt : PhysicalArray → (row : Nat) → Bool
  | null _, _ => true
  | a, row => a.validity[row]? == some false

theorem ne_null_of_present {x : Value} (present : x.isNull = false) : x ≠ .null := by
  rintro rfl
  cases present

theorem cellAt_eq_null_iff {box : α → Value} {cells : List (Cell α)}
    (present : OnValid (fun x => (box x).isNull = false) cells) {row : Nat}
    (inside : row < (cells.map Cell.valid).length) :
    cellAt box cells row = .null ↔ ((cells.map Cell.valid)[row]? == some false) = true := by
  rw [List.length_map] at inside
  have held := present cells[row] (List.getElem_mem inside)
  cases valid : cells[row].valid with
  | true => simp [cellAt, boxed, inside, valid, ne_null_of_present (held valid)]
  | false => simp [cellAt, boxed, inside, valid]

theorem whereValid_eq_null_iff {flags : List Bool} {row : Nat} {x : Value}
    (present : x.isNull = false) (inside : row < flags.length) :
    whereValid flags row x = .null ↔ (flags[row]? == some false) = true := by
  unfold whereValid
  rw [List.getElem?_eq_getElem inside]
  cases flags[row] with
  | true => simp [ne_null_of_present present]
  | false => simp

/-- A row stands for null where the array has no value. -/
theorem element_eq_null_iff {a : PhysicalArray} (h : a.Storable) {row : Nat} (inside : row < a.rows) :
    a.element row = .null ↔ a.isNullAt row = true := by
  obtain ⟨-, inRange, -⟩ := h
  cases a with
  | null rows => exact ⟨fun _ => rfl, fun _ => rfl⟩
  | boolean cells => exact cellAt_eq_null_iff (fun _ _ _ => rfl) inside
  | int k cells => exact cellAt_eq_null_iff (fun _ _ _ => rfl) inside
  | float format cells => cases format <;> exact cellAt_eq_null_iff (fun _ _ _ => rfl) inside
  | utf8 _ cells => exact cellAt_eq_null_iff (fun _ _ _ => rfl) inside
  | binary _ cells | fixedBinary _ cells => exact cellAt_eq_null_iff (fun _ _ _ => rfl) inside
  | date32 cells | date64 cells =>
    refine cellAt_eq_null_iff ?_ inside
    exact fun _ _ _ => dayValue_present _
  | time32 unit cells | time64 unit cells =>
    refine cellAt_eq_null_iff ?_ inside
    exact fun _ _ _ => timeValue_present _
  | timestamp unit zone cells =>
    refine cellAt_eq_null_iff ?_ inside
    exact fun cell hc there => instantValue_present zone (inRange cell hc there).2
  | monthDayNano cells => exact cellAt_eq_null_iff (fun _ _ _ => rfl) inside
  | decimal128 precision scale cells =>
    refine cellAt_eq_null_iff ?_ inside
    exact fun _ _ _ => decimalValue_present _ _
  | list _ _ _ valid _ | fixedList _ _ valid _ | struct _ valid | map _ _ _ _ valid _ _ =>
    exact whereValid_eq_null_iff rfl inside
  | dictionary _ _ _ | unread _ _ => exact inRange.elim

/-- Every row of the vector of an array that can be stored is read as what the row of the array stands
for. -/
theorem reads_back (a : PhysicalArray) (h : a.Everywhere Storable) : ∃ type n view plan conv,
    a.logicalType = .ok type ∧ a.toVector = .ok n ∧ n.type = type ∧ n.rows = a.rows ∧
    ColumnView.ofNative n a.rows = .ok view ∧ view.column.resolveBoxed = .ok plan ∧
    plan.prepare view = .ok conv ∧ ∀ row < a.rows,
      conv.convert view row true = .ok (a.element row) ∧
      (a.element row = .null ↔ a.isNullAt row = true) := by
  obtain ⟨type, n, typed, valid, hn, holds⟩ := toVector_holds h
  obtain ⟨view, plan, conv, opens, -, hplan, hconv, reads⟩ := ColumnView.reads_of_holds valid holds
  rw [length_contents] at opens
  refine ⟨type, n, view, plan, conv, typed, hn, holds.typed.type_eq, ?_, opens, hplan, hconv, ?_⟩
  · rw [← length_contents]
    exact holds.rows
  · intro row inside
    have found := reads row (by rwa [length_contents])
    simp only [contents, List.getElem_map, List.getElem_range] at found
    exact ⟨found, element_eq_null_iff h.here inside⟩

/-- A day before the epoch and instants in a list that starts inside its child, a day and a list that
are missing, and a struct that is missing. -/
theorem reads_back_missing_and_instants :
    let word := Word.wrap .i64
    let stamps := timestamp .nanosecond (some "UTC")
      [⟨word 7, true⟩, ⟨word (-1), true⟩, ⟨word 1500, true⟩]
    let lists := list false "item" [1, 3, 3, 3] [true, false, true] stamps
    let days := date64 [⟨word (-1), true⟩, ⟨word 5, false⟩, ⟨word 5, true⟩]
    let rows := struct [("day", days), ("stamps", lists)] [true, true, false]
    ∃ n view plan conv, rows.toVector = .ok n ∧ ColumnView.ofNative n 3 = .ok view ∧
      view.column.resolveBoxed = .ok plan ∧ plan.prepare view = .ok conv ∧
      conv.convert view 0 true = .ok (.struct [("day", .date ⟨-1, by decide⟩), ("stamps", .list [
        .timestampTz (.utc ⟨⟨-1, by decide⟩, ⟨86399999999000, by decide⟩⟩),
        .timestampTz (.utc ⟨⟨0, by decide⟩, ⟨1000, by decide⟩⟩)])]) ∧
      conv.convert view 1 true = .ok (.struct [("day", .null), ("stamps", .null)]) ∧
      conv.convert view 2 true = .ok .null := by
  intro word stamps lists days rows
  have hdays : days.Everywhere Storable := by
    refine .leaf rfl ⟨trivial, ?_, by decide⟩
    simp only [InRange, OnValid, days, word]
    decide
  have hstamps : stamps.Everywhere Storable := by
    refine .leaf rfl ⟨trivial, ?_, by decide⟩
    simp only [InRange, OnValid, stamps, word]
    decide
  have hlists : lists.Everywhere Storable :=
    .list ⟨⟨rfl, by decide, by decide⟩, trivial, by decide⟩ hstamps
  have h : rows.Everywhere Storable := by
    refine .struct ⟨?_, trivial, by decide⟩ ?_
    · exact List.forall_mem_cons.mpr ⟨rfl, List.forall_mem_cons.mpr ⟨rfl, nofun⟩⟩
    · exact List.forall_mem_cons.mpr ⟨hdays, List.forall_mem_cons.mpr ⟨hlists, nofun⟩⟩
  obtain ⟨type, n, view, plan, conv, -, hn, -, -, opens, hplan, hconv, reads⟩ := reads_back rows h
  exact ⟨n, view, plan, conv, hn, opens, hplan, hconv, (reads 0 (by decide)).1,
    (reads 1 (by decide)).1, (reads 2 (by decide)).1⟩

end TypedColumns.Arrow.PhysicalArray
