import Mathlib
import TypedColumns.Proofs.ArrowReadBack
import TypedColumns.Proofs.RowwiseReading

/-!
Slices of Arrow arrays. Each form of an array carries its slice in its own way: cells are cut, offsets
move into the whole child, flags are cut beside them, and the children of structs and fixed-size lists
are sliced along. In each of them the values of a slice are a window of the array's values, and so the
slice is read as the rows that it is cut from.
-/
namespace TypedColumns.Arrow.PhysicalArray

open LogicalType NativeVector

variable {α : Type}

section Windows

variable {β γ : Type} {start count : Nat}

theorem window_map (f : β → γ) (items : List β) :
    window start count (items.map f) = (window start count items).map f := by
  simp [window, List.map_take, List.map_drop]

theorem window_replicate (rows : Nat) (x : β) :
    window start count (List.replicate rows x) = List.replicate (min count (rows - start)) x := by
  simp [window, List.take_replicate, List.drop_replicate]

theorem length_window {items : List β} (inside : start + count ≤ items.length) :
    (window start count items).length = count := by
  simp only [window, List.length_take, List.length_drop]
  omega

theorem getElem?_window (items : List β) {row : Nat} (inside : row < count) :
    (window start count items)[row]? = items[start + row]? := by
  simp [window, inside]

theorem window_window (items : List β) {start' count' : Nat} (inside : start' + count' ≤ count) :
    window start' count' (window start count items) = window (start + start') count' items := by
  simp only [window, List.drop_take, List.drop_drop, List.take_take]
  congr 1
  omega

theorem window_range_map (f : Nat → β) {rows : Nat} (inside : start + count ≤ rows) :
    window start count ((List.range rows).map f) =
      (List.range count).map fun row => f (start + row) := by
  rw [window_map, window_range inside, List.range'_eq_map_range, List.map_map]
  rfl

theorem window_mapM {f : β → Result γ} {items : List β} {found : List γ}
    (h : items.mapM f = .ok found) :
    (window start count items).mapM f = .ok (window start count found) :=
  Result.mapM_eq_ok.mpr (List.forall₂_take _ (List.forall₂_drop _ (Result.mapM_eq_ok.mp h)))

theorem window_masked (valid : List Bool) (vals : List Value) :
    masked (window start count valid) (window start count vals) =
      window start count (masked valid vals) := by
  simp only [masked, window, List.take_zipWith, List.drop_zipWith]

theorem spans_drop (items : List β) (start : Nat) (offsets : List Nat) :
    spans items (offsets.drop start) = (spans items offsets).drop start := by
  induction start generalizing offsets with
  | zero => rfl
  | succ start ih =>
    rcases offsets with _ | ⟨first, _ | ⟨second, rest⟩⟩
    · rfl
    · simp [spans]
    · exact ih (second :: rest)

theorem spans_take (items : List β) (count : Nat) (offsets : List Nat) :
    spans items (offsets.take (count + 1)) = (spans items offsets).take count := by
  induction count generalizing offsets with
  | zero =>
    cases offsets with
    | nil => rfl
    | cons first rest => simp [spans]
  | succ count ih =>
    rcases offsets with _ | ⟨first, _ | ⟨second, rest⟩⟩
    · rfl
    · rfl
    · exact congrArg (_ :: ·) (ih (second :: rest))

/-- One offset more is cut than there are rows. -/
theorem window_spans (items : List β) (offsets : List Nat) :
    spans items (window start (count + 1) offsets) = window start count (spans items offsets) := by
  rw [window, spans_take, spans_drop, window]

theorem window_runs {size rows : Nat} (items : List β) (inside : start + count ≤ rows) :
    runs size count (window (start * size) (count * size) items) =
      window start count (runs size rows items) := by
  rw [runs_eq, runs_eq, window_range_map _ inside]
  apply List.map_congr_left
  intro row hrow
  have last : row * size + size ≤ count * size := by
    rw [← Nat.succ_mul]
    exact Nat.mul_le_mul_right size (List.mem_range.mp hrow)
  rw [window_window _ last, Nat.add_mul]

theorem window_transpose {rows : Nat} (columns : List (List Value)) (inside : start + count ≤ rows) :
    transpose count (columns.map (window start count)) =
      window start count (transpose rows columns) := by
  rw [transpose_eq, transpose_eq, window_range_map _ inside]
  apply List.map_congr_left
  intro row hrow
  rw [List.map_map]
  apply List.map_congr_left
  intro column _
  rw [Function.comp_apply, getElem?_window _ (List.mem_range.mp hrow)]

end Windows

section Values

variable {start count : Nat}

mutual

/-- A slice has the column type of the array. -/
theorem logicalType_slice (start count : Nat) :
    ∀ a : PhysicalArray, (a.slice start count).logicalType = a.logicalType
  | fixedList _ size _ child => by
    rw [slice, logicalType, logicalType, logicalType_slice _ _ child]
  | struct fields _ => by rw [slice, logicalType, logicalType, memberTypes_slice start count fields]
  | float _ _ | null _ | boolean _ | int _ _ | utf8 _ _ | binary _ _ | fixedBinary _ _ | date32 _
  | date64 _ | time32 _ _ | time64 _ _ | timestamp _ _ _ | monthDayNano _ | decimal128 _ _ _
  | list _ _ _ _ _ | map _ _ _ _ _ _ _ | dictionary _ _ _ | unread _ _ => rfl

theorem memberTypes_slice (start count : Nat) :
    ∀ fields, memberTypes (sliceFields start count fields) = memberTypes fields
  | [] => rfl
  | (_, a) :: rest => by
    rw [sliceFields, memberTypes, memberTypes, logicalType_slice start count a,
      memberTypes_slice start count rest]

end

/-- The children have the rows that the array refers to, and its own rows are counted in 64 bits. -/
structure Sized (a : PhysicalArray) : Prop where
  laid : a.Laid
  counted : a.rows < sizeModulus

/-- The values of the array are made cell by cell, and its slices cut the cells. -/
def IsCut (a : PhysicalArray) : Prop :=
  ∃ (α : Type) (value : α → Result Value) (cells : List (Cell α)),
    a.validity = cells.map Cell.valid ∧ a.values = cellValues value cells ∧
      ∀ start count, (a.slice start count).values = cellValues value (window start count cells)

theorem isCut_of_cells {a : PhysicalArray} {value : α → Result Value} {cells : List (Cell α)}
    (flags : a.validity = cells.map Cell.valid) (values : a.values = cellValues value cells)
    (cut : ∀ start count, (a.slice start count).values = cellValues value (window start count cells)) :
    a.IsCut :=
  ⟨α, value, cells, flags, values, cut⟩

theorem isCut_of_plain {a : PhysicalArray} {value : α → Value} {cells : List (Cell α)}
    (flags : a.validity = cells.map Cell.valid) (values : a.values = plainValues value cells)
    (cut : ∀ start count, (a.slice start count).values = plainValues value (window start count cells)) :
    a.IsCut :=
  isCut_of_cells flags values cut

theorem isCut_of_leaf {a : PhysicalArray} (bare : a.isNested = false) {vals : List Value}
    (h : a.values = .ok vals) : (∃ rows, a = null rows) ∨ a.IsCut := by
  cases a with
  | null rows => exact .inl ⟨rows, rfl⟩
  | dictionary k codes entries =>
    rw [values] at h
    split at h
    · cases h
    · next some =>
      refine .inr (isCut_of_cells rfl (if_neg some) fun start count => ?_)
      exact if_neg some
  | float format _ => cases format <;> exact .inr (isCut_of_plain rfl rfl fun _ _ => rfl)
  | date64 _ | timestamp _ _ _ => exact .inr (isCut_of_cells rfl rfl fun _ _ => rfl)
  | unread _ _ => cases h
  | list _ _ _ _ _ | fixedList _ _ _ _ | struct _ _ | map _ _ _ _ _ _ _ => cases bare
  | _ => exact .inr (isCut_of_plain rfl rfl fun _ _ => rfl)

/-- There is a value for each row. -/
theorem length_values {a : PhysicalArray} (laid : a.Laid) {vals : List Value}
    (h : a.values = .ok vals) : vals.length = a.rows := by
  by_cases nested : a.isNested
  · cases a with
    | list _ _ offsets valid child =>
      obtain ⟨childVals, -, h⟩ := Result.bind_eq_ok.mp h
      cases h
      have count : offsets.length = valid.length + 1 := laid.count
      simp [masked, spans_eq, PhysicalArray.rows, validity, count]
    | fixedList _ size valid child =>
      obtain ⟨childVals, -, h⟩ := Result.bind_eq_ok.mp h
      cases h
      simp [masked, runs_eq, PhysicalArray.rows, validity]
    | struct fields valid =>
      obtain ⟨columns, -, h⟩ := Result.bind_eq_ok.mp h
      cases h
      simp [masked, transpose_eq, PhysicalArray.rows, validity]
    | map _ _ _ offsets valid key value =>
      obtain ⟨keyVals, -, h⟩ := Result.bind_eq_ok.mp h
      obtain ⟨vals, -, h⟩ := Result.bind_eq_ok.mp h
      cases h
      have count : offsets.length = valid.length + 1 := laid.1.count
      simp [masked, spans_eq, PhysicalArray.rows, validity, count]
    | _ => cases nested
  · obtain ⟨rows, rfl⟩ | ⟨α, value, cells, flags, made, -⟩ :=
      isCut_of_leaf (Bool.eq_false_iff.mpr nested) h
    · cases h
      simp [PhysicalArray.rows, validity]
    · rw [made] at h
      rw [PhysicalArray.rows, flags, List.length_map]
      exact ((Result.mapM_eq_ok.mp h).length_eq).symm

/-- The slices of fields, each of which has a window of the field's values. -/
theorem columns_slice {fields : List (String × PhysicalArray)} {columns : List (List Value)}
    (h : PhysicalArray.columns fields = .ok columns)
    (each : ∀ field ∈ fields, ∀ vals, field.2.values = .ok vals →
      (field.2.slice start count).values = .ok (window start count vals)) :
    PhysicalArray.columns (sliceFields start count fields) =
        .ok (columns.map (window start count)) ∧
      (sliceFields start count fields).map Prod.fst = fields.map Prod.fst := by
  induction fields generalizing columns with
  | nil =>
    cases h
    exact ⟨rfl, rfl⟩
  | cons field rest ih =>
    obtain ⟨first, others⟩ := List.forall_mem_cons.mp each
    obtain ⟨vals, hv, h⟩ := Result.bind_eq_ok.mp h
    obtain ⟨columns, hc, h⟩ := Result.bind_eq_ok.mp h
    cases h
    obtain ⟨sliced, names⟩ := ih hc others
    rw [sliceFields, PhysicalArray.columns, first vals hv, sliced, List.map_cons, List.map_cons, names]
    exact ⟨rfl, rfl⟩

/-- The values of a slice are a window of the array's values. -/
theorem values_slice {a : PhysicalArray} (h : a.Everywhere Laid) {vals : List Value}
    (found : a.values = .ok vals) (inside : start + count ≤ a.rows) :
    (a.slice start count).values = .ok (window start count vals) := by
  induction h generalizing vals start count with
  | leaf bare here =>
    obtain ⟨rows, rfl⟩ | ⟨α, value, cells, flags, made, cut⟩ := isCut_of_leaf bare found
    · cases found
      rw [window_replicate]
      rfl
    · rw [made] at found
      rw [cut]
      exact window_mapM found
  | list here _ _ =>
    obtain ⟨childVals, hc, found⟩ := Result.bind_eq_ok.mp found
    cases found
    rw [slice, values, hc, Result.ok_bind, window_spans, ← window_map, window_masked]
    rfl
  | @fixedList name size valid child here _ ih =>
    obtain ⟨childVals, hc, found⟩ := Result.bind_eq_ok.mp found
    cases found
    have laid : valid.length * size ≤ child.rows := here
    have cut : start + count ≤ valid.length := inside
    have below : start * size + count * size ≤ child.rows := by
      rw [← Nat.add_mul]
      exact Nat.le_trans (Nat.mul_le_mul_right size cut) laid
    rw [slice, values, ih hc below, Result.ok_bind, length_window cut, window_runs _ cut, ← window_map,
      window_masked]
    rfl
  | @struct fields valid here _ ih =>
    obtain ⟨columns, hc, found⟩ := Result.bind_eq_ok.mp found
    cases found
    have cut : start + count ≤ valid.length := inside
    have each : ∀ field ∈ fields, ∀ vals, field.2.values = .ok vals →
        (field.2.slice start count).values = .ok (window start count vals) :=
      fun field hf vals found => ih field hf found (by rwa [here field hf])
    obtain ⟨sliced, names⟩ := columns_slice hc each
    rw [slice, values, sliced, Result.ok_bind]
    simp only [length_window cut, window_transpose _ cut, names, ← window_map, window_masked]
    rfl
  | map here _ _ _ _ =>
    obtain ⟨keyVals, hk, found⟩ := Result.bind_eq_ok.mp found
    obtain ⟨vals, hw, found⟩ := Result.bind_eq_ok.mp found
    cases found
    rw [slice, values, hk, hw, Result.ok_bind, Result.ok_bind]
    simp only [window_spans, ← window_map, window_masked]
    rfl

end Values

section Room

/-- The value at a row of a list of values. -/
def valueAt (vals : List Value) (row : Nat) : Value := vals[row]?.getD .null

theorem range_map_valueAt (vals : List Value) : (List.range vals.length).map (valueAt vals) = vals := by
  apply List.ext_getElem (by simp)
  intro row _ inside
  simp [valueAt, inside]

theorem valueAt_range_map (f : Nat → Value) {rows row : Nat} (inside : row < rows) :
    valueAt ((List.range rows).map f) row = f row := by
  simp [valueAt, inside]

theorem window_eq_map {β : Type} {f : Nat → β} {items : List β} {rows start count : Nat}
    (h : items = (List.range rows).map f) (inside : start + count ≤ rows) :
    window start count items = (List.range' start count).map f := by
  rw [h, window_map, window_range inside]

variable {offsets : List Nat} {valid : List Bool} {vals : List Value}

/-- Rows with spans of the items, null where the flag is clear. -/
theorem valueAt_spans {β : Type} {items : List β} {f : Nat → β} {itemRows : Nat}
    (made : items = (List.range itemRows).map f) (laid : Offsets offsets valid.length itemRows)
    (wrap : List β → Value) {row : Nat} (inside : row < valid.length) :
    valueAt (masked valid ((spans items offsets).map wrap)) row =
      whereValid valid row (wrap ((spanRows offsets row).map f)) := by
  have count : offsets.length - 1 = valid.length := by rw [laid.count, Nat.add_sub_cancel]
  obtain ⟨ascending, last⟩ := laid.span inside
  rw [spans_eq, count, List.map_map, masked_range, valueAt_range_map _ inside, Function.comp_apply,
    window_eq_map made (by omega)]
  rfl

theorem valueAt_runs {size : Nat} {childVals : List Value}
    (laid : valid.length * size ≤ childVals.length) {row : Nat} (inside : row < valid.length) :
    valueAt (masked valid ((runs size valid.length childVals).map .list)) row =
      whereValid valid row (.list ((List.range' (row * size) size).map (valueAt childVals))) := by
  have last : row * size + size ≤ valid.length * size := by
    rw [← Nat.succ_mul]
    exact Nat.mul_le_mul_right size inside
  rw [runs_eq, List.map_map, masked_range, valueAt_range_map _ inside, Function.comp_apply,
    window_eq_map (range_map_valueAt childVals).symm (by omega)]

theorem valueAt_transpose {columns : List (List Value)} (names : List String) {row : Nat}
    (inside : row < valid.length) :
    valueAt (masked valid ((transpose valid.length columns).map fun row =>
        .struct (names.zip row))) row = whereValid valid row
      (.struct (names.zip ((columns.map valueAt).map fun content => content row))) := by
  rw [transpose_eq, List.map_map, masked_range, valueAt_range_map _ inside, List.map_map]
  rfl

/-- An array without children has a column without children. -/
theorem type_of_leaf {a : PhysicalArray} (bare : a.isNested = false) {type : LogicalType}
    (typed : a.logicalType = .ok type) (found : a.values = .ok vals) :
    type.kind.isNested = false := by
  cases a with
  | float format _ => cases format <;> (cases typed; rfl)
  | timestamp unit zone _ =>
    cases typed
    cases zone <;> cases unit <;> rfl
  | decimal128 precision scale _ =>
    change DataType.toLogical (.decimal128 precision scale) = _ at typed
    unfold DataType.toLogical DataType.decimalType at typed
    split at typed
    · split at typed
      · next column hc =>
        cases typed
        unfold decimal? at hc
        split at hc <;> cases hc
        rfl
      · cases typed
    · cases typed
  | dictionary _ _ _ =>
    obtain ⟨names, -, typed⟩ := Result.bind_eq_ok.mp typed
    cases typed
    rfl
  | unread _ _ => cases found
  | list _ _ _ _ _ | fixedList _ _ _ _ | struct _ _ | map _ _ _ _ _ _ _ => cases bare
  | _ =>
    cases typed
    rfl

/-- A column of the type has no UNION in it, and there is room for all rows that can be drawn. -/
def HasRoom (content : Nat → Value) (count : Nat) (type : LogicalType) : Prop :=
  type.isUnionFree ∧ ∀ rows, DrawnFrom content count rows → RowsFit type rows

theorem hasRoom_leaf {content : Nat → Value} {count : Nat} (counted : count < sizeModulus)
    {type : LogicalType} (leaf : type.kind.isNested = false) : HasRoom content count type := by
  have few (rows : List Value) (drawn : DrawnFrom content count rows) : rows.length < sizeModulus :=
    Nat.lt_of_le_of_lt drawn.length_le counted
  cases type with
  | list _ | array _ _ | struct _ | map _ _ | union _ => cases leaf
  | _ => exact ⟨rfl, few⟩

/-- The members of fields that have room for their values. -/
theorem hasRoom_fields {fields : List (String × PhysicalArray)} {count : Nat}
    (rows : ∀ field ∈ fields, field.2.rows = count)
    (each : ∀ field ∈ fields, ∀ type vals, field.2.logicalType = .ok type →
      field.2.values = .ok vals → HasRoom (valueAt vals) field.2.rows type)
    {members : List (String × LogicalType)} {columns : List (List Value)}
    (typed : memberTypes fields = .ok members) (found : PhysicalArray.columns fields = .ok columns) :
    areUnionFree members ∧ members.length = fields.length ∧ columns.length = fields.length ∧
      ∀ cells, CellsDrawnFrom (columns.map valueAt) count cells → AllRowsFit members cells := by
  induction fields generalizing members columns with
  | nil =>
    cases typed
    cases found
    exact ⟨rfl, rfl, rfl, fun _ _ => trivial⟩
  | cons field rest ih =>
    obtain ⟨here, otherRows⟩ := List.forall_mem_cons.mp rows
    obtain ⟨first, others⟩ := List.forall_mem_cons.mp each
    obtain ⟨type, ht, typed⟩ := Result.bind_eq_ok.mp typed
    obtain ⟨members, hm, typed⟩ := Result.bind_eq_ok.mp typed
    obtain ⟨vals, hv, found⟩ := Result.bind_eq_ok.mp found
    obtain ⟨columns, hc, found⟩ := Result.bind_eq_ok.mp found
    cases typed
    cases found
    obtain ⟨free, room⟩ := first type vals ht hv
    obtain ⟨allFree, length, length', allRoom⟩ := ih otherRows others hm hc
    refine ⟨?_, congrArg Nat.succ length, congrArg Nat.succ length', fun cells drawn => ?_⟩
    · rw [areUnionFree, free, allFree, Bool.and_self]
    · rw [here] at room
      exact ⟨room _ drawn.head, allRoom _ drawn.tail⟩

/-- Rows that are drawn from the values of an array are counted in 64 bits, and so are those that they
have in the children. -/
theorem hasRoom_values {a : PhysicalArray} (h : a.Everywhere Sized) {type : LogicalType}
    (typed : a.logicalType = .ok type) (found : a.values = .ok vals) :
    HasRoom (valueAt vals) a.rows type := by
  induction h generalizing type vals with
  | leaf bare here => exact hasRoom_leaf here.counted (type_of_leaf bare typed found)
  | @list _ _ offsets valid child here inside ih =>
    obtain ⟨item, ht, rfl⟩ := Result.map_eq_ok.mp typed
    obtain ⟨childVals, hc, found⟩ := Result.bind_eq_ok.mp found
    cases found
    obtain ⟨free, room⟩ := ih ht hc
    have laid : Offsets offsets valid.length childVals.length := by
      rw [length_values inside.here.laid hc]
      exact here.laid
    refine ⟨free, fun rows drawn => ⟨Nat.lt_of_le_of_lt drawn.length_le here.counted, room _ ?_⟩⟩
    exact (drawn.congr fun row inside =>
      valueAt_spans (range_map_valueAt childVals).symm laid .list inside).list here.laid
  | @fixedList name size valid child here inside ih =>
    obtain ⟨item, ht, rfl⟩ := Result.map_eq_ok.mp typed
    obtain ⟨childVals, hc, found⟩ := Result.bind_eq_ok.mp found
    cases found
    obtain ⟨free, room⟩ := ih ht hc
    have laid : valid.length * size ≤ childVals.length := by
      rw [length_values inside.here.laid hc]
      exact here.laid
    refine ⟨free, fun rows drawn => ⟨Nat.lt_of_le_of_lt drawn.length_le here.counted, room _ ?_⟩⟩
    exact (drawn.congr fun row inside => valueAt_runs laid inside).fixedList here.laid
  | @struct fields valid here _ ih =>
    obtain ⟨members, ht, rfl⟩ := Result.map_eq_ok.mp typed
    obtain ⟨columns, hc, found⟩ := Result.bind_eq_ok.mp found
    cases found
    obtain ⟨free, length, length', room⟩ :=
      hasRoom_fields here.laid (fun field hf _ _ => ih field hf) ht hc
    refine ⟨free, fun rows drawn => ⟨Nat.lt_of_le_of_lt drawn.length_le here.counted, ?_⟩⟩
    have count : members.length = (columns.map valueAt).length := by
      rw [List.length_map, length, length']
    rw [count]
    have names : (fields.map Prod.fst).length = (columns.map valueAt).length := by
      rw [List.length_map, List.length_map, length']
    exact room _ ((drawn.congr fun row inside =>
      valueAt_transpose (fields.map Prod.fst) inside).struct names)
  | @map _ _ _ offsets valid key value here keys values ihk ihw =>
    obtain ⟨keyType, hkt, typed⟩ := Result.bind_eq_ok.mp typed
    obtain ⟨valueType, hwt, typed⟩ := Result.bind_eq_ok.mp typed
    obtain ⟨keyVals, hk, found⟩ := Result.bind_eq_ok.mp found
    obtain ⟨vals, hw, found⟩ := Result.bind_eq_ok.mp found
    cases typed
    cases found
    obtain ⟨freeKeys, roomKeys⟩ := ihk hkt hk
    obtain ⟨free, room⟩ := ihw hwt hw
    obtain ⟨laid, same⟩ : Offsets offsets valid.length key.rows ∧ value.rows = key.rows := here.laid
    have pairs : keyVals.zip vals =
        (List.range key.rows).map fun row => (valueAt keyVals row, valueAt vals row) := by
      rw [← List.zip_map', ← length_values keys.here.laid hk, range_map_valueAt,
        length_values keys.here.laid hk, ← same, ← length_values values.here.laid hw, range_map_valueAt]
    refine ⟨by rw [isUnionFree, freeKeys, free, Bool.and_self], fun rows drawn => ?_⟩
    obtain ⟨keysDrawn, valuesDrawn⟩ := (drawn.congr fun row inside =>
      valueAt_spans pairs laid .map inside).map laid
    exact ⟨Nat.lt_of_le_of_lt drawn.length_le here.counted, roomKeys _ keysDrawn,
      room _ (by rwa [same])⟩

end Room

/-- The vector has a bit and an answer for each row. -/
structure Shows (n : NativeVector) (type : LogicalType) (flags : List Bool)
    (answers : List (Result Value)) : Prop where
  answered : n.Answers type answers
  count : flags.length = answers.length
  bits (row : Nat) (h : row < flags.length) : n.bit? row = some flags[row]

theorem shows_of_answers {n : NativeVector} {type : LogicalType} {rows : List Value}
    {answer : Value → Result Value} (made : ofValues type rows = .ok n)
    (h : n.Answers type (rows.map answer)) :
    Shows n type (rows.map (flagOf type)) (rows.map answer) := by
  refine ⟨h, by rw [List.length_map, List.length_map], fun row inside => ?_⟩
  rw [List.length_map] at inside
  rw [List.getElem_map]
  exact (bits_of_ofValues made).2.2 row inside

section Copies

variable {a : PhysicalArray} {type : LogicalType} {bytes : α → List UInt8}
  {value : α → Result Value} {cells : List (Cell α)}

/-- Slots that are taken are all of them, counted in 64 bits. -/
theorem Copied.fits (h : a.Copied type bytes value cells) {n : NativeVector}
    (hn : a.toVector = .ok n) {width : Nat} (hw : type.storage.slotWidth? = some width) :
    cells.length * width < sizeModulus := by
  unfold toVector at hn
  rw [h.typed, Result.ok_bind, h.slots] at hn
  obtain ⟨-, -, width', hw', fits, -⟩ := NativeVector.ofSlots_eq_ok hn
  obtain rfl : width = width' := by simpa [hw] using hw'
  rwa [List.length_map] at fits

/-- A vector of copied slots shows what the slots of valid cells decode to. -/
theorem Copied.shows (h : a.Copied type bytes value cells) {decode : List UInt8 → Result Value}
    (hd : ∀ n row, leafAt type n row =
      ColumnView.loaded (n.content? type.storage row) >>= decode) {width : Nat}
    (hw : type.storage.slotWidth? = some width) (fits : cells.length * width < sizeModulus) :
    ∃ n, a.toVector = .ok n ∧ Shows n type (cells.map Cell.valid) (cells.map fun cell =>
      if cell.valid then decode (bytes cell.content) else .ok .null) := by
  have leaf := leaf_of_slotted h.slotted
  have plain : type.storage.isStringLike = false := by
    have plain := storage_of_slotted h.slotted
    rw [Bool.or_eq_false_iff] at plain
    exact plain.1
  obtain ⟨n, hn, ht, hr, found⟩ := h.toVector_ok hw fits
  refine ⟨n, hn, ⟨hasType_leaf leaf ht, ?_, covers_leaf leaf n _, fun row inside => ?_⟩, ?_,
    fun row inside => ?_⟩
  · rw [hr, h.rows_eq, List.length_map]
  · rw [List.length_map] at inside
    obtain ⟨bit, slot⟩ := found row inside
    rw [List.getElem_map]
    unfold NativeVector.read whenPresent
    rw [bit]
    cases cells[row].valid with
    | true =>
      rw [readPresent_leaf leaf, hd, content?, plain, if_neg Bool.false_ne_true, hw,
        Option.getD_some, slot]
      rfl
    | false => rfl
  · rw [List.length_map, List.length_map]
  · rw [List.length_map] at inside
    rw [List.getElem_map]
    exact (found row inside).1

/-- The slices of an array that is copied as slots are copied too. -/
theorem copied_slice (h : a.rawSlots?.isSome) : ∃ (α : Type) (type : LogicalType)
    (bytes : α → List UInt8) (value : α → Result Value) (cells : List (Cell α)),
    a.Copied type bytes value cells ∧ ∀ start count,
      (a.slice start count).Copied type bytes value (window start count cells) := by
  cases a with
  | int k cells => exact ⟨_, _, _, _, _, copied_int cells, fun _ _ => copied_int _⟩
  | float format cells =>
    cases format with
    | single => exact ⟨_, _, _, _, _, copied_single cells, fun _ _ => copied_single _⟩
    | double => exact ⟨_, _, _, _, _, copied_double cells, fun _ _ => copied_double _⟩
  | date32 cells => exact ⟨_, _, _, _, _, copied_date cells, fun _ _ => copied_date _⟩
  | time64 unit cells =>
    cases unit with
    | microsecond => exact ⟨_, _, _, _, _, copied_time cells, fun _ _ => copied_time _⟩
    | _ => cases h
  | timestamp unit zone cells =>
    cases zone with
    | none => exact ⟨_, _, _, _, _, copied_timestamp unit cells, fun _ _ => copied_timestamp unit _⟩
    | some _ => cases h
  | _ => cases h

end Copies

theorem rawSlots?_slice {a : PhysicalArray} (h : a.rawSlots? = none) (start count : Nat) :
    (a.slice start count).rawSlots? = none := by
  cases a with
  | time64 unit _ => cases unit <;> first | rfl | cases h
  | timestamp _ zone _ => cases zone <;> first | rfl | cases h
  | int _ _ | float _ _ | date32 _ => cases h
  | _ => rfl

/-- The vector of a slice shows a window of what the vector of the array shows. -/
theorem shows_slice {a : PhysicalArray} (h : a.Everywhere Sized) {n : NativeVector}
    (hn : a.toVector = .ok n) {start count : Nat} (inside : start + count ≤ a.rows) :
    ∃ type flags answers part, a.logicalType = .ok type ∧ type.check = .ok () ∧
      (a.slice start count).toVector = .ok part ∧ answers.length = a.rows ∧
      Shows n type flags answers ∧
      Shows part type (window start count flags) (window start count answers) := by
  cases raw : a.rawSlots? with
  | some found =>
    obtain ⟨α, type, bytes, value, cells, whole, cut⟩ := copied_slice (a := a) (by rw [raw]; rfl)
    obtain ⟨width, hw, -⟩ := whole.slotWidth
    obtain ⟨decode, hd⟩ := leafAt_content whole.valid (leaf_of_slotted whole.slotted)
    have fits := whole.fits hn hw
    have fewer : (window start count cells).length * width < sizeModulus :=
      Nat.lt_of_le_of_lt (Nat.mul_le_mul_right width (window_sublist _ _ _).length_le) fits
    obtain ⟨n', hn', shown⟩ := whole.shows hd hw fits
    obtain rfl := Except.ok.inj (hn.symm.trans hn')
    obtain ⟨part, hpart, shownPart⟩ := (cut start count).shows hd hw fewer
    rw [← window_map, ← window_map] at shownPart
    exact ⟨type, _, _, part, whole.typed, whole.valid, hpart, by rw [List.length_map, whole.rows_eq],
      shown, shownPart⟩
  | none =>
    obtain ⟨type, typed, -⟩ := Result.bind_eq_ok.mp hn
    rw [toVector_of_values raw typed] at hn
    obtain ⟨vals, found, made⟩ := Result.bind_eq_ok.mp hn
    have laid := h.mono fun _ sized => sized.laid
    obtain ⟨free, room⟩ := hasRoom_values h typed found
    have fit : RowsFit type vals := by
      have drawn := DrawnFrom.all (valueAt vals) a.rows
      rw [← length_values h.here.laid found, range_map_valueAt, length_values h.here.laid found] at drawn
      exact room vals drawn
    obtain ⟨answer, answers⟩ := rowwise free
    obtain ⟨n', hn', whole⟩ := answers vals n made fit vals (List.Sublist.refl _)
    obtain rfl := Except.ok.inj (made.symm.trans hn')
    obtain ⟨part, hpart, cut⟩ := answers vals n made fit _ (window_sublist start count vals)
    have shownPart := shows_of_answers hpart cut
    rw [← window_map, ← window_map] at shownPart
    refine ⟨type, _, _, part, typed, check_of_ofValues made, ?_, ?_, shows_of_answers made whole,
      shownPart⟩
    · rw [toVector_of_values (rawSlots?_slice raw start count) ((logicalType_slice _ _ a).trans typed),
        values_slice laid found inside, Result.ok_bind, hpart]
    · rw [List.length_map, length_values h.here.laid found]

/-- The views of a vector that shows answers, and the plan that gives them. -/
theorem Shows.reads {n : NativeVector} {type : LogicalType} {flags : List Bool}
    {answers : List (Result Value)} (h : Shows n type flags answers) (valid : type.check = .ok ()) :
    ∃ view plan conv, ColumnView.ofNative n answers.length = .ok view ∧ view.column = ⟨type, valid⟩ ∧
      view.column.resolveBoxed = .ok plan ∧ plan.prepare view = .ok conv ∧
      ∀ row (inside : row < answers.length),
        view.isValid row = .ok (flags.get ⟨row, h.count ▸ inside⟩) ∧
          conv.convert view row true = answers[row] := by
  obtain ⟨view, plan, conv, opens, same, hplan, hconv, reads⟩ :=
    ColumnView.reads_of_answers valid h.answered
  refine ⟨view, plan, conv, opens, by rw [same], hplan, hconv, fun row inside => ⟨?_, reads row inside⟩⟩
  subst same
  exact ColumnView.isValid_of_bit inside (h.bits row (h.count ▸ inside))

/-- Slicing commutes with conversion. Of an array that becomes a vector every slice does, with the
same column type and with the rows of the slice, and each row of it is as valid as the row that it is
cut from and is read as the same boxed value or with the same error. -/
theorem slice_reads (a : PhysicalArray) (h : a.Everywhere Sized) {n : NativeVector}
    (hn : a.toVector = .ok n) {start count : Nat} (inside : start + count ≤ a.rows) :
    ∃ part view partView plan conv partConv,
      a.logicalType = .ok n.type ∧ (a.slice start count).logicalType = .ok n.type ∧
      (a.slice start count).toVector = .ok part ∧ part.type = n.type ∧
      n.rows = a.rows ∧ part.rows = count ∧
      ColumnView.ofNative n a.rows = .ok view ∧ ColumnView.ofNative part count = .ok partView ∧
      view.column.resolveBoxed = .ok plan ∧ partView.column.resolveBoxed = .ok plan ∧
      plan.prepare view = .ok conv ∧ plan.prepare partView = .ok partConv ∧
      ∀ row < count, partView.isValid row = view.isValid (start + row) ∧
        partConv.convert partView row true = conv.convert view (start + row) true := by
  obtain ⟨type, flags, answers, part, typed, valid, hpart, length, whole, cut⟩ :=
    shows_slice h hn inside
  have count' : (window start count answers).length = count := length_window (by rwa [length])
  obtain ⟨view, plan, conv, opens, column, hplan, hconv, reads⟩ := whole.reads valid
  obtain ⟨partView, partPlan, partConv, partOpens, partColumn, hpartPlan, hpartConv, partReads⟩ :=
    cut.reads valid
  obtain rfl := whole.answered.typed.type_eq
  have same : partPlan = plan := by
    rw [partColumn, ← column, hplan] at hpartPlan
    exact (Except.ok.inj hpartPlan).symm
  subst same
  rw [length] at opens
  rw [count'] at partOpens
  refine ⟨part, view, partView, partPlan, conv, partConv, typed, (logicalType_slice _ _ a).trans typed,
    hpart, cut.answered.typed.type_eq, whole.answered.rows.trans length,
    cut.answered.rows.trans count', opens, partOpens, hplan, hpartPlan, hconv, hpartConv,
    fun row hrow => ?_⟩
  have there : start + row < answers.length := by omega
  have here : row < (window start count answers).length := by rwa [count']
  obtain ⟨flag, answer⟩ := reads (start + row) there
  obtain ⟨partFlag, partAnswer⟩ := partReads row here
  rw [flag, answer, partFlag, partAnswer]
  have flags' : (window start count flags)[row]? = flags[start + row]? := getElem?_window flags hrow
  have answers' : (window start count answers)[row]? = answers[start + row]? :=
    getElem?_window answers hrow
  have flagThere : start + row < flags.length := by rwa [whole.count]
  have flagHere : row < (window start count flags).length := by rwa [cut.count]
  rw [List.getElem?_eq_getElem flagHere, List.getElem?_eq_getElem flagThere] at flags'
  rw [List.getElem?_eq_getElem here, List.getElem?_eq_getElem there] at answers'
  exact ⟨congrArg Except.ok (Option.some.inj flags'), Option.some.inj answers'⟩

/-- The second pair of names is cut out of pairs of which the first one is missing. -/
theorem slice_reads_pair_of_names :
    let code := Word.wrap .i8
    let names := dictionary .i8 [⟨code 0, true⟩, ⟨code 5, false⟩, ⟨code 1, true⟩, ⟨code 0, false⟩]
      (utf8 .offsets32 [⟨"even", true⟩, ⟨"odd", true⟩])
    let pairs := fixedList "item" 2 [false, true] names
    ∃ n part view partView plan conv partConv,
      pairs.toVector = .ok n ∧ (pairs.slice 1 1).toVector = .ok part ∧ part.rows = 1 ∧
      n.type = .array (.enum #["even", "odd"]) 2 ∧ part.type = n.type ∧
      ColumnView.ofNative n 2 = .ok view ∧ ColumnView.ofNative part 1 = .ok partView ∧
      view.column.resolveBoxed = .ok plan ∧ plan.prepare view = .ok conv ∧
      plan.prepare partView = .ok partConv ∧ partView.isValid 0 = view.isValid 1 ∧
      partConv.convert partView 0 true = conv.convert view 1 true := by
  intro code names pairs
  have h : pairs.Everywhere Sized :=
    .fixedList ⟨(by decide : 2 * 2 ≤ 4), by decide⟩ (.leaf rfl ⟨trivial, by decide⟩)
  obtain ⟨n, hn⟩ : ∃ n, pairs.toVector = .ok n := ⟨_, by cbv⟩
  obtain ⟨part, view, partView, plan, conv, partConv, typed, -, hpart, same, -, rows, opens, partOpens,
    hplan, -, hconv, hpartConv, reads⟩ := slice_reads pairs h hn (by decide : 1 + 1 ≤ pairs.rows)
  obtain ⟨valid, answer⟩ := reads 0 (by decide)
  exact ⟨n, part, view, partView, plan, conv, partConv, hn, hpart, rows,
    Except.ok.inj (typed.symm.trans rfl), same, opens, partOpens, hplan, hconv,
    hpartConv, valid, answer⟩

end TypedColumns.Arrow.PhysicalArray
