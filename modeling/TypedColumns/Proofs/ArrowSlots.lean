import TypedColumns.Arrow.ToVector
import TypedColumns.Proofs.AcceptedReads
import TypedColumns.Proofs.Constructors
import TypedColumns.Proofs.ReachableContent

/-!
Arrow arrays whose cells are copied as slots, and the same arrays made into values first, as they are
inside another array. Both vectors have the same rows, and their valid rows the same slots, as far as
the values can be formed: timestamps have to be countable in microseconds, and times of day beyond the
64-bit range of nanoseconds are cut to it.
-/
namespace TypedColumns

open LogicalType NativeVector

/-- The read asks for that row. -/
def Read.Touches : Read → (row : Nat) → Prop
  | .get _ asked, row | .getOrDefault _ asked, row | .tryGet _ asked, row | .getAs _ asked, row =>
    row = asked
  | .values _, _ => True

/-- What reads a column without children reads any vector of it. -/
theorem Reading.Shape.closed_of_leaf {type : LogicalType} {α : Type} {reading : Reading α}
    (shape : reading.Shape type) (leaf : type.kind.isNested = false) :
    ∃ read, reading = .closed read := by
  induction shape with
  | slot _ _ => exact ⟨_, rfl⟩
  | @elements type child _ _ _ _ part _ _ _ =>
    cases type with
    | list _ | array _ _ => cases leaf
    | _ => cases part
  | struct _ _ _ => cases leaf
  | map _ _ _ _ _ _ => cases leaf
  | union _ _ _ => cases leaf
  | mapped f _ ih =>
    obtain ⟨read, rfl⟩ := ih leaf
    exact ⟨_, rfl⟩

/-- Two views of one column without children answer a read alike if every row that it asks for is the
same in both. -/
theorem Read.direct_congr {view other : ColumnView} (hc : other.column = view.column)
    (hr : other.rows = view.rows) (leaf : view.column.type.kind.isNested = false) (r : Read)
    (same : ∀ row < view.rows, r.Touches row →
      SameAt view.column.type view.native other.native row) :
    r.direct view = r.direct other := by
  unfold Read.direct
  rw [hc]
  cases hp : r.key.resolve view.column with
  | error e => rfl
  | ok plan =>
    have shape := (r.key.resolves hp).shaped.shape
    obtain ⟨read, closed⟩ := shape.closed_of_leaf leaf
    have prepared (v : ColumnView) : plan.prepare v = .ok plan := by
      rw [Converter.prepare, Converter.isBound, closed]
      rfl
    have tried (row : Nat) (touched : r.Touches row) :
        plan.tryConvert view row = plan.tryConvert other row :=
      Converter.same_tryConvert shape.reads_local rfl hc hr (prepared view) (prepared other)
        fun inside => same row inside touched
    have converted (row : Nat) (touched : r.Touches row) (require : Bool) :
        plan.convert view row require = plan.convert other row require :=
      Converter.same_convert shape.reads_local rfl hc hr (prepared view) (prepared other)
        (fun inside => same row inside touched) require
    simp only [Result.ok_bind, prepared]
    cases r with
    | get t row => exact converted row rfl true
    | getOrDefault t row => exact converted row rfl false
    | tryGet t row => exact tried row rfl
    | getAs t row => exact converted row rfl true
    | values t =>
      simp only [Read.answer, hr]
      exact Result.mapM_congr fun row _ => converted row trivial true

namespace NativeVector

/-- Rows with the same bit, and with the same slot if that is set. -/
theorem sameAt_of_slots {type : LogicalType} (slotted : type.isSlotted) {width : Nat}
    (hw : type.storage.slotWidth? = some width) {v w : NativeVector} {row : Nat}
    (bits : v.bit? row = w.bit? row)
    (slots : v.bit? row = some true → v.slot? width row = w.slot? width row) :
    SameAt type v w row := by
  refine ⟨bits, fun set => ?_⟩
  have string : type.storage.isStringLike = false := by
    have plain := storage_of_slotted slotted
    rw [Bool.or_eq_false_iff] at plain
    exact plain.1
  have content : v.content? type.storage row = w.content? type.storage row := by
    simp only [content?, string, hw, Option.getD_some, slots set, Bool.false_eq_true, if_false]
  cases type with
  | scalar _ | decimal _ _ | enum _ => exact content
  | _ => cases slotted

/-- One vector has as many rows as the other and the same valid rows, those of the flags, and every
read that asks for `exact` rows alone finds the same in both. -/
def ReadAlike (v w : NativeVector) (flags : List Bool) (exact : Nat → Prop) : Prop :=
  ∃ view other, ColumnView.ofNative v flags.length = .ok view ∧
    ColumnView.ofNative w flags.length = .ok other ∧
    (∀ row flag, flags[row]? = some flag →
      view.isValid row = .ok flag ∧ other.isValid row = .ok flag) ∧
    ∀ r : Read, (∀ row < flags.length, r.Touches row → exact row) → r.direct view = r.direct other

theorem ReadAlike.of_sameAt {type : LogicalType} (valid : type.check = .ok ())
    (leaf : type.kind.isNested = false) {v w : NativeVector} {flags : List Bool}
    {exact : Nat → Prop} (hv : v.type = type) (hw : w.type = type) (rows : v.rows = flags.length)
    (rows' : w.rows = flags.length) (bits : ∀ row flag, flags[row]? = some flag →
      v.bit? row = some flag ∧ w.bit? row = some flag)
    (same : ∀ row < flags.length, exact row → SameAt type v w row) :
    v.ReadAlike w flags exact := by
  let whole (n : NativeVector) : ColumnView := ⟨⟨type, valid⟩, flags.length, n, []⟩
  have opens (n : NativeVector) (ht : n.type = type) (hr : n.rows = flags.length) :
      ColumnView.ofNative n flags.length = .ok (whole n) := by
    unfold ColumnView.ofNative
    rw [ht, Column.ofType_of_check valid, Result.ok_bind,
      ColumnView.firstRows_of_le (Nat.le_of_eq hr.symm)]
  have valid_of_bit (n : NativeVector) (row : Nat) (flag : Bool) (found : flags[row]? = some flag)
      (bit : n.bit? row = some flag) : (whole n).isValid row = .ok flag := by
    obtain ⟨inside, -⟩ := List.getElem?_eq_some_iff.mp found
    exact ColumnView.isValid_of_bit inside bit
  refine ⟨whole v, whole w, opens v hv rows, opens w hw rows', ?_, ?_⟩
  · intro row flag found
    exact ⟨valid_of_bit v row flag found (bits row flag found).1,
      valid_of_bit w row flag found (bits row flag found).2⟩
  · intro r asked
    refine Read.direct_congr (show (whole w).column = (whole v).column from rfl) rfl leaf r ?_
    intro row inside touched
    exact same row inside (asked row inside touched)

end NativeVector

namespace Arrow.PhysicalArray

variable {α : Type}

/-- The flags of copied slots are those of the array. -/
theorem validity_of_rawSlots {a : PhysicalArray} {slots : List UInt8} {valid : List Bool}
    (h : a.rawSlots? = some (slots, valid)) : valid = a.validity := by
  cases a with
  | time64 unit _ => cases unit <;> first | cases h; rfl | cases h
  | timestamp _ zone _ => cases zone <;> first | cases h; rfl | cases h
  | _ => first | cases h; rfl | cases h

/-- Copied slots are the memory of the vector, and the flags of the rows make its bitmap. -/
theorem toVector_eq_ok {a : PhysicalArray} {slots : List UInt8} {valid : List Bool}
    (copied : a.rawSlots? = some (slots, valid)) {n : NativeVector} (h : a.toVector = .ok n) :
    ∃ type, a.logicalType = .ok type ∧
      n = ⟨type, a.rows, slots.toArray, Bitmap.ofFlags a.validity, #[], [], 0⟩ := by
  obtain ⟨type, typed, made⟩ := Result.bind_eq_ok.mp h
  rw [copied] at made
  obtain ⟨-, -, width, -, -, -, rfl⟩ := NativeVector.ofSlots_eq_ok made
  rw [validity_of_rawSlots copied]
  exact ⟨type, typed, rfl⟩

/-- The value of a cell, null for an invalid one. -/
def cellValue (f : α → Result Value) (cell : Cell α) : Value :=
  if cell.valid then (f cell.content).toOption.getD .null else .null

theorem cellValue_of_ok {f : α → Result Value} {cell : Cell α} (valid : cell.valid) {x : Value}
    (h : f cell.content = .ok x) : cellValue f cell = x := by
  rw [cellValue, if_pos valid, h]
  rfl

theorem cellValues_ok {f : α → Result Value} {cells : List (Cell α)}
    (h : ∀ cell ∈ cells, cell.valid → ∃ x, f cell.content = .ok x) :
    cellValues f cells = .ok (cells.map (cellValue f)) := by
  apply Result.mapM_eq_map
  intro cell hc
  by_cases valid : cell.valid
  · obtain ⟨x, hx⟩ := h cell hc valid
    rw [if_pos valid, cellValue_of_ok valid hx, hx]
  · rw [if_neg valid, cellValue, if_neg valid]

/-- The first cell without a value decides. -/
theorem cellValues_error {f : α → Result Value} {cells : List (Cell α)} {bad : Cell α → Bool}
    (hf : ∀ cell ∈ cells, if bad cell then cell.valid ∧ ∃ e, f cell.content = .error e
      else cell.valid → ∃ x, f cell.content = .ok x) {cell : Cell α}
    (found : cells.find? bad = some cell) {e : Error} (he : f cell.content = .error e) :
    cellValues f cells = .error e := by
  induction cells with
  | nil => cases found
  | cons first rest ih =>
    obtain ⟨here, later⟩ := List.forall_mem_cons.mp hf
    unfold cellValues
    rw [List.mapM_cons]
    cases hb : bad first with
    | true =>
      obtain rfl : first = cell := by simpa [hb] using found
      rw [hb, if_pos rfl] at here
      rw [if_pos here.1, he, Result.error_bind]
    | false =>
      rw [List.find?_cons_of_neg (by simp [hb])] at found
      obtain ⟨x, hx⟩ : ∃ x, (if first.valid then f first.content else .ok .null) = .ok x := by
        by_cases valid : first.valid
        · rw [hb] at here
          obtain ⟨x, hx⟩ := here valid
          exact ⟨x, by rw [if_pos valid, hx]⟩
        · exact ⟨.null, if_neg valid⟩
      have failed := ih later found
      unfold cellValues at failed
      rw [hx, Result.ok_bind, failed, Result.error_bind]

/-- A column of `type` has the cells as slots, or as values that are written to slots. -/
structure Copied (a : PhysicalArray) (type : LogicalType) (bytes : α → List UInt8)
    (value : α → Result Value) (cells : List (Cell α)) : Prop where
  typed : a.logicalType = .ok type
  flags : a.validity = cells.map Cell.valid
  slots : a.rawSlots? = slotCells bytes cells
  values : a.values = cellValues value cells
  valid : type.check = .ok ()
  slotted : type.isSlotted
  width (x : α) : type.storage.slotWidth? = some (bytes x).length
  written (x : α) (v : Value) : value x = .ok v → v.isNull = false ∧ ∃ slot, type.slotOf v = .ok slot

namespace Copied

variable {a : PhysicalArray} {type : LogicalType} {bytes : α → List UInt8}
  {value : α → Result Value} {cells : List (Cell α)} (h : Copied a type bytes value cells)
include h

theorem rows_eq : a.rows = cells.length := by
  rw [rows, h.flags, List.length_map]

theorem validity_getElem? (row : Nat) : a.validity[row]? = (cells[row]?).map Cell.valid := by
  rw [h.flags, List.getElem?_map]

theorem slotWidth : ∃ width, type.storage.slotWidth? = some width ∧
    ∀ slot ∈ cells.map fun cell => bytes cell.content, slot.length = width := by
  obtain ⟨width, hw⟩ := slotWidth_of_slotted h.slotted h.valid
  refine ⟨width, hw, ?_⟩
  intro slot hs
  obtain ⟨cell, -, rfl⟩ := List.mem_map.mp hs
  have same := h.width cell.content
  rw [hw, Option.some_inj] at same
  exact same.symm

/-- The cells as slots. -/
theorem toVector_ok {width : Nat} (hw : type.storage.slotWidth? = some width)
    (fits : cells.length * width < sizeModulus) :
    ∃ v, a.toVector = .ok v ∧ v.type = type ∧ v.rows = a.rows ∧
      ∀ row (inside : row < cells.length), v.bit? row = some cells[row].valid ∧
        v.slot? width row = some (bytes cells[row].content) := by
  obtain ⟨width', hw', wide⟩ := h.slotWidth
  obtain rfl : width = width' := by simpa [hw] using hw'
  have made := ofSlots_flags h.valid h.slotted hw wide (cells.map Cell.valid) (by simp)
    (by rwa [List.length_map])
  have copied : a.toVector = ofSlots type (cells.map Cell.valid).length
      (cells.map fun cell => bytes cell.content).flatten (Bitmap.ofFlags (cells.map Cell.valid)) := by
    unfold toVector
    rw [h.typed, Result.ok_bind, h.slots]
    rfl
  refine ⟨_, copied.trans made, rfl, ?_, ?_⟩
  · rw [h.rows_eq]
    exact List.length_map _
  · intro row inside
    constructor
    · have flag : row < (cells.map Cell.valid).length := by rwa [List.length_map]
      exact (Bitmap.rowBit?_ofFlags flag).trans (by rw [List.getElem_map])
    · have slot : row < (cells.map fun cell => bytes cell.content).length := by rwa [List.length_map]
      rw [slot?_flatten wide rfl slot, List.getElem_map]

/-- The cells as values, which are written to slots. -/
theorem ofValues_ok (all : ∀ cell ∈ cells, cell.valid → ∃ x, value cell.content = .ok x)
    {width : Nat} (hw : type.storage.slotWidth? = some width)
    (fits : cells.length * width < sizeModulus) :
    ∃ values w, a.values = .ok values ∧ ofValues type values = .ok w ∧ w.type = type ∧
      w.rows = a.rows ∧ ∀ row (inside : row < cells.length), w.bit? row = some cells[row].valid ∧
        ∀ x slot, cells[row].valid → value cells[row].content = .ok x → type.slotOf x = .ok slot →
          w.slot? width row = some slot := by
  have present (cell : Cell α) (hc : cell ∈ cells) : (cellValue value cell).isNull = !cell.valid := by
    cases valid : cell.valid with
    | false => rw [cellValue, valid, if_neg Bool.false_ne_true]; rfl
    | true =>
      obtain ⟨x, hx⟩ := all cell hc valid
      rw [cellValue_of_ok valid hx, (h.written _ x hx).1]
      rfl
  have written : ∀ v ∈ cells.map (cellValue value), v.isNull = false →
      ∃ slot, type.slotOf v = .ok slot := by
    intro v hv there
    obtain ⟨cell, hc, rfl⟩ := List.mem_map.mp hv
    have valid : cell.valid = true := by
      rw [present cell hc] at there
      simpa using there
    obtain ⟨x, hx⟩ := all cell hc valid
    rw [cellValue_of_ok valid hx]
    exact (h.written _ x hx).2
  obtain ⟨w, hw', ht, hr, hb, slots⟩ :=
    ofSlotValues_ok h.valid h.slotted hw written (by rwa [List.length_map])
  refine ⟨cells.map (cellValue value), w, ?_, ?_, ht, ?_, ?_⟩
  · rw [h.values, cellValues_ok all]
  · rw [ofValues_slotted h.valid h.slotted, hw']
  · rw [hr, List.length_map, h.rows_eq]
  · intro row inside
    have there : row < (cells.map (cellValue value)).length := by rwa [List.length_map]
    constructor
    · rw [bit?_present hb there, List.getElem_map, present _ (List.getElem_mem inside), Bool.not_not]
    · intro x slot valid hx hs
      refine slots row there slot ?_ ?_ <;> rw [List.getElem_map, cellValue_of_ok valid hx]
      · exact (h.written _ x hx).1
      · exact hs

/-- Both vectors are read alike where the value of a valid cell is written as the cell itself. -/
theorem agree (all : ∀ cell ∈ cells, cell.valid → ∃ x, value cell.content = .ok x)
    (fits : ((cells.map fun cell => bytes cell.content).flatten).length < sizeModulus)
    {exact : Nat → Prop} (kept : ∀ row cell, cells[row]? = some cell → cell.valid → exact row →
      ∀ x, value cell.content = .ok x → type.slotOf x = .ok (bytes cell.content)) :
    ∃ type v, a.logicalType = .ok type ∧ a.toVector = .ok v ∧ v.type = type ∧ v.rows = a.rows ∧
      ∃ values w, a.values = .ok values ∧ ofValues type values = .ok w ∧ w.type = type ∧
        w.rows = a.rows ∧ v.ReadAlike w a.validity exact := by
  obtain ⟨width, hw, wide⟩ := h.slotWidth
  rw [length_flatten_uniform wide, List.length_map] at fits
  obtain ⟨v, hv, vtype, vrows, vcells⟩ := h.toVector_ok hw fits
  obtain ⟨values, w, hvalues, hw', wtype, wrows, wcells⟩ := h.ofValues_ok all hw fits
  refine ⟨type, v, h.typed, hv, vtype, vrows, values, w, hvalues, hw', wtype, wrows, ?_⟩
  refine .of_sameAt h.valid (leaf_of_slotted h.slotted) vtype wtype vrows wrows ?_ ?_
  · intro row flag found
    rw [h.validity_getElem?, Option.map_eq_some_iff] at found
    obtain ⟨cell, found, rfl⟩ := found
    obtain ⟨inside, rfl⟩ := List.getElem?_eq_some_iff.mp found
    exact ⟨(vcells row inside).1, (wcells row inside).1⟩
  · intro row inside exactly
    have inside : row < cells.length := by rwa [← h.rows_eq]
    refine sameAt_of_slots h.slotted hw ((vcells row inside).1.trans (wcells row inside).1.symm) ?_
    intro set
    have valid : cells[row].valid = true := by simpa [(vcells row inside).1] using set
    obtain ⟨x, hx⟩ := all _ (List.getElem_mem inside) valid
    have slot := kept row _ (List.getElem?_eq_getElem inside) valid exactly x hx
    rw [(vcells row inside).2, (wcells row inside).2 x _ valid hx slot]

end Copied

section Instances

/-- The cells of an array whose values all exist. -/
theorem copied_plain {a : PhysicalArray} {type : LogicalType} {bytes : α → List UInt8}
    {value : α → Value} {cells : List (Cell α)} (typed : a.logicalType = .ok type)
    (flags : a.validity = cells.map Cell.valid) (slots : a.rawSlots? = slotCells bytes cells)
    (values : a.values = plainValues value cells) (valid : type.check = .ok ())
    (slotted : type.isSlotted)
    (width : ∀ x, type.storage.slotWidth? = some (bytes x).length)
    (written : ∀ x, (value x).isNull = false ∧ ∃ slot, type.slotOf (value x) = .ok slot) :
    a.Copied type bytes (fun x => .ok (value x)) cells where
  typed := typed
  flags := flags
  slots := slots
  values := values
  valid := valid
  slotted := slotted
  width := width
  written x v h := by
    obtain rfl := Except.ok.inj h
    exact written x

theorem slotOf_int {k : IntKind} (n : Word k) :
    (scalar (.int k)).slotOf (.int k n) = .ok n.toBytes := by
  obtain ⟨m, hm, same⟩ := (int_wordSlots k).writes n _ rfl
  obtain rfl : m = n := by simpa using same
  exact hm

theorem copied_int {k : IntKind} (cells : List (Cell (Word k))) :
    (int k cells).Copied (scalar (.int k)) Word.toBytes (fun n => .ok (.int k n)) cells := by
  refine copied_plain rfl rfl rfl rfl rfl rfl ?_ fun n => ⟨rfl, _, slotOf_int n⟩
  intro n
  rw [Word.toBytes_length]
  rfl

theorem copied_single (cells : List (Cell (Binary .single))) :
    (float .single cells).Copied (scalar .float) Binary.toBytes (fun x => .ok (.float x)) cells := by
  refine copied_plain rfl rfl rfl rfl rfl rfl ?_ fun x => ⟨rfl, _, rfl⟩
  intro x
  rw [Binary.toBytes_length]
  rfl

theorem copied_double (cells : List (Cell (Binary .double))) :
    (float .double cells).Copied (scalar .double) Binary.toBytes (fun x => .ok (.double x))
      cells := by
  refine copied_plain rfl rfl rfl rfl rfl rfl ?_ fun x => ⟨rfl, _, rfl⟩
  intro x
  rw [Binary.toBytes_length]
  rfl

theorem copied_date (cells : List (Cell (Word .i32))) :
    (date32 cells).Copied (scalar .date) Word.toBytes (fun days => .ok (.rawDate days)) cells := by
  refine copied_plain rfl rfl rfl rfl rfl rfl ?_ fun days => ⟨rfl, _, rfl⟩
  intro days
  rw [Word.toBytes_length]
  rfl

theorem copied_time (cells : List (Cell (Word .i64))) :
    (time64 .microsecond cells).Copied (scalar .time) Word.toBytes
      (fun raw => .ok (timeMicros .microsecond raw.val)) cells := by
  refine copied_plain rfl rfl rfl rfl rfl rfl ?_ fun raw => ⟨rfl, _, rfl⟩
  intro raw
  rw [Word.toBytes_length]
  rfl

/-- Counted in microseconds, the timestamp is an integer of 64 bits. -/
def Counted (unit : TimeUnit) (raw : Word .i64) : Prop :=
  IntKind.i64.Holds (raw.val * unit.nanoseconds / 1000)

instance (unit : TimeUnit) (raw : Word .i64) : Decidable (Counted unit raw) :=
  inferInstanceAs (Decidable (IntKind.i64.Holds _))

/-- An instant of the calendar is countable. -/
theorem instantOf_uncounted {unit : TimeUnit} {raw : Word .i64} (h : ¬ Counted unit raw) :
    instantOf unit raw = .error (.domain (.arrowTimestamp raw.val unit)) := by
  have off : DateTime.ofNanos? (raw.val * unit.nanoseconds) = none := by
    unfold DateTime.ofNanos? Date.ofDay?
    rw [dif_neg, Option.map_none]
    intro inside
    apply h
    simp only [Counted, IntKind.Holds, IntKind.min, IntKind.max]
    omega
  have large : Word.ofInt? .i64 (raw.val * unit.nanoseconds / 1000) = none := dif_neg h
  unfold instantOf
  simp only [off, large]

/-- Microseconds of a timestamp off the calendar are written as the timestamp's own slot. -/
theorem timestampSlot_micros {unit : TimeUnit} {raw micros : Word .i64}
    (off : DateTime.ofNanos? (raw.val * unit.nanoseconds) = none)
    (h : micros.val = raw.val * unit.nanoseconds / 1000) :
    (scalar (DataType.timestampKind unit none)).slotOf (.rawTimestamp micros) =
      .ok raw.toBytes := by
  have written {kind : TimestampUnit} (back : micros.val * 1000 / kind.nanoseconds = raw.val)
      (infinite : Timestamp.slotFinite micros = false → micros = raw) :
      (scalar (.timestamp kind)).timestampSlot kind (.rawTimestamp micros) = .ok raw.toBytes := by
    unfold timestampSlot
    cases finite : Timestamp.slotFinite micros with
    | true => simp only [finite, if_true, back, intSlot_val]
    | false =>
      obtain rfl := infinite finite
      simp only [finite, Bool.false_eq_true, if_false]
  simp only [Timestamp.slotFinite, Bool.and_eq_false_iff, bne_eq_false_iff_eq] at written
  cases unit with
  | second | millisecond =>
    simp only [TimeUnit.nanoseconds] at h
    apply written
    · simp only [TimestampUnit.nanoseconds]
      omega
    · omega
  | microsecond =>
    simp only [TimeUnit.nanoseconds] at h
    apply written
    · simp only [TimestampUnit.nanoseconds]
      omega
    · intro _
      apply Word.ext
      omega
  | nanosecond =>
    -- 64 bits of nanoseconds stay on the calendar.
    obtain ⟨n, lower, upper⟩ := raw
    simp only [IntKind.min, IntKind.max] at lower upper
    unfold DateTime.ofNanos? Date.ofDay? at off
    rw [dif_pos (by simp only [TimeUnit.nanoseconds]; omega)] at off
    cases off

/-- A value made from a countable timestamp is written as the timestamp's own slot. -/
theorem instantOf_counted {unit : TimeUnit} {raw : Word .i64} (h : Counted unit raw) :
    ∃ x, instantOf unit raw = .ok x ∧ x.isNull = false ∧
      (scalar (DataType.timestampKind unit none)).slotOf x = .ok raw.toBytes := by
  cases calendar : DateTime.ofNanos? (raw.val * unit.nanoseconds) with
  | some clock =>
    refine ⟨.timestampTz (.utc clock), by simp only [instantOf, calendar], rfl, ?_⟩
    have nanos := DateTime.ofNanos?_eq_some.mp calendar
    cases unit <;>
      simp only [DataType.timestampKind, slotOf, timestampSlot, OffsetDateTime.instant_utc, nanos,
        TimeUnit.nanoseconds, TimestampUnit.nanoseconds]
    all_goals
      rw [Int.mul_ediv_cancel _ (by decide)]
      exact intSlot_val _ raw _
  | none =>
    have micros : Word.ofInt? .i64 (raw.val * unit.nanoseconds / 1000) = some ⟨_, h⟩ := dif_pos h
    refine ⟨.rawTimestamp ⟨_, h⟩, by simp only [instantOf, calendar, micros], rfl, ?_⟩
    exact timestampSlot_micros calendar rfl

theorem copied_timestamp (unit : TimeUnit) (cells : List (Cell (Word .i64))) :
    (timestamp unit none cells).Copied (scalar (DataType.timestampKind unit none)) Word.toBytes
      (instantOf unit) cells where
  typed := rfl
  flags := rfl
  slots := rfl
  values := rfl
  valid := by cases unit <;> rfl
  slotted := by cases unit <;> rfl
  width raw := by
    rw [Word.toBytes_length]
    cases unit <;> rfl
  written raw x h := by
    by_cases counted : Counted unit raw
    · obtain ⟨y, hy, present, slot⟩ := instantOf_counted counted
      obtain rfl : y = x := Except.ok.inj (hy.symm.trans h)
      exact ⟨present, _, slot⟩
    · rw [instantOf_uncounted counted] at h
      cases h

/-- Times of day that are countable in nanoseconds are not cut. -/
theorem timeMicros_inside {raw : Word .i64}
    (inside : -9223372036854775 ≤ raw.val ∧ raw.val ≤ 9223372036854775) :
    timeMicros .microsecond raw.val = .rawTime raw := by
  have kept : max IntKind.i64.min (min IntKind.i64.max (raw.val * TimeUnit.microsecond.nanoseconds)) =
      raw.val * 1000 := by
    simp only [IntKind.min, IntKind.max, TimeUnit.nanoseconds]
    omega
  simp only [timeMicros, kept]
  rw [Int.mul_tdiv_cancel _ (by decide)]
  exact congrArg Value.rawTime (Word.ext (Word.wrap_val_of_holds raw.holds))

end Instances

/-- The first valid timestamp that is not countable in microseconds of 64 bits. -/
def uncounted? : PhysicalArray → Option (Word .i64 × TimeUnit)
  | timestamp unit none cells =>
    (cells.find? fun cell => cell.valid && !decide (Counted unit cell.content)).map
      fun cell => (cell.content, unit)
  | _ => none

/-- The row is no time of day beyond the 64-bit range of nanoseconds. -/
def Uncut : PhysicalArray → (row : Nat) → Prop
  | time64 .microsecond cells, row => ∀ cell, cells[row]? = some cell → cell.valid →
      -9223372036854775 ≤ cell.content.val ∧ cell.content.val ≤ 9223372036854775
  | _, _ => True

/-- The values of timestamps, up to the first one that is not countable. -/
theorem timestamp_values (unit : TimeUnit) (cells : List (Cell (Word .i64))) :
    match (timestamp unit none cells).uncounted? with
    | some (raw, named) =>
      (timestamp unit none cells).values = .error (.domain (.arrowTimestamp raw.val named))
    | none => ∀ cell ∈ cells, cell.valid → Counted unit cell.content := by
  let bad (cell : Cell (Word .i64)) : Bool := cell.valid && !decide (Counted unit cell.content)
  cases found : cells.find? bad with
  | none =>
    have first : (timestamp unit none cells).uncounted? = none := congrArg (Option.map _) found
    rw [first]
    intro cell hc valid
    have good := List.find?_eq_none.mp found cell hc
    simpa [bad, valid] using good
  | some cell =>
    have first : (timestamp unit none cells).uncounted? = some (cell.content, unit) :=
      congrArg (Option.map _) found
    rw [first]
    have there := List.find?_some found
    simp only [bad, Bool.and_eq_true, Bool.not_eq_true', decide_eq_false_iff_not] at there
    refine cellValues_error ?_ found (instantOf_uncounted there.2)
    intro other _
    split_ifs with fault
    · simp only [bad, Bool.and_eq_true, Bool.not_eq_true', decide_eq_false_iff_not] at fault
      exact ⟨fault.1, _, instantOf_uncounted fault.2⟩
    · intro valid
      have counted : Counted unit other.content := by simpa [bad, valid] using fault
      obtain ⟨x, hx, -⟩ := instantOf_counted counted
      exact ⟨x, hx⟩

/-- An array that is copied as slots becomes a vector, of its type and with its rows. Its values make
a vector that is read alike, as long as every valid timestamp is countable in microseconds and no row
that is asked for is a time of day beyond the 64-bit range of nanoseconds. The first timestamp that
is not countable is an error of the values. -/
theorem copied_slots_agree (a : PhysicalArray) {slots : List UInt8} {flags : List Bool}
    (copied : a.rawSlots? = some (slots, flags)) (fits : slots.length < sizeModulus) :
    ∃ type v, a.logicalType = .ok type ∧ a.toVector = .ok v ∧ v.type = type ∧ v.rows = a.rows ∧
      match a.uncounted? with
      | some (raw, unit) => a.values = .error (.domain (.arrowTimestamp raw.val unit))
      | none => ∃ values w, a.values = .ok values ∧ ofValues type values = .ok w ∧ w.type = type ∧
          w.rows = a.rows ∧ v.ReadAlike w a.validity a.Uncut := by
  cases a with
  | int k cells =>
    cases copied
    refine (copied_int cells).agree (fun _ _ _ => ⟨_, rfl⟩) fits ?_
    rintro row cell - - - x ⟨⟩
    exact slotOf_int cell.content
  | float format cells =>
    cases copied
    cases format with
    | single =>
      refine (copied_single cells).agree (fun _ _ _ => ⟨_, rfl⟩) fits ?_
      rintro row cell - - - x ⟨⟩
      rfl
    | double =>
      refine (copied_double cells).agree (fun _ _ _ => ⟨_, rfl⟩) fits ?_
      rintro row cell - - - x ⟨⟩
      rfl
  | date32 cells =>
    cases copied
    refine (copied_date cells).agree (fun _ _ _ => ⟨_, rfl⟩) fits ?_
    rintro row cell - - - x ⟨⟩
    rfl
  | time64 unit cells =>
    cases unit with
    | microsecond =>
      cases copied
      refine (copied_time cells).agree (fun _ _ _ => ⟨_, rfl⟩) fits ?_
      rintro row cell found valid uncut x ⟨⟩
      rw [timeMicros_inside (uncut cell found valid)]
      rfl
    | _ => cases copied
  | timestamp unit zone cells =>
    cases zone with
    | some _ => cases copied
    | none =>
      cases copied
      have h := copied_timestamp unit cells
      have read := timestamp_values unit cells
      cases first : (timestamp unit none cells).uncounted? with
      | some found =>
        obtain ⟨width, hw, wide⟩ := h.slotWidth
        rw [length_flatten_uniform wide, List.length_map] at fits
        obtain ⟨v, hv, vtype, vrows, -⟩ := h.toVector_ok hw fits
        rw [first] at read
        exact ⟨_, v, h.typed, hv, vtype, vrows, read⟩
      | none =>
        rw [first] at read
        refine h.agree (fun cell hc valid => ?_) fits ?_
        · obtain ⟨x, hx, -⟩ := instantOf_counted (read cell hc valid)
          exact ⟨x, hx⟩
        · intro row cell found valid _ x hx
          obtain ⟨y, hy, -, slot⟩ := instantOf_counted (read cell (List.mem_of_getElem? found) valid)
          obtain rfl := Except.ok.inj (hx.symm.trans hy)
          exact slot
  | _ => cases copied

/-- Dates with a missing row and days off the calendar. -/
theorem copied_slots_agree_dates :
    let dates := date32 [⟨.wrap .i32 2147483647, true⟩, ⟨0, false⟩, ⟨.wrap .i32 19000, true⟩]
    ∃ v values w, dates.toVector = .ok v ∧ dates.values = .ok values ∧
      ofValues (scalar .date) values = .ok w ∧ v.ReadAlike w dates.validity dates.Uncut := by
  intro dates
  obtain ⟨type, v, typed, hv, -, -, values, w, hvalues, hw, -, -, alike⟩ :=
    copied_slots_agree dates rfl (by decide)
  obtain rfl := Except.ok.inj typed
  exact ⟨v, values, w, hv, hvalues, hw, alike⟩

/-- A time of day beyond the 64-bit range of nanoseconds is read as it is or cut to that range, and
a timestamp that is not countable in microseconds is read as it is or an error. -/
theorem copied_slots_differ :
    let last : Word .i64 := .wrap .i64 9223372036854775807
    let time := time64 .microsecond [⟨last, true⟩]
    let stamp := timestamp .millisecond none [⟨last, true⟩]
    (∃ v values w view other, time.toVector = .ok v ∧ time.values = .ok values ∧
      ofValues (scalar .time) values = .ok w ∧ ColumnView.ofNative v 1 = .ok view ∧
      ColumnView.ofNative w 1 = .ok other ∧
      (Read.get .value 0).direct view = .ok (.rawTime last) ∧
      (Read.get .value 0).direct other = .ok (.rawTime (.wrap .i64 9223372036854775))) ∧
    ∃ v view, stamp.toVector = .ok v ∧ ColumnView.ofNative v 1 = .ok view ∧
      (Read.get .value 0).direct view = .ok (.rawTimestamp last) ∧
      stamp.values = .error (.domain (.arrowTimestamp last.val .millisecond)) := by
  dsimp only
  constructor
  · exact ⟨_, _, _, _, _, rfl, rfl, rfl, rfl, rfl, rfl, rfl⟩
  · exact ⟨_, _, rfl, rfl, rfl, rfl⟩

end Arrow.PhysicalArray
end TypedColumns
