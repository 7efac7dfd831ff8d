import TypedColumns.Proofs.ArrowSlots
import TypedColumns.Proofs.StoredValues

/-!
What the rows of an Arrow array stand for, read off its cells, offsets and children row by row. The
values that a cell becomes on its way into a column are stored as the value that it stands for.
-/
namespace TypedColumns.Arrow.PhysicalArray

open LogicalType NativeVector

variable {α : Type}

/-- The value of a row whose flag is set. -/
def whereValid (flags : List Bool) (row : Nat) (x : Value) : Value :=
  if flags[row]? = some true then x else .null

/-- The value of a cell, null for an invalid one. -/
def boxed (box : α → Value) (cell : Cell α) : Value :=
  if cell.valid then box cell.content else .null

def cellAt (box : α → Value) (cells : List (Cell α)) (row : Nat) : Value :=
  (cells[row]?).elim .null (boxed box)

/-- A date, or the day's number off the calendar. -/
def dayValue (day : Int) : Value :=
  match Date.ofDay? day with
  | some date => .date date
  | none => .rawDate (.wrap .i32 day)

/-- Whole microseconds since midnight as a clock time; 24:00:00 is none. -/
def timeValue (nanos : Int) : Value :=
  match ClockTime.ofNanos? (nanos / 1000 * 1000).toNat with
  | some t => .time t
  | none => .rawTime (.wrap .i64 (nanos / 1000))

/-- The clock at an instant, or the instant itself in whole microseconds if it has a zone. -/
def instantValue (zone : Option String) (nanos : Int) : Value :=
  match zone with
  | none => (DateTime.ofNanos? nanos).elim .null .timestamp
  | some _ => (DateTime.ofNanos? (nanos / 1000 * 1000)).elim .null fun clock =>
      .timestampTz (.utc clock)

/-- An interval in whole microseconds. -/
def intervalValue (i : MonthDayNano) : Value :=
  .interval ⟨i.months, i.days, .wrap .i64 (i.nanos.val / 1000)⟩

/-- A decimal, or the unscaled number beyond 96 bits or 28 places. -/
def decimalValue (n : Word .i128) (scale : Nat) : Value :=
  match Decimal.ofScaled n.val scale with
  | .ok d => .decimal d
  | .error _ => .scaledInt ⟨n, scale⟩

/-- The child rows from one offset up to the next. -/
def spanRows (offsets : List Nat) (row : Nat) : List Nat :=
  let start := offsets[row]?.getD 0
  List.range' start (offsets[row + 1]?.getD 0 - start)

mutual

/-- The value at a row. -/
def element : PhysicalArray → (row : Nat) → Value
  | null _, _ => .null
  | boolean cells, row => cellAt .boolean cells row
  | int k cells, row => cellAt (.int k) cells row
  | float .single cells, row => cellAt .float cells row
  | float .double cells, row => cellAt .double cells row
  | utf8 _ cells, row => cellAt .text cells row
  | binary _ cells, row | fixedBinary _ cells, row => cellAt .blob cells row
  | date32 cells, row => cellAt (fun days => dayValue days.val) cells row
  | date64 cells, row => cellAt (fun millis => dayValue (millis.val / 86400000)) cells row
  | time32 unit cells, row =>
    cellAt (fun raw => timeValue (raw.val * unit.nanoseconds)) cells row
  | time64 unit cells, row =>
    cellAt (fun raw => timeValue (raw.val * unit.nanoseconds)) cells row
  | timestamp unit zone cells, row =>
    cellAt (fun raw => instantValue zone (raw.val * unit.nanoseconds)) cells row
  | monthDayNano cells, row => cellAt intervalValue cells row
  | decimal128 _ scale cells, row => cellAt (fun n => decimalValue n scale.toNat) cells row
  | list _ _ offsets valid child, row =>
    whereValid valid row (.list ((spanRows offsets row).map (element child)))
  | fixedList _ size valid child, row =>
    whereValid valid row (.list ((List.range' (row * size) size).map (element child)))
  | struct fields valid, row => whereValid valid row (.struct (fieldElements fields row))
  | map _ _ _ offsets valid key value, row =>
    whereValid valid row (.map ((spanRows offsets row).map fun j => (element key j, element value j)))
  | dictionary _ _ _, _ | unread _ _, _ => .null

def fieldElements : List (String × PhysicalArray) → (row : Nat) → List (String × Value)
  | [], _ => []
  | (name, a) :: rest, row => (name, element a row) :: fieldElements rest row

end

/-- The value is written as the slot, and is what a slot of it is read as. -/
structure SlotHolds (type : LogicalType) (slot : List UInt8) (x : Value) : Prop where
  present : x.isNull = false
  written : type.slotOf x = .ok slot
  read : type.HasSlot x

namespace SlotHolds

variable {type : LogicalType} {slot : List UInt8} {x : Value}

theorem slotReads (h : SlotHolds type slot x) {v : Value} (written : type.slotOf v = .ok slot) :
    type.SlotReads v x := by
  obtain ⟨slot', width, written', hw, -, reads⟩ := h.read
  obtain rfl := Except.ok.inj (written'.symm.trans h.written)
  exact ⟨slot', width, written, hw, reads⟩

/-- Another value that is written as the slot. -/
theorem stored (h : SlotHolds type slot x) (valid : type.check = .ok ()) (slotted : type.isSlotted)
    {v : Value} (present : v.isNull = false) (written : type.slotOf v = .ok slot) :
    StoredAs type v x :=
  (storedAs_leaf (leaf_of_slotted slotted)).mpr
    ⟨canonical_of_hasSlot valid slotted h.present h.read,
      .inr ⟨slotted, present, h.present, h.slotReads written⟩⟩

theorem leafAt (h : SlotHolds type slot x) {width : Nat}
    (hw : type.storage.slotWidth? = some width) {n : NativeVector} {row : Nat}
    (hs : n.slot? width row = some slot) : n.leafAt type row = .ok x := by
  obtain ⟨slot', width', written, hw', -, reads⟩ := h.read
  obtain rfl : width' = width := by simpa [hw] using hw'.symm
  obtain rfl := Except.ok.inj (written.symm.trans h.written)
  exact reads n row hs

end SlotHolds

theorem int_slotHolds {k : IntKind} (n : Word k) :
    SlotHolds (scalar (.int k)) n.toBytes (.int k n) :=
  ⟨rfl, slotOf_int n, (int_wordSlots k).hasSlot_of_word rfl⟩

theorem float_slotHolds (x : Binary .single) : SlotHolds (scalar .float) x.toBytes (.float x) :=
  ⟨rfl, rfl, float_hasSlot x⟩

theorem double_slotHolds (x : Binary .double) : SlotHolds (scalar .double) x.toBytes (.double x) :=
  ⟨rfl, rfl, double_hasSlot x⟩

theorem ofSlot_day {days : Word .i32} {date : Date} (h : Date.ofDay? days.val = some date) :
    Date.ofSlot days = .ok date := by
  have inside : -4371587 ≤ days.val ∧ days.val ≤ 2932896 := by
    by_contra outside
    rw [Date.ofDay?, dif_neg outside] at h
    cases h
  have finite : Date.slotFinite days = true := by
    simp only [Date.slotFinite, Bool.and_eq_true, bne_iff_ne, ne_eq]
    omega
  have small : ¬ 2147483647 < days.val + 2440588 := by omega
  simp only [Date.ofSlot, finite, small, h, Bool.not_true, Bool.false_eq_true, if_false]

theorem ofSlot_off_calendar {days : Word .i32} (h : Date.ofDay? days.val = none) :
    ∃ fault, Date.ofSlot days = .error fault := by
  unfold Date.ofSlot
  rw [h]
  split_ifs <;> exact ⟨_, rfl⟩

/-- A day is what is read from the slot of its number. -/
theorem dayValue_eq (days : Word .i32) : dayValue days.val =
    Reader.orRaw (fun days => (Date.ofSlot days).map .date) .rawDate days := by
  have same : Word.wrap .i32 days.val = days := Word.ext (Word.wrap_val_of_holds days.holds)
  unfold dayValue
  cases hd : Date.ofDay? days.val with
  | some date => simp only [Reader.orRaw, ofSlot_day hd, Except.map]
  | none =>
    obtain ⟨fault, hf⟩ := ofSlot_off_calendar hd
    simp only [Reader.orRaw, hf, Except.map, same]

theorem dayValue_present (day : Int) : (dayValue day).isNull = false := by
  unfold dayValue
  split <;> rfl

theorem dayValue_slotHolds (days : Word .i32) :
    SlotHolds (scalar .date) days.toBytes (dayValue days.val) where
  present := dayValue_present days.val
  written := by rw [dayValue_eq, slotOf_date]
  read := date_wordSlots.hasSlot_of_word (by rw [dayValue_eq])

/-- A time of day is what is read from the slot of its microseconds. -/
theorem timeValue_eq {micros : Word .i64} {nanos : Int} (h : micros.val = nanos / 1000)
    (inside : 0 ≤ micros.val) : timeValue nanos =
      Reader.orRaw (fun micros => (ClockTime.ofSlot micros).map .time) .rawTime micros := by
  have same : Word.wrap .i64 (nanos / 1000) = micros := by
    rw [← h]
    exact Word.ext (Word.wrap_val_of_holds micros.holds)
  have count : (nanos / 1000 * 1000).toNat = micros.val.toNat * 1000 := by omega
  unfold timeValue Reader.orRaw ClockTime.ofNanos? ClockTime.ofSlot
  by_cases early : micros.val < 86400000000
  · simp only [count, dif_pos (show micros.val.toNat * 1000 < 86400000000000 by omega),
      dif_pos (And.intro inside early), Except.map]
  · simp only [count, dif_neg (show ¬ micros.val.toNat * 1000 < 86400000000000 by omega),
      dif_neg (show ¬ (0 ≤ micros.val ∧ micros.val < 86400000000) from fun h => early h.2), Except.map,
      same]

theorem timeValue_present (nanos : Int) : (timeValue nanos).isNull = false := by
  unfold timeValue
  split <;> rfl

theorem timeValue_slotHolds {micros : Word .i64} {nanos : Int} (h : micros.val = nanos / 1000)
    (inside : 0 ≤ micros.val) : SlotHolds (scalar .time) micros.toBytes (timeValue nanos) where
  present := timeValue_present nanos
  written := by rw [timeValue_eq h inside, slotOf_time]
  read := time_wordSlots.hasSlot_of_word (by rw [timeValue_eq h inside])

/-- A time of day up to 24:00:00 is stored in microseconds. -/
theorem timeMicros_stored {unit : TimeUnit} {raw : Int}
    (inside : 0 ≤ raw * unit.nanoseconds ∧ raw * unit.nanoseconds ≤ 86400000000000) :
    StoredAs (scalar .time) (timeMicros unit raw) (timeValue (raw * unit.nanoseconds)) := by
  have kept : max IntKind.i64.min (min IntKind.i64.max (raw * unit.nanoseconds)) =
      raw * unit.nanoseconds := by
    simp only [IntKind.min, IntKind.max]
    omega
  have holds : IntKind.i64.Holds (raw * unit.nanoseconds / 1000) := by
    simp only [IntKind.Holds, IntKind.min, IntKind.max]
    omega
  have word : Word.wrap .i64 (raw * unit.nanoseconds / 1000) = ⟨_, holds⟩ :=
    Word.ext (Word.wrap_val_of_holds holds)
  have value : timeMicros unit raw = .rawTime ⟨_, holds⟩ := by
    simp only [timeMicros, kept]
    rw [Int.tdiv_eq_ediv_of_nonneg inside.1, word]
  let micros : Word .i64 := ⟨_, holds⟩
  have slot : SlotHolds (scalar .time) micros.toBytes (timeValue (raw * unit.nanoseconds)) :=
    timeValue_slotHolds rfl (Int.ediv_nonneg inside.1 (by decide))
  rw [value]
  exact slot.stored rfl rfl rfl rfl

/-- The instants of the calendar have a value, with a zone or without. -/
theorem instantValue_present (zone : Option String) {nanos : Int}
    (calendar : (DateTime.ofNanos? nanos).isSome) : (instantValue zone nanos).isNull = false := by
  cases zone with
  | none =>
    obtain ⟨clock, hc⟩ := Option.isSome_iff_exists.mp calendar
    rw [instantValue, hc]
    rfl
  | some _ =>
    obtain ⟨clock, hc⟩ := Option.isSome_iff_exists.mp (DateTime.floored_isSome calendar)
    rw [instantValue, hc]
    rfl

theorem timestamp_slotHolds {unit : TimestampUnit} {raw : Word .i64} {clock : DateTime}
    (finite : Timestamp.slotFinite raw)
    (calendar : DateTime.ofNanos? (raw.val * unit.nanoseconds) = some clock) :
    SlotHolds (scalar (.timestamp unit)) raw.toBytes
      (if unit = .zoned then .timestampTz (.utc clock) else .timestamp clock) := by
  have found : timestampValue unit raw =
      .ok (if unit = .zoned then .timestampTz (.utc clock) else .timestamp clock) := by
    unfold timestampValue Timestamp.clockOfSlot Timestamp.step
    simp only [finite, calendar, Bool.not_true, Bool.false_eq_true, if_false]
  refine ⟨?_, timestampSlot_value found, (timestamp_wordSlots unit).hasSlot_of_word found⟩
  split <;> rfl

/-- The clock of an instant is what is read from the slot of its timestamp. -/
theorem naive_slotHolds {unit : TimeUnit} {raw : Word .i64} (finite : Timestamp.slotFinite raw)
    (calendar : (DateTime.ofNanos? (raw.val * unit.nanoseconds)).isSome) :
    SlotHolds (scalar (DataType.timestampKind unit none)) raw.toBytes
      (instantValue none (raw.val * unit.nanoseconds)) := by
  obtain ⟨clock, hc⟩ := Option.isSome_iff_exists.mp calendar
  have value : instantValue none (raw.val * unit.nanoseconds) = .timestamp clock := by
    rw [instantValue, hc]
    rfl
  rw [value]
  cases unit <;> exact timestamp_slotHolds finite hc

theorem counted_of_calendar {unit : TimeUnit} {raw : Word .i64}
    (calendar : (DateTime.ofNanos? (raw.val * unit.nanoseconds)).isSome) : Counted unit raw := by
  rw [DateTime.ofNanos?_isSome] at calendar
  simp only [Counted, IntKind.Holds, IntKind.min, IntKind.max]
  omega

/-- An instant is stored as its clock. -/
theorem naive_stored {unit : TimeUnit} {raw : Word .i64} (finite : Timestamp.slotFinite raw)
    (calendar : (DateTime.ofNanos? (raw.val * unit.nanoseconds)).isSome) :
    ∃ v, instantOf unit raw = .ok v ∧ StoredAs (scalar (DataType.timestampKind unit none)) v
      (instantValue none (raw.val * unit.nanoseconds)) := by
  obtain ⟨v, hv, present, written⟩ := instantOf_counted (counted_of_calendar calendar)
  refine ⟨v, hv, (naive_slotHolds finite calendar).stored ?_ ?_ present written⟩ <;>
    cases unit <;> rfl

/-- With a zone, an instant is stored in whole microseconds. -/
theorem zoned_stored {unit : TimeUnit} {raw : Word .i64} (zone : String)
    (calendar : (DateTime.ofNanos? (raw.val * unit.nanoseconds)).isSome) :
    ∃ v, instantOf unit raw = .ok v ∧ StoredAs (scalar (.timestamp .zoned)) v
      (instantValue (some zone) (raw.val * unit.nanoseconds)) := by
  obtain ⟨clock, hc⟩ := Option.isSome_iff_exists.mp calendar
  have inside := DateTime.ofNanos?_isSome.mp calendar
  obtain ⟨floored, hf⟩ := Option.isSome_iff_exists.mp (DateTime.floored_isSome calendar)
  let micros : Word .i64 := ⟨_, counted_of_calendar calendar⟩
  have finite : Timestamp.slotFinite micros = true := by
    simp only [Timestamp.slotFinite, Bool.and_eq_true, bne_iff_ne, ne_eq, micros]
    omega
  have slot : SlotHolds (scalar (.timestamp .zoned)) micros.toBytes (.timestampTz (.utc floored)) :=
    timestamp_slotHolds finite hf
  have value : instantValue (some zone) (raw.val * unit.nanoseconds) =
      .timestampTz (.utc floored) := by
    rw [instantValue, hf]
    rfl
  refine ⟨.timestampTz (.utc clock), by simp only [instantOf, hc], ?_⟩
  rw [value]
  refine slot.stored rfl rfl rfl ?_
  have nanos := DateTime.ofNanos?_eq_some.mp hc
  simp only [slotOf, timestampSlot, OffsetDateTime.instant_utc, nanos, TimestampUnit.nanoseconds]
  exact intSlot_val _ micros _

theorem decimalValue_eq (n : Word .i128) (scale : Nat) : decimalValue n scale = numberOf n scale := by
  simp only [decimalValue, numberOf, Reader.orRaw, ScaledInt.toDecimal]
  cases Decimal.ofScaled n.val scale <;> rfl

theorem decimalValue_present (n : Word .i128) (scale : Nat) :
    (decimalValue n scale).isNull = false := by
  unfold decimalValue
  split <;> rfl

theorem decimal_stored {width scale : Nat} (valid : (decimal width scale).check = .ok ())
    (small : width ≤ 38) {n : Word .i128} (h : n.val.natAbs < 10 ^ width) :
    StoredAs (decimal width scale) (.scaledInt ⟨n, scale⟩) (decimalValue n scale) := by
  let w : Word (decimalStorage width) := ⟨n.val, decimalStorage_holds small h⟩
  have wide : w.widen .i128 = n := Word.ext (widen_decimal w)
  have value : decimalValue n scale = numberOf (w.widen .i128) scale := by
    rw [decimalValue_eq, wide]
  have slot : SlotHolds (decimal width scale) w.toBytes (decimalValue n scale) :=
    ⟨decimalValue_present n scale, by rw [value, slotOf_decimal],
      (decimal_wordSlots valid).hasSlot_of_word (by rw [value])⟩
  refine slot.stored valid rfl rfl ?_
  have mantissa : (decimal width scale).mantissaOf scale (.scaledInt ⟨n, scale⟩) = .ok n.val :=
    if_pos rfl
  show (do (decimal width scale).intSlot _ (← (decimal width scale).mantissaOf scale _) _) = _
  rw [mantissa, Result.ok_bind]
  exact intSlot_val _ w _

end TypedColumns.Arrow.PhysicalArray
