import TypedColumns.Proofs.RowReads
import TypedColumns.Proofs.SlotRoundTrip

/-!
Intervals read as durations. Days have a fixed length and months have none, so an interval without
months is an exact number of microseconds. It is read as that number wherever a signed 64-bit count
holds it, as long as such a count holds the days alone.
-/
namespace TypedColumns

/-- The duration is `n` microseconds, in seconds and nanoseconds of one sign. -/
structure Duration.IsMicros (d : Duration) (n : Int) : Prop where
  exact : d.wholeSeconds * 1000000000 + d.subsecond = n * 1000
  below_second : |d.subsecond| < 1000000000
  one_sign : (0 ≤ d.wholeSeconds ∧ 0 ≤ d.subsecond) ∨ (d.wholeSeconds ≤ 0 ∧ d.subsecond ≤ 0)

namespace Duration

/-- Division toward zero splits whole microseconds into parts of one sign. -/
theorem isMicros_of_nanos {d : Duration} {n : Int} (whole : d.nanos = n * 1000) : d.IsMicros n := by
  have above := Int.tmod_lt_of_pos d.nanos (show (0 : Int) < 1000000000 by decide)
  have below := Int.lt_tmod_of_pos d.nanos (show (0 : Int) < 1000000000 by decide)
  refine ⟨?_, abs_lt.mpr ⟨below, above⟩, ?_⟩
  · rw [wholeSeconds, subsecond, Int.tdiv_mul_add_tmod, whole]
  · rcases Int.le_total 0 d.nanos with nonneg | nonpos
    · exact .inl ⟨Int.tdiv_nonneg nonneg (by decide), Int.tmod_nonneg _ nonneg⟩
    · -- The parts of a negative count are those of its magnitude, negated.
      have magnitude : 0 ≤ -d.nanos := Int.neg_nonneg_of_nonpos nonpos
      have seconds := Int.tdiv_nonneg magnitude (show (0 : Int) ≤ 1000000000 by decide)
      have rest := Int.tmod_nonneg 1000000000 magnitude
      rw [Int.neg_tdiv] at seconds
      rw [Int.neg_tmod] at rest
      exact .inr ⟨Int.neg_nonneg.mp seconds, Int.neg_nonneg.mp rest⟩

/-- Seconds rounded down and the microseconds that are left of them make up the whole. -/
theorem ofParts_isMicros (n : Int) :
    (ofParts (n / 1000000) (n % 1000000 * 1000)).IsMicros n := by
  refine isMicros_of_nanos ?_
  simp only [ofParts]
  omega

end Duration

namespace Interval

variable (i : Interval)

/-- The microseconds of the days and of the time beside them. -/
def totalMicros : Int := i.days.val * 86400000000 + i.micros.val

/-- A signed 64-bit count holds the microseconds of the days alone. -/
def DaysFit : Prop := IntKind.i64.Holds (i.days.val * 86400000000)

/-- The interval has a fixed length, and a signed 64-bit count of microseconds holds it. -/
def HasLength : Prop := i.months.val = 0 ∧ IntKind.i64.Holds i.totalMicros

instance : Decidable i.DaysFit := inferInstanceAs (Decidable (_ ∧ _))

instance : Decidable i.HasLength := inferInstanceAs (Decidable (_ ∧ _))

/-- What a row that holds the interval gives where it is read as a duration. -/
def ReadsDuration (answer : Result Duration) : Prop :=
  ∀ (view : ColumnView) (row : Nat), view.column.type = .scalar .interval →
    view.isValid row = .ok true → view.intervalAt row = .ok i → view.RowReads row .duration answer

theorem toDuration_of_length (days : i.DaysFit) (length : i.HasLength) :
    ∃ d, i.toDuration = .ok d ∧ d.IsMicros i.totalMicros := by
  refine ⟨_, ?_, Duration.ofParts_isMicros i.totalMicros⟩
  unfold toDuration
  rw [if_neg (not_not.mpr length.1), if_pos ⟨days, length.2⟩]
  rfl

/-- What is wrong with an interval that is no duration. -/
def fault : Fault := if i.months.val = 0 then .overflow else .months i.months.val

theorem toDuration_of_no_length (h : ¬(i.DaysFit ∧ i.HasLength)) :
    i.toDuration = .error i.fault := by
  unfold toDuration fault
  by_cases months : i.months.val = 0
  · rw [if_neg (not_not.mpr months), if_pos months, if_neg fun fits => h ⟨fits.1, months, fits.2⟩]
  · rw [if_pos months, if_neg months]

theorem readsDuration {answer : Except Fault Duration} (h : i.toDuration = answer) :
    i.ReadsDuration (answer.mapError fun fault => .domain (.interval fault)) := by
  intro view row type valid stored
  refine view.rowReads_typed rfl (by rw [type]; rfl) (by rw [type]; rfl) valid ?_
  rw [Reader.duration, stored, ← h]
  rfl

/-- The interval is refused as a duration, by itself and in a row. -/
def Refused : Prop :=
  i.toDuration = .error i.fault ∧ i.ReadsDuration (.error (.domain (.interval i.fault)))

theorem refused_of_no_length (h : ¬(i.DaysFit ∧ i.HasLength)) : i.Refused := by
  have refused := i.toDuration_of_no_length h
  exact ⟨refused, i.readsDuration refused⟩

end Interval

namespace NativeVector

open LogicalType

variable {rows : List Value} {row : Nat} {i : Interval}

theorem takes_intervals (room : rows.length * 16 < sizeModulus)
    (each : ∀ v ∈ rows, v = .null ∨ ∃ i, v = .interval i) :
    ∃ n, ofValues (.scalar .interval) rows = .ok n := by
  have width : (scalar .interval).storage.slotWidth? = some 16 := rfl
  refine (ofValues_iff rfl rfl width room).mpr fun v hv there => ?_
  rcases each v hv with rfl | ⟨i, rfl⟩
  · contradiction
  · exact ⟨_, rfl⟩

/-- The row of a written interval is read as a duration as the interval is. -/
theorem reads_duration {n : NativeVector} (taken : ofValues (.scalar .interval) rows = .ok n)
    (hrow : row < rows.length) (written : rows[row] = .interval i) {answer : Result Duration}
    (reads : i.ReadsDuration answer) : n.RowReads row .duration answer := by
  have slot : (scalar .interval).slotOf rows[row] =
      .ok (i.months.toBytes ++ i.days.toBytes ++ i.micros.toBytes) := by rw [written]; rfl
  have stored := hasBytes_of_ofValues rfl taken hrow (by rw [written]; rfl) slot
  refine stored.rowReads fun view type native valid => reads view row type valid ?_
  have found := stored.slot
  simp only [List.length_append, Word.toBytes_length, IntKind.bytes] at found
  rw [ColumnView.intervalAt, native, found]
  exact congrArg Except.ok (intervalOf_bytes i)

end NativeVector

namespace Interval

/-- Where a 64-bit count holds the days alone, an interval is a duration exactly if it has a length,
and the duration is that length. Other intervals are refused, even those whose time beside the days
would bring the length back into a 64-bit count. -/
theorem durations_exact (i : Interval) :
    (i.DaysFit →
      (i.HasLength → ∃ d, i.toDuration = .ok d ∧ d.IsMicros i.totalMicros ∧
        i.ReadsDuration (.ok d)) ∧
      (¬i.HasLength → i.Refused)) ∧
    (¬i.DaysFit → i.Refused) := by
  refine ⟨fun days => ⟨fun length => ?_, fun lacking => ?_⟩, fun far => ?_⟩
  · obtain ⟨d, taken, exact⟩ := i.toDuration_of_length days length
    exact ⟨d, taken, exact, i.readsDuration taken⟩
  · exact i.refused_of_no_length fun fits => lacking fits.2
  · exact i.refused_of_no_length fun fits => far fits.1

/-- The longest duration, in a row. -/
theorem durations_exact_longest :
    let i : Interval := ⟨0, .wrap .i32 106751991, .wrap .i64 14454775807⟩
    ∃ n d, NativeVector.ofValues (.scalar .interval) [.null, .interval i] = .ok n ∧
      d.IsMicros 9223372036854775807 ∧ n.RowReads 1 .duration (.ok d) := by
  intro i
  have each : ∀ v ∈ [Value.null, .interval i], v = .null ∨ ∃ i, v = .interval i := by simp
  obtain ⟨n, taken⟩ := NativeVector.takes_intervals (by decide) each
  obtain ⟨d, -, exact, reads⟩ := ((durations_exact i).1 (by decide)).1 (by decide)
  exact ⟨n, d, taken, exact, NativeVector.reads_duration taken (by decide) rfl reads⟩

/-- One more day than a 64-bit count holds, less a day, is refused as an overflow, although what is
left of it has a length. -/
theorem durations_not_exact :
    let i : Interval := ⟨0, .wrap .i32 106751992, .wrap .i64 (-86400000000)⟩
    i.HasLength ∧ i.toDuration = .error .overflow ∧
      ∃ n, NativeVector.ofValues (.scalar .interval) [.interval i] = .ok n ∧
        n.RowReads 0 .duration (.error (.domain (.interval .overflow))) := by
  intro i
  have refused : i.toDuration = .error .overflow := by decide
  have each : ∀ v ∈ [Value.interval i], v = .null ∨ ∃ i, v = .interval i := by simp
  obtain ⟨n, taken⟩ := NativeVector.takes_intervals (by decide) each
  have reads := i.readsDuration refused
  exact ⟨by decide, refused, n, taken, NativeVector.reads_duration taken (by decide) rfl reads⟩

end Interval
end TypedColumns
