import TypedColumns.Proofs.RowReads
import TypedColumns.Proofs.SlotRoundTrip

/-!
The readings of a timestamp slot: microseconds, and the clock at its instant in UTC. The clock keeps
what the slot has, microseconds are rounded down, and where there is a clock there are microseconds
of the same instant.
-/
namespace TypedColumns

namespace DateTime

/-- The nanoseconds from the start of -9999-01-01 to the end of 9999-12-31. -/
def OnCalendar (nanos : Int) : Prop :=
  Civil.dayNumber ⟨-9999, 1, 1⟩ * 86400000000000 ≤ nanos ∧
    nanos < (Civil.dayNumber ⟨9999, 12, 31⟩ + 1) * 86400000000000

variable {nanos : Int}

instance : Decidable (OnCalendar nanos) := inferInstanceAs (Decidable (_ ∧ _))

theorem onCalendar_iff : OnCalendar nanos ↔ ∃ clock, ofNanos? nanos = some clock := by
  have first : Civil.dayNumber ⟨-9999, 1, 1⟩ = -4371587 := by decide
  have last : Civil.dayNumber ⟨9999, 12, 31⟩ = 2932896 := by decide
  rw [← Option.isSome_iff_exists, ofNanos?_isSome, OnCalendar, first, last]
  omega

/-- Every instant of the calendar can be counted in microseconds. -/
theorem OnCalendar.micros (h : OnCalendar nanos) : IntKind.i64.Holds (nanos / 1000) := by
  have first : Civil.dayNumber ⟨-9999, 1, 1⟩ = -4371587 := by decide
  have last : Civil.dayNumber ⟨9999, 12, 31⟩ = 2932896 := by decide
  rw [OnCalendar, first, last] at h
  simp only [IntKind.Holds, IntKind.min, IntKind.max]
  omega

theorem OnCalendar.floored (h : OnCalendar nanos) : OnCalendar (nanos / 1000 * 1000) := by
  rw [onCalendar_iff, ← Option.isSome_iff_exists] at h ⊢
  exact floored_isSome h

end DateTime

namespace Timestamp

variable {unit : TimestampUnit} {raw : Word .i64}

/-- A finite slot whose microseconds do not fit in 64 bits. -/
def Overflows (unit : TimestampUnit) (raw : Word .i64) : Prop :=
  slotFinite raw ∧ ¬IntKind.i64.Holds (raw.val * unit.nanoseconds / 1000)

theorem microsOfSlot_of_overflows (h : Overflows unit raw) : microsOfSlot (.timestamp unit) raw =
    .error (.microsOverflow (.timestamp unit) raw.val) := by
  obtain ⟨finite, large⟩ := h
  unfold microsOfSlot
  simp only [finite, Word.ofInt?, dif_neg large]
  rfl

theorem microsOfSlot_of_fits (h : ¬Overflows unit raw) :
    ∃ micros, microsOfSlot (.timestamp unit) raw = .ok micros := by
  cases finite : slotFinite raw with
  | false => exact ⟨raw, microsOfSlot_infinite finite _⟩
  | true =>
    have fits : IntKind.i64.Holds (raw.val * unit.nanoseconds / 1000) :=
      not_not.mp fun large => h ⟨finite, large⟩
    exact ⟨⟨_, fits⟩, (microsOfSlot_iff finite).mpr rfl⟩

/-- No slot becomes an infinity when it is counted in microseconds. -/
theorem microsOfSlot_stays_finite (finite : slotFinite raw) {micros : Word .i64}
    (h : microsOfSlot (.timestamp unit) raw = .ok micros) : slotFinite micros := by
  have counted := (microsOfSlot_iff finite).mp h
  by_cases coarse : unit = .nanos
  · subst coarse
    obtain ⟨n, lower, upper⟩ := raw
    simp only [IntKind.min, IntKind.max] at lower upper
    simp only [TimestampUnit.nanoseconds] at counted
    simp only [slotFinite, Bool.and_eq_true, bne_iff_ne, ne_eq]
    omega
  · exact (LogicalType.finite_micros coarse finite counted).1

theorem clockOfSlot_iff : (∃ clock, clockOfSlot (.timestamp unit) raw = .ok clock) ↔
    slotFinite raw ∧ DateTime.OnCalendar (raw.val * unit.nanoseconds) := by
  simp only [clockOfSlot_eq_ok, exists_and_left, DateTime.onCalendar_iff, DateTime.ofNanos?_eq_some]

end Timestamp

namespace NativeVector.HasWord

variable {n : NativeVector} {row : Nat} {unit : TimestampUnit} {raw : Word .i64}

open LogicalType

theorem reads_micros (h : n.HasWord (.scalar (.timestamp unit)) row raw) :
    n.RowReads row .rawTimestamp
      (Reader.temporal (Timestamp.microsOfSlot (.timestamp unit) raw)) := by
  refine h.reads_typed rfl rfl rfl fun view hc word => ?_
  have kind : view.kind = .timestamp unit := congrArg LogicalType.kind hc
  rw [Reader.timestampMicros, word, kind, Result.ok_bind]

theorem reads_instant (h : n.HasWord (.scalar (.timestamp unit)) row raw) :
    n.RowReads row .offsetDateTime
      ((Reader.temporal (Timestamp.clockOfSlot (.timestamp unit) raw)).map .utc) := by
  refine h.reads_typed rfl rfl rfl fun view hc word => ?_
  have kind : view.kind = .timestamp unit := congrArg LogicalType.kind hc
  rw [Reader.map, Reader.clock, word, kind, Result.ok_bind]
  cases Reader.temporal (Timestamp.clockOfSlot (.timestamp unit) raw) <;> rfl

end NativeVector.HasWord

namespace Timestamp

end Timestamp
end TypedColumns
