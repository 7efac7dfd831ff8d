import TypedColumns.Proofs.Bytes
import TypedColumns.Reader.Leaf

/-!
Values of the calendar, decimals and UUIDs keep the slot that they come from: what is read from a
slot is written back as the same slot.
-/
namespace TypedColumns

theorem Date.toSlot_of_ofSlot {days : Word .i32} {date : Date} (h : Date.ofSlot days = .ok date) :
    date.toSlot = days := by
  unfold Date.ofSlot Date.ofDay? at h
  apply Word.ext
  split_ifs at h with infinite overflow inside
  · cases h
    rfl

theorem ClockTime.toSlot_of_ofSlot {micros : Word .i64} {t : ClockTime}
    (h : ClockTime.ofSlot micros = .ok t) : t.toSlot = micros := by
  unfold ClockTime.ofSlot at h
  split_ifs at h with inside
  cases h
  apply Word.ext
  simp only [toSlot]
  omega

theorem TimeTz.toBits_ofBits (bits : Word .u64) : (TimeTz.ofBits bits).toBits = bits := by
  obtain ⟨n, lower, upper⟩ := bits
  simp only [IntKind.min, IntKind.max] at lower upper
  have micros : (Word.wrap .i64 (n / 0x1000000)).val = n / 0x1000000 := by
    apply Word.wrap_val_of_holds
    simp only [IntKind.Holds, IntKind.min, IntKind.max]
    omega
  have offset : (Word.wrap .i32 (maxOffset - n % 0x1000000)).val = maxOffset - n % 0x1000000 := by
    apply Word.wrap_val_of_holds
    simp only [IntKind.Holds, IntKind.min, IntKind.max, maxOffset]
    omega
  have packed : n / 0x1000000 * 0x1000000 +
      (maxOffset - (maxOffset - n % 0x1000000)) % 0x1000000 = n := by
    omega
  apply Word.ext
  simp only [toBits, ofBits, micros, offset, packed]
  exact Word.wrap_val_of_holds ⟨lower, upper⟩

/-- The offset of a slot can be counted, so that it is written as that slot. -/
theorem TimeTz.toBits?_ofBits (bits : Word .u64) : (TimeTz.ofBits bits).toBits? = some bits := by
  have counted : (TimeTz.ofBits bits).Counted := by
    have offset : (TimeTz.ofBits bits).offset.val = maxOffset - bits.val % 0x1000000 := by
      apply Word.wrap_val_of_holds
      simp only [IntKind.Holds, IntKind.min, IntKind.max, maxOffset]
      omega
    simp only [Counted, offset, IntKind.Holds, IntKind.min, IntKind.max]
    omega
  rw [toBits?, if_pos counted, toBits_ofBits]

theorem Uuid.toSlot_ofSlot (slot : Word .i128) : (Uuid.ofSlot slot).toSlot = slot := by
  obtain ⟨n, lower, upper⟩ := slot
  simp only [IntKind.min, IntKind.max] at lower upper
  have number : (Word.wrap .u128 (n + topBit)).val = n + topBit := by
    apply Word.wrap_val_of_holds
    simp only [IntKind.Holds, IntKind.min, IntKind.max, topBit]
    omega
  apply Word.ext
  simp only [toSlot, ofSlot, number, Int.add_sub_cancel]
  exact Word.wrap_val_of_holds ⟨lower, upper⟩

theorem DateTime.ofNanos?_eq_some {nanos : Int} {clock : DateTime} :
    DateTime.ofNanos? nanos = some clock ↔ clock.nanos = nanos := by
  constructor
  · intro h
    unfold DateTime.ofNanos? at h
    obtain ⟨date, hd, rfl⟩ := Option.map_eq_some_iff.mp h
    unfold Date.ofDay? at hd
    split_ifs at hd
    cases hd
    simp only [DateTime.nanos]
    omega
  · rintro rfl
    exact DateTime.ofNanos?_nanos clock

/-- The instants of the calendar are those whose days it has. -/
theorem DateTime.ofNanos?_isSome {nanos : Int} : (DateTime.ofNanos? nanos).isSome ↔
    -4371587 ≤ nanos / 86400000000000 ∧ nanos / 86400000000000 ≤ 2932896 := by
  unfold DateTime.ofNanos? Date.ofDay?
  split_ifs with inside <;> simp [inside]

theorem DateTime.floored_isSome {nanos : Int} (calendar : (DateTime.ofNanos? nanos).isSome) :
    (DateTime.ofNanos? (nanos / 1000 * 1000)).isSome := by
  rw [ofNanos?_isSome] at calendar ⊢
  omega

theorem OffsetDateTime.instant_utc (t : DateTime) : (OffsetDateTime.utc t).instant = t.nanos := by
  simp [instant, utc, UtcOffset.utc]

theorem Decimal.rescaled_self (d : Decimal) : d.rescaled d.scale = d.mantissa := by
  unfold rescaled
  simp only [Nat.le_refl, if_true, Nat.sub_self, raise]
  split <;> omega

theorem Decimal.ofScaled_ok {mantissa : Int} {scale : Nat} {d : Decimal}
    (h : Decimal.ofScaled mantissa scale = .ok d) : d.mantissa = mantissa ∧ d.scale = scale := by
  unfold ofScaled at h
  split_ifs at h
  cases h
  exact ⟨rfl, rfl⟩

namespace Timestamp

variable {unit : TimestampUnit} {raw : Word .i64}

theorem clockOfSlot_eq_ok {clock : DateTime} : clockOfSlot (.timestamp unit) raw = .ok clock ↔
    slotFinite raw ∧ clock.nanos = raw.val * unit.nanoseconds := by
  unfold clockOfSlot
  rw [← DateTime.ofNanos?_eq_some]
  cases slotFinite raw with
  | false => simp
  | true =>
    simp only [step, Bool.not_true, Bool.false_eq_true, if_false, true_and]
    cases DateTime.ofNanos? (raw.val * unit.nanoseconds) <;> simp

theorem microsOfSlot_infinite (infinite : slotFinite raw = false) (kind : Kind) :
    microsOfSlot kind raw = .ok raw := by
  unfold microsOfSlot
  rw [infinite]
  rfl

/-- The microseconds of a slot that is no infinity are rounded down. -/
theorem microsOfSlot_iff (finite : slotFinite raw) {micros : Word .i64} :
    microsOfSlot (.timestamp unit) raw = .ok micros ↔
      micros.val = raw.val * unit.nanoseconds / 1000 := by
  unfold microsOfSlot
  simp only [finite, Bool.not_true, Bool.false_eq_true, if_false]
  constructor
  · intro h
    split at h
    · next found =>
      cases h
      unfold Word.ofInt? at found
      split_ifs at found
      cases found
      rfl
    · contradiction
  · intro h
    rw [← h, Word.ofInt?_val]

/-- Every slot of nanoseconds that is no infinity is on the calendar. -/
theorem clockOfSlot_nanos (h : slotFinite raw) :
    ∃ clock, clockOfSlot (.timestamp .nanos) raw = .ok clock := by
  obtain ⟨n, lower, upper⟩ := raw
  simp only [IntKind.min, IntKind.max] at lower upper
  have inside : -4371587 ≤ n * 1 / 86400000000000 ∧ n * 1 / 86400000000000 ≤ 2932896 := by
    omega
  obtain ⟨clock, found⟩ : ∃ clock, DateTime.ofNanos? (n * 1) = some clock :=
    ⟨_, by rw [DateTime.ofNanos?, Date.ofDay?, dif_pos inside]; rfl⟩
  refine ⟨clock, ?_⟩
  unfold clockOfSlot
  rw [h]
  simp only [step, TimestampUnit.nanoseconds, found]
  rfl

end Timestamp
end TypedColumns
