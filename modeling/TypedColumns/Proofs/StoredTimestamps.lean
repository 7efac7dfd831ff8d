import TypedColumns.Proofs.TimestampReadings

/-!
Timestamps in the columns of the five kinds. A slot counts whole units since the epoch, rounded
down, and what is read of it is what was written without the part below a unit. Infinities are slots
of their own.
-/
namespace TypedColumns

namespace Value

def isTimestamp : Value → Bool
  | timestamp _ | timestampTz _ | rawTimestamp _ => true
  | _ => false

/-- Nanoseconds since the epoch at which a finite timestamp stands. -/
def instant? : Value → Option Int
  | timestamp t => some t.nanos
  | timestampTz t => some t.instant
  | rawTimestamp micros => if Timestamp.slotFinite micros then some (micros.val * 1000) else none
  | _ => none

theorem infinite_of_instant? {v : Value} (stamp : v.isTimestamp) (h : v.instant? = none) :
    ∃ micros, v = .rawTimestamp micros ∧ Timestamp.slotFinite micros = false := by
  cases v with
  | rawTimestamp micros => exact ⟨micros, rfl, by simpa [instant?] using h⟩
  | timestamp _ | timestampTz _ => cases h
  | _ => cases stamp

end Value

/-- Clocks are far from the instants that 64 bits of microseconds end with. -/
theorem DateTime.nanos_bounds (t : DateTime) :
    -400000000000000000000 < t.nanos ∧ t.nanos < 300000000000000000000 := by
  obtain ⟨⟨day, first, last⟩, ⟨n, small⟩⟩ := t
  simp only [nanos]
  omega

theorem OffsetDateTime.instant_bounds (t : OffsetDateTime) :
    -500000000000000000000 < t.instant ∧ t.instant < 400000000000000000000 := by
  have clock := t.clock.nanos_bounds
  have offset := t.offset.inRange
  simp only [instant]
  omega

/-- The microseconds of a finite timestamp fit in 64 bits and are not those of an infinity. -/
theorem Value.micros_of_instant? {v : Value} {nanos : Int} (h : v.instant? = some nanos) :
    ∃ micros : Word .i64, micros.val = nanos / 1000 ∧ Timestamp.slotFinite micros := by
  have counted (fits : IntKind.i64.Holds (nanos / 1000))
      (apart : nanos / 1000 ≠ 9223372036854775807 ∧ nanos / 1000 ≠ -9223372036854775807) :
      ∃ micros : Word .i64, micros.val = nanos / 1000 ∧ Timestamp.slotFinite micros :=
    ⟨⟨_, fits⟩, rfl, by simpa [Timestamp.slotFinite] using apart⟩
  cases v with
  | timestamp t =>
    cases h
    have bounds := t.nanos_bounds
    apply counted
    · simp only [IntKind.Holds, IntKind.min, IntKind.max]
      omega
    · omega
  | timestampTz t =>
    cases h
    have bounds := t.instant_bounds
    apply counted
    · simp only [IntKind.Holds, IntKind.min, IntKind.max]
      omega
    · omega
  | rawTimestamp micros =>
    simp only [Value.instant?] at h
    split_ifs at h with finite
    cases h
    exact ⟨micros, (Int.mul_ediv_cancel _ (by decide)).symm, finite⟩
  | _ => cases h

namespace LogicalType

variable (unit : TimestampUnit) {v : Value} {nanos : Int}

theorem slotOf_timestamp (v : Value) : (scalar (.timestamp unit)).slotOf v =
    (scalar (.timestamp unit)).timestampSlot unit v := by
  cases v <;> rfl

/-- The slot of a finite timestamp is its instant in whole units. -/
theorem slotOf_instant (h : v.instant? = some nanos) : (scalar (.timestamp unit)).slotOf v =
    (scalar (.timestamp unit)).intSlot .i64 (nanos / unit.nanoseconds) v := by
  rw [slotOf_timestamp]
  cases v with
  | timestamp t | timestampTz t =>
    cases h
    rfl
  | rawTimestamp micros =>
    simp only [Value.instant?] at h
    split_ifs at h with finite
    cases h
    simp only [timestampSlot, finite, if_true]
  | _ => cases h

theorem slotOf_units (h : v.instant? = some nanos) {raw : Word .i64}
    (units : nanos / unit.nanoseconds = raw.val) :
    (scalar (.timestamp unit)).slotOf v = .ok raw.toBytes := by
  rw [slotOf_instant unit h, units, intSlot_val]

theorem slotOf_infinite {micros : Word .i64} (infinite : Timestamp.slotFinite micros = false) :
    (scalar (.timestamp unit)).slotOf (.rawTimestamp micros) = .ok micros.toBytes := by
  rw [slotOf_timestamp]
  simp only [timestampSlot, infinite]
  rfl

/-- A timestamp has a slot if its whole units fit one; infinities always have. -/
theorem slotOf_timestamp_iff (stamp : v.isTimestamp) :
    (∃ slot, (scalar (.timestamp unit)).slotOf v = .ok slot) ↔
      ∀ nanos, v.instant? = some nanos → IntKind.i64.Holds (nanos / unit.nanoseconds) := by
  cases finite : v.instant? with
  | none =>
    obtain ⟨micros, rfl, infinite⟩ := Value.infinite_of_instant? stamp finite
    exact ⟨fun _ => nofun, fun _ => ⟨_, slotOf_infinite unit infinite⟩⟩
  | some nanos =>
    rw [slotOf_instant unit finite]
    constructor
    · rintro ⟨slot, hs⟩ _ ⟨⟩
      obtain ⟨w, hw, -⟩ := intSlot_eq_ok hs
      exact hw ▸ w.holds
    · intro fits
      exact ⟨_, intSlot_val _ ⟨_, fits nanos rfl⟩ v⟩

/-- Only nanoseconds can be as many as those of an infinity. -/
theorem units_apart (h : v.instant? = some nanos)
    (apart : unit = .nanos → nanos ≠ 9223372036854775807 ∧ nanos ≠ -9223372036854775807) :
    nanos / unit.nanoseconds ≠ 9223372036854775807 ∧
      nanos / unit.nanoseconds ≠ -9223372036854775807 := by
  obtain ⟨⟨micros, lower, upper⟩, value, finite⟩ := Value.micros_of_instant? h
  simp only [IntKind.min, IntKind.max] at lower upper value
  simp only [Timestamp.slotFinite, Bool.and_eq_true, bne_iff_ne, ne_eq] at finite
  cases unit with
  | nanos =>
    rw [TimestampUnit.nanoseconds, Int.ediv_one]
    exact apart rfl
  | _ =>
    -- Microseconds are those of the value itself, and coarser units are far fewer.
    simp only [TimestampUnit.nanoseconds]
    omega

/-- Whole units that do not fit in 64 bits of microseconds are those of a raw timestamp less than a
unit after the first one. -/
theorem raw_of_overflow (h : v.instant? = some nanos)
    (large : ¬IntKind.i64.Holds (nanos / unit.nanoseconds * unit.nanoseconds / 1000)) :
    ∃ micros, v = .rawTimestamp micros ∧
      micros.val * 1000 < IntKind.i64.min * 1000 + unit.nanoseconds := by
  cases v with
  | timestamp t =>
    cases h
    have bounds := t.nanos_bounds
    cases unit <;>
      simp only [IntKind.Holds, IntKind.min, IntKind.max, TimestampUnit.nanoseconds] at large <;>
      omega
  | timestampTz t =>
    cases h
    have bounds := t.instant_bounds
    cases unit <;>
      simp only [IntKind.Holds, IntKind.min, IntKind.max, TimestampUnit.nanoseconds] at large <;>
      omega
  | rawTimestamp micros =>
    simp only [Value.instant?] at h
    split_ifs at h
    cases h
    obtain ⟨n, lower, upper⟩ := micros
    refine ⟨_, rfl, ?_⟩
    simp only [IntKind.min, IntKind.max] at lower upper
    cases unit <;>
      simp only [IntKind.Holds, IntKind.min, IntKind.max, TimestampUnit.nanoseconds] at large ⊢ <;>
      omega
  | _ => cases h

end LogicalType

/-- What is read of a row whose slot counts `units` since the epoch. Only microseconds that fit in
64 bits are read as such, clock readings are those of the calendar, and nothing is an infinity. -/
structure NativeVector.ReadsInstant (n : NativeVector) (unit : TimestampUnit) (row : Nat)
    (units : Int) : Prop where
  counted : IntKind.i64.Holds (units * unit.nanoseconds / 1000) →
    ∃ micros : Word .i64, micros.val = units * unit.nanoseconds / 1000 ∧
      Timestamp.slotFinite micros ∧ n.RowReads row .rawTimestamp (.ok micros)
  overflow : ¬IntKind.i64.Holds (units * unit.nanoseconds / 1000) →
    n.RowReads row .rawTimestamp
      (.error (.domain (.temporal (.microsOverflow (.timestamp unit) units))))
  calendar : DateTime.OnCalendar (units * unit.nanoseconds) →
    ∃ dt : OffsetDateTime, dt.instant = units * unit.nanoseconds ∧
      n.RowReads row .offsetDateTime (.ok dt)
  boxed : ∃ answer, n.RowReads row .value answer ∧
    ∀ micros, answer = .ok (.rawTimestamp micros) → Timestamp.slotFinite micros

namespace NativeVector

open LogicalType

variable {unit : TimestampUnit} {n : NativeVector} {row : Nat} {rows : List Value}

namespace HasWord

variable {raw : Word .i64} (h : n.HasWord (.scalar (.timestamp unit)) row raw)
include h

theorem reads_counted (finite : Timestamp.slotFinite raw)
    (fits : IntKind.i64.Holds (raw.val * unit.nanoseconds / 1000)) :
    ∃ micros : Word .i64, micros.val = raw.val * unit.nanoseconds / 1000 ∧
      Timestamp.slotFinite micros ∧ n.RowReads row .rawTimestamp (.ok micros) := by
  have counted : Timestamp.microsOfSlot (.timestamp unit) raw = .ok ⟨_, fits⟩ :=
    (Timestamp.microsOfSlot_iff finite).mpr rfl
  have reads := h.reads_micros
  rw [counted] at reads
  exact ⟨_, rfl, Timestamp.microsOfSlot_stays_finite finite counted, reads⟩

theorem reads_overflow (large : Timestamp.Overflows unit raw) :
    n.RowReads row .rawTimestamp
      (.error (.domain (.temporal (.microsOverflow (.timestamp unit) raw.val)))) := by
  have reads := h.reads_micros
  rw [Timestamp.microsOfSlot_of_overflows large] at reads
  exact reads

theorem reads_on_calendar (finite : Timestamp.slotFinite raw)
    (calendar : DateTime.OnCalendar (raw.val * unit.nanoseconds)) :
    ∃ dt : OffsetDateTime, dt.instant = raw.val * unit.nanoseconds ∧
      n.RowReads row .offsetDateTime (.ok dt) := by
  obtain ⟨clock, found⟩ := Timestamp.clockOfSlot_iff.mpr ⟨finite, calendar⟩
  have reads := h.reads_instant
  rw [found] at reads
  refine ⟨.utc clock, ?_, reads⟩
  rw [OffsetDateTime.instant_utc, (Timestamp.clockOfSlot_eq_ok.mp found).2]

/-- A slot that is no infinity is not boxed as one. -/
theorem reads_boxed_finite (finite : Timestamp.slotFinite raw) :
    ∃ answer, n.RowReads row .value answer ∧
      ∀ micros, answer = .ok (.rawTimestamp micros) → Timestamp.slotFinite micros := by
  refine ⟨_, h.reads_boxed rfl (timestamp_wordSlots unit), fun micros boxed => ?_⟩
  unfold timestampValue at boxed
  split at boxed
  · -- A slot with a clock is boxed as that clock reading, never raw.
    split_ifs at boxed <;> cases boxed
  · cases found : Timestamp.microsOfSlot (.timestamp unit) raw with
    | error fault => simp [found, Reader.temporal, Except.mapError] at boxed
    | ok other =>
      obtain rfl : other = micros := by simpa [found, Reader.temporal, Except.mapError] using boxed
      exact Timestamp.microsOfSlot_stays_finite finite found

theorem readsInstant (finite : Timestamp.slotFinite raw) : n.ReadsInstant unit row raw.val :=
  ⟨h.reads_counted finite, fun large => h.reads_overflow ⟨finite, large⟩,
    h.reads_on_calendar finite, h.reads_boxed_finite finite⟩

theorem reads_infinite (infinite : Timestamp.slotFinite raw = false) :
    n.RowReads row .rawTimestamp (.ok raw) ∧ n.RowReads row .value (.ok (.rawTimestamp raw)) := by
  have micros := Timestamp.microsOfSlot_infinite infinite (.timestamp unit)
  have typed := h.reads_micros
  rw [micros] at typed
  have clock : Timestamp.clockOfSlot (.timestamp unit) raw =
      .error (.infiniteInstant (.timestamp unit)) := by
    unfold Timestamp.clockOfSlot
    rw [infinite]
    rfl
  have value : timestampValue unit raw = .ok (.rawTimestamp raw) := by
    unfold timestampValue
    rw [clock, micros]
    rfl
  have boxed := h.reads_boxed rfl (timestamp_wordSlots unit)
  rw [value] at boxed
  exact ⟨typed, boxed⟩

end HasWord

theorem ofValues_instant {v : Value} {nanos : Int} (at_ : v.instant? = some nanos)
    {raw : Word .i64} (units : nanos / unit.nanoseconds = raw.val) :
    ∃ n, ofValues (.scalar (.timestamp unit)) [v] = .ok n ∧
      n.HasWord (.scalar (.timestamp unit)) 0 raw := by
  have valid : (scalar (.timestamp unit)).check = .ok () := rfl
  have slot := slotOf_units unit at_ units
  have slots : ∀ other ∈ [v], other.isNull = false →
      ∃ w : Word .i64, (scalar (.timestamp unit)).slotOf other = .ok w.toBytes := by
    intro other hv _
    obtain rfl := List.mem_singleton.mp hv
    exact ⟨raw, slot⟩
  have room : [v].length * IntKind.i64.bytes < sizeModulus := by
    show 1 * 8 < sizeModulus
    decide
  obtain ⟨n, hn, -, words⟩ := ofValues_words valid rfl rfl room slots
  have there : v.isNull = false := by
    cases v <;> first | rfl | cases at_
  exact ⟨n, hn, words 0 Nat.one_pos raw there slot⟩

/-- Timestamps in a column of any of the five kinds. They are taken exactly if their whole units fit
a slot. The instant of these is what is read, typed or boxed, of every row but those that a column of
nanoseconds takes for infinities; it has no microseconds only for a raw timestamp less than a unit
after the first one. Infinities are read as they are. -/
theorem instants_kept (room : rows.length * 8 < sizeModulus)
    (stamps : ∀ v ∈ rows, v = .null ∨ v.isTimestamp) :
    ((∃ n, ofValues (.scalar (.timestamp unit)) rows = .ok n) ↔ ∀ v ∈ rows, ∀ nanos,
      v.instant? = some nanos → IntKind.i64.Holds (nanos / unit.nanoseconds)) ∧
    ∀ n, ofValues (.scalar (.timestamp unit)) rows = .ok n → n.rows = rows.length ∧
      ∀ (row : Nat) (hrow : row < rows.length),
        (∀ nanos, rows[row].instant? = some nanos →
          ((unit = .nanos → nanos ≠ 9223372036854775807 ∧ nanos ≠ -9223372036854775807) →
            n.ReadsInstant unit row (nanos / unit.nanoseconds)) ∧
          (¬IntKind.i64.Holds (nanos / unit.nanoseconds * unit.nanoseconds / 1000) →
            ∃ micros, rows[row] = .rawTimestamp micros ∧
              micros.val * 1000 < IntKind.i64.min * 1000 + unit.nanoseconds)) ∧
        ∀ micros, rows[row] = .rawTimestamp micros → Timestamp.slotFinite micros = false →
          n.RowReads row .rawTimestamp (.ok micros) ∧
            n.RowReads row .value (.ok (.rawTimestamp micros)) := by
  have valid : (scalar (.timestamp unit)).check = .ok () := rfl
  constructor
  · rw [ofValues_iff valid rfl rfl room]
    refine forall₂_congr fun v hv => ?_
    rcases stamps v hv with rfl | stamp
    · exact ⟨fun _ => nofun, fun _ => nofun⟩
    · have there : v.isNull = false := by
        cases v <;> first | rfl | cases stamp
      rw [← slotOf_timestamp_iff unit stamp, imp_iff_right there]
  · intro n hn
    obtain ⟨count, written⟩ := slotOf_of_ofValues rfl hn
    refine ⟨count, fun row hrow => ⟨fun nanos at_ => ⟨fun apart => ?_, raw_of_overflow unit at_⟩,
      fun micros hm infinite => ?_⟩⟩
    · have there : rows[row].isNull = false := by
        cases hv : rows[row] <;> first | rfl | (rw [hv] at at_; cases at_)
      obtain ⟨slot, hs⟩ := written _ (List.getElem_mem hrow) there
      rw [slotOf_instant unit at_] at hs
      obtain ⟨raw, value, rfl⟩ := intSlot_eq_ok hs
      have stored : n.HasWord (.scalar (.timestamp unit)) row raw :=
        hasWord_of_ofValues rfl hn hrow there (slotOf_units unit at_ value.symm)
      have finite : Timestamp.slotFinite raw := by
        have units := units_apart unit at_ apart
        simpa [Timestamp.slotFinite, value] using units
      exact value ▸ stored.readsInstant finite
    · have stored : n.HasWord (.scalar (.timestamp unit)) row micros :=
        hasWord_of_ofValues rfl hn hrow (by rw [hm]; rfl)
          (by rw [hm, slotOf_infinite unit infinite])
      exact stored.reads_infinite infinite

/-- A microsecond before the epoch is in the last second before it; an infinity stays one. -/
theorem instants_kept_before_the_epoch :
    let before : Word .i64 := .wrap .i64 (-1)
    let never : Word .i64 := .wrap .i64 9223372036854775807
    ∃ n, ofValues (.scalar (.timestamp .seconds))
        [.null, .rawTimestamp before, .rawTimestamp never] = .ok n ∧
      n.RowReads 1 .rawTimestamp (.ok (.wrap .i64 (-1000000))) ∧
      (∃ dt : OffsetDateTime, dt.instant = -1000000000 ∧
        n.RowReads 1 .offsetDateTime (.ok dt)) ∧
      n.RowReads 2 .rawTimestamp (.ok never) := by
  intro before never
  let rows : List Value := [.null, .rawTimestamp before, .rawTimestamp never]
  have instants : ∀ v ∈ rows, ∀ nanos, v.instant? = some nanos → nanos = -1000 := by
    intro v hv nanos at_
    simp only [rows, List.mem_cons, List.not_mem_nil, or_false] at hv
    rcases hv with rfl | rfl | rfl
    · cases at_
    · exact (Option.some.inj at_).symm
    · cases at_
  have stamps : ∀ v ∈ rows, v = .null ∨ v.isTimestamp := by
    intro v hv
    simp only [rows, List.mem_cons, List.not_mem_nil, or_false] at hv
    rcases hv with rfl | rfl | rfl
    · exact .inl rfl
    · exact .inr rfl
    · exact .inr rfl
  obtain ⟨taken, reads⟩ := @instants_kept .seconds rows (by decide) stamps
  obtain ⟨n, hn⟩ := taken.mpr fun v hv nanos at_ => by rw [instants v hv nanos at_]; decide
  obtain ⟨-, each⟩ := reads n hn
  have instant := ((each 1 (by decide)).1 (-1000) rfl).1 nofun
  obtain ⟨micros, value, -, typed⟩ := instant.counted (by decide)
  obtain rfl : micros = .wrap .i64 (-1000000) := Word.ext value
  obtain ⟨infinite, -⟩ := (each 2 (by decide)).2 never rfl rfl
  exact ⟨n, hn, typed, instant.calendar (by decide), infinite⟩

/-- The first raw timestamp is finite and taken in whole seconds, which begin before any microsecond
that 64 bits count. The instant whose nanoseconds are those of the infinity is read as the
infinity. -/
theorem instants_not_kept :
    let first : Word .i64 := .wrap .i64 (-9223372036854775808)
    let clock : DateTime := ⟨⟨106751, by decide⟩, ⟨85636854775807, by decide⟩⟩
    (Timestamp.slotFinite first ∧
      ∃ n, ofValues (.scalar (.timestamp .seconds)) [.rawTimestamp first] = .ok n ∧
        n.RowReads 0 .rawTimestamp (.error (.domain (.temporal
          (.microsOverflow (.timestamp .seconds) (-9223372036855)))))) ∧
    ∃ n, ofValues (.scalar (.timestamp .nanos)) [.timestamp clock] = .ok n ∧
      n.RowReads 0 .rawTimestamp (.ok (.wrap .i64 9223372036854775807)) := by
  intro first clock
  constructor
  · have at_ : (Value.rawTimestamp first).instant? = some (-9223372036854775808000) := rfl
    have units : -9223372036854775808000 / TimestampUnit.seconds.nanoseconds =
        (Word.wrap .i64 (-9223372036855)).val := by decide
    obtain ⟨n, hn, stored⟩ := ofValues_instant at_ units
    exact ⟨rfl, n, hn, stored.reads_overflow ⟨rfl, by decide⟩⟩
  · have at_ : (Value.timestamp clock).instant? = some clock.nanos := rfl
    have units : clock.nanos / TimestampUnit.nanos.nanoseconds =
        (Word.wrap .i64 9223372036854775807).val := by decide
    obtain ⟨n, hn, stored⟩ := ofValues_instant at_ units
    exact ⟨n, hn, (stored.reads_infinite rfl).1⟩

end NativeVector
end TypedColumns
