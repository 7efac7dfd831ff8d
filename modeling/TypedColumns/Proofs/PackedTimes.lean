import TypedColumns.Proofs.RowReads
import TypedColumns.Proofs.SlotRoundTrip

/-!
Times with an offset in their packed slots. Slots sort as their times do. Both parts are cut to the
bits that a slot has for them, so that a time and an offset which those bits do not hold are stored
as others; an offset whose distance from the largest one 32 bits do not hold is a panic.
-/
namespace TypedColumns

namespace TimeTz

/-- 40 bits hold the microseconds and 24 bits hold the offset, counted down from the largest one. -/
def Fits (t : TimeTz) : Prop :=
  (0 ≤ t.micros.val ∧ t.micros.val < 0x10000000000) ∧
    0 ≤ maxOffset - t.offset.val ∧ maxOffset - t.offset.val < 0x1000000

instance (t : TimeTz) : Decidable t.Fits := inferInstanceAs (Decidable (_ ∧ _))

variable (t : TimeTz)

/-- The parts of a slot stand beside each other. -/
theorem toBits_parts : t.toBits.val / 0x1000000 = t.micros.val % 0x10000000000 ∧
    t.toBits.val % 0x1000000 = (maxOffset - t.offset.val) % 0x1000000 := by
  -- Wrapping to 64 bits cuts the microseconds to the 40 above the offset and leaves the offset alone.
  simp only [toBits, Word.wrap, IntKind.modulus, IntKind.min, IntKind.max]
  omega

/-- What is left of the microseconds. -/
theorem micros_ofBits_toBits :
    (ofBits t.toBits).micros.val = t.micros.val % 0x10000000000 := by
  rw [← (toBits_parts t).1]
  apply Word.wrap_val_of_holds
  rw [(toBits_parts t).1]
  simp only [IntKind.Holds, IntKind.min, IntKind.max]
  omega

/-- What is left of the offset. -/
theorem offset_ofBits_toBits :
    (ofBits t.toBits).offset.val = maxOffset - (maxOffset - t.offset.val) % 0x1000000 := by
  rw [← (toBits_parts t).2]
  apply Word.wrap_val_of_holds
  simp only [IntKind.Holds, IntKind.min, IntKind.max, maxOffset]
  omega

theorem ofBits_toBits_iff : ofBits t.toBits = t ↔ t.Fits := by
  have micros := micros_ofBits_toBits t
  have offset := offset_ofBits_toBits t
  constructor
  · intro same
    rw [same] at micros offset
    unfold Fits
    omega
  · rintro ⟨⟨start, last⟩, east, west⟩
    have micros' : (ofBits t.toBits).micros = t.micros := Word.ext (by omega)
    have offset' : (ofBits t.toBits).offset = t.offset := Word.ext (by omega)
    calc ofBits t.toBits = ⟨t.micros, t.offset⟩ := by rw [← micros', ← offset']
      _ = t := rfl

variable {t} in
theorem Fits.counted (h : t.Fits) : t.Counted := by
  obtain ⟨-, east, west⟩ := h
  simp only [Counted, IntKind.Holds, IntKind.min, IntKind.max]
  omega

variable {t} in
theorem toBits?_of_counted (h : t.Counted) : t.toBits? = some t.toBits := if_pos h

/-- Only the times that fit come back from their slots. -/
theorem ofBits_toBits?_iff : t.toBits?.map ofBits = some t ↔ t.Fits := by
  by_cases counted : t.Counted
  · rw [toBits?_of_counted counted, Option.map_some, Option.some_inj, ofBits_toBits_iff]
  · rw [toBits?, if_neg counted, Option.map_none]
    constructor
    · intro same
      cases same
    · intro fits
      exact absurd fits.counted counted

/-- A slot has its microseconds and its offset side by side. -/
theorem toBits_val : t.toBits.val = t.micros.val % 0x10000000000 * 0x1000000 +
    (maxOffset - t.offset.val) % 0x1000000 := by
  obtain ⟨micros, offset⟩ := t.toBits_parts
  omega

/-- Slots and the times that fit are in one-to-one correspondence, and slots are in the order of
their times: by the microseconds, then from east to west. -/
theorem packing_sorts :
    (∀ bits : Word .u64, (ofBits bits).toBits? = some bits) ∧
    (∀ t : TimeTz, t.toBits?.map ofBits = some t ↔ t.Fits) ∧
    ∀ a b : TimeTz, a.Fits → b.Fits → ∃ bits bits', a.toBits? = some bits ∧
      b.toBits? = some bits' ∧ compare bits.val bits'.val =
        (compare a.micros.val b.micros.val).then (compare b.offset.val a.offset.val) := by
  refine ⟨toBits?_ofBits, ofBits_toBits?_iff, fun a b ha hb => ?_⟩
  refine ⟨_, _, toBits?_of_counted ha.counted, toBits?_of_counted hb.counted, ?_⟩
  obtain ⟨micros, east, west⟩ := ha
  obtain ⟨micros', east', west'⟩ := hb
  have offsets : compare (maxOffset - a.offset.val) (maxOffset - b.offset.val) =
      compare b.offset.val a.offset.val := compare_congr (by omega) (by omega)
  rw [toBits_val, toBits_val, Int.emod_eq_of_lt micros.1 micros.2, Int.emod_eq_of_lt east west,
    Int.emod_eq_of_lt micros'.1 micros'.2, Int.emod_eq_of_lt east' west',
    compare_digits ⟨east, west⟩ ⟨east', west'⟩, offsets]

/-- At the same time of day, an hour east of UTC is in front of an hour west of it. -/
theorem packing_sorts_east_first :
    let east : TimeTz := ⟨0, .wrap .i32 3600⟩
    let west : TimeTz := ⟨0, .wrap .i32 (-3600)⟩
    east.Fits ∧ west.Fits ∧ ∃ bits bits', east.toBits? = some bits ∧ west.toBits? = some bits' ∧
      compare bits.val bits'.val = .lt := by
  intro east west
  have fits : east.Fits := by decide
  have fits' : west.Fits := by decide
  obtain ⟨bits, bits', packed, packed', order⟩ := packing_sorts.2.2 east west fits fits'
  exact ⟨fits, fits', bits, bits', packed, packed', order.trans (by decide)⟩

end TimeTz

namespace NativeVector

open LogicalType

variable {n : NativeVector} {row : Nat} {rows : List Value}

theorem HasWord.reads_timeTz {bits : Word .u64} (h : n.HasWord (.scalar .timeTz) row bits) :
    n.RowReads row .timeTz (.ok (TimeTz.ofBits bits)) ∧
      n.RowReads row .value (.ok (.timeTz (TimeTz.ofBits bits))) := by
  refine ⟨h.reads_typed rfl rfl rfl fun view _ word => ?_, h.reads_boxed rfl timeTz_wordSlots⟩
  rw [Reader.timeTz, word]
  rfl

/-- A time has a slot exactly if its offset can be counted; if not, the panic is about that offset. -/
theorem slotOf_timeTz (t : TimeTz) : (scalar .timeTz).slotOf (.timeTz t) =
    if t.Counted then .ok t.toBits.toBytes else .error (.panic (.offsetOverflow t.offset.val)) := by
  show packedSlot t = _
  unfold packedSlot TimeTz.toBits?
  split_ifs <;> rfl

/-- Times with an offset are taken exactly if all their offsets can be counted from the largest one
in 32 bits, and where one cannot the call panics. Read back, typed or boxed, is what a slot has room
for: the microseconds modulo 2^40, and the offset whose distance from the largest one is the given
distance modulo 2^24. This is the time that was written exactly if 40 and 24 bits hold the two. -/
theorem packedTimes_kept (room : rows.length * 8 < sizeModulus)
    (times : ∀ v ∈ rows, v = .null ∨ ∃ t, v = .timeTz t) :
    ((∃ n, ofValues (.scalar .timeTz) rows = .ok n) ↔ ∀ t, .timeTz t ∈ rows → t.Counted) ∧
    (∀ e, ofValues (.scalar .timeTz) rows = .error e → ∃ t, .timeTz t ∈ rows ∧ ¬ t.Counted ∧
      e = .panic (.offsetOverflow t.offset.val)) ∧
    ∀ n, ofValues (.scalar .timeTz) rows = .ok n → n.rows = rows.length ∧
      ∀ (row : Nat) (hrow : row < rows.length) (t : TimeTz), rows[row] = .timeTz t →
        ∃ back : TimeTz, n.RowReads row .timeTz (.ok back) ∧
          n.RowReads row .value (.ok (.timeTz back)) ∧
          back.micros.val = t.micros.val % 0x10000000000 ∧
          back.offset.val =
            TimeTz.maxOffset - (TimeTz.maxOffset - t.offset.val) % 0x1000000 ∧
          (back = t ↔ t.Fits) := by
  have valid : (scalar .timeTz).check = .ok () := rfl
  have slotted : (scalar .timeTz).isSlotted := rfl
  have counted_iff (t : TimeTz) :
      (∃ slot, (scalar .timeTz).slotOf (.timeTz t) = .ok slot) ↔ t.Counted := by
    rw [slotOf_timeTz]
    split_ifs with counted <;> simp [counted]
  refine ⟨(ofValues_iff valid slotted rfl room).trans ⟨?_, ?_⟩, fun e he => ?_, fun n hn => ?_⟩
  · intro written t ht
    exact (counted_iff t).mp (written _ ht rfl)
  · intro counted v hv there
    rcases times v hv with rfl | ⟨t, rfl⟩
    · cases there
    · exact (counted_iff t).mpr (counted t hv)
  · obtain ⟨v, hv, there, refused⟩ := ofValues_eq_error valid slotted rfl room he
    rcases times v hv with rfl | ⟨t, rfl⟩
    · cases there
    · rw [slotOf_timeTz] at refused
      split_ifs at refused with counted
      exact ⟨t, hv, counted, (Except.error.inj refused).symm⟩
  · obtain ⟨count, written⟩ := slotOf_of_ofValues slotted hn
    refine ⟨count, fun row hrow t ht => ?_⟩
    have counted := (counted_iff t).mp (written _ (ht ▸ List.getElem_mem hrow) rfl)
    have stored : n.HasWord (.scalar .timeTz) row t.toBits :=
      hasWord_of_ofValues slotted hn hrow (by rw [ht]; rfl)
        (by rw [ht, slotOf_timeTz, if_pos counted])
    obtain ⟨typed, boxed⟩ := stored.reads_timeTz
    exact ⟨_, typed, boxed, t.micros_ofBits_toBits, t.offset_ofBits_toBits, t.ofBits_toBits_iff⟩

/-- Two in the afternoon, an hour west of UTC. -/
theorem packedTimes_kept_afternoon :
    let t : TimeTz := ⟨.wrap .i64 50400000000, .wrap .i32 (-3600)⟩
    ∃ n, ofValues (.scalar .timeTz) [.null, .timeTz t] = .ok n ∧
      n.RowReads 1 .timeTz (.ok t) ∧ n.RowReads 1 .value (.ok (.timeTz t)) := by
  intro t
  have times : ∀ v ∈ [Value.null, .timeTz t], v = .null ∨ ∃ t, v = .timeTz t := by
    intro v hv
    simp only [List.mem_cons, List.not_mem_nil, or_false] at hv
    exact hv.imp_right fun same => ⟨t, same⟩
  obtain ⟨taken, -, kept⟩ := packedTimes_kept (by decide) times
  obtain ⟨n, hn⟩ := taken.mpr fun t' ht => by
    obtain rfl : t' = t := by simpa using ht
    decide
  obtain ⟨back, typed, boxed, -, -, same⟩ := (kept n hn).2 1 (by decide) t rfl
  obtain rfl : back = t := same.mpr (by decide)
  exact ⟨n, hn, typed, boxed⟩

/-- One microsecond more than 40 bits hold is read as midnight, and an offset one second east of the
largest one as an offset far in the west. -/
theorem packedTimes_not_kept :
    let late : TimeTz := ⟨.wrap .i64 0x10000000000, 0⟩
    let east : TimeTz := ⟨0, .wrap .i32 57600⟩
    ∃ n, ofValues (.scalar .timeTz) [.timeTz late, .timeTz east] = .ok n ∧
      n.RowReads 0 .timeTz (.ok ⟨0, 0⟩) ∧
      n.RowReads 1 .timeTz (.ok ⟨0, .wrap .i32 (-16719616)⟩) := by
  intro late east
  have valid : (scalar .timeTz).check = .ok () := rfl
  have slots : ∀ v ∈ [Value.timeTz late, .timeTz east], v.isNull = false →
      ∃ bits : Word .u64, (scalar .timeTz).slotOf v = .ok bits.toBytes := by
    intro v hv _
    simp only [List.mem_cons, List.not_mem_nil, or_false] at hv
    rcases hv with rfl | rfl
    · exact ⟨late.toBits, rfl⟩
    · exact ⟨east.toBits, rfl⟩
  obtain ⟨n, hn, -, words⟩ := ofValues_words valid rfl rfl (by decide) slots
  have first := (words 0 (by decide) late.toBits rfl rfl).reads_timeTz.1
  have second := (words 1 (by decide) east.toBits rfl rfl).reads_timeTz.1
  have late' : TimeTz.ofBits late.toBits = ⟨0, 0⟩ := by decide
  have east' : TimeTz.ofBits east.toBits = ⟨0, .wrap .i32 (-16719616)⟩ := by decide
  rw [late'] at first
  rw [east'] at second
  exact ⟨n, hn, first, second⟩

end NativeVector
end TypedColumns
