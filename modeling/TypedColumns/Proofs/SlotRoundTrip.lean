import TypedColumns.Native.Encode
import TypedColumns.Proofs.DirectReading
import TypedColumns.Proofs.Results
import TypedColumns.Proofs.SlotValues
import TypedColumns.Proofs.Types

/-!
Leaf values and their slots: whatever the boxed reader finds in a slot of a type is written to a slot
of that type from which the reader finds it again. The two slots may differ, as for a boolean that
is neither 0 nor 1 and for a name that the dictionary has twice.
-/
namespace TypedColumns

open NativeVector

/-- Every integer is a signed one of 128 bits, the largest unsigned ones apart. -/
theorem IntKind.Holds.of_signed {k : IntKind} {n : Int} (h : k.Holds n) (hk : k ≠ .u128) :
    IntKind.i128.Holds n := by
  obtain ⟨lower, upper⟩ := h
  cases k <;> simp only [IntKind.Holds, IntKind.min, IntKind.max] at lower upper ⊢ <;>
    first | omega | contradiction

/-- The value has a slot, and is what is read from that slot in any vector. -/
def LogicalType.HasSlot (type : LogicalType) (x : Value) : Prop :=
  ∃ slot width, type.slotOf x = .ok slot ∧ type.storage.slotWidth? = some width ∧
    slot.length = width ∧
    ∀ (v : NativeVector) (row : Nat), v.slot? width row = some slot → v.leafAt type row = .ok x

namespace NativeVector

def wordAt (v : NativeVector) (k : IntKind) (row : Nat) : Result (Word k) :=
  (ColumnView.loaded (v.slot? k.bytes row)).map (Word.ofBytes k)

theorem wordAt_of_slot {v : NativeVector} {k : IntKind} {row : Nat} {w : Word k}
    (h : v.slot? k.bytes row = some w.toBytes) : v.wordAt k row = .ok w := by
  unfold wordAt
  rw [h]
  exact congrArg Except.ok (Word.ofBytes_toBytes w)

end NativeVector

/-- The slots of `type` are words that `decode` reads, and its values are written as words that
decode to them. -/
structure WordSlots (type : LogicalType) (k : IntKind) (decode : Word k → Result Value) : Prop where
  width : type.storage = .int k ∨ type.storage.slotWidth? = some k.bytes
  reads (v : NativeVector) (row : Nat) : v.leafAt type row = v.wordAt k row >>= decode
  writes (w : Word k) (x : Value) : decode w = .ok x →
    ∃ w' : Word k, type.slotOf x = .ok w'.toBytes ∧ decode w' = .ok x

theorem WordSlots.hasSlot_of_word {type : LogicalType} {k : IntKind} {decode : Word k → Result Value}
    (h : WordSlots type k decode) {w : Word k} {x : Value} (hw : decode w = .ok x) :
    type.HasSlot x := by
  obtain ⟨w', hs, hd⟩ := h.writes w x hw
  refine ⟨w'.toBytes, k.bytes, hs, ?_, Word.toBytes_length w', ?_⟩
  · rcases h.width with hk | hk
    · rw [hk]
      rfl
    · exact hk
  · intro v row hslot
    rw [h.reads, wordAt_of_slot hslot, Result.ok_bind, hd]

theorem WordSlots.hasSlot {type : LogicalType} {k : IntKind} {decode : Word k → Result Value}
    (h : WordSlots type k decode) {v : NativeVector} {row : Nat} {x : Value}
    (hx : v.leafAt type row = .ok x) : type.HasSlot x := by
  rw [h.reads] at hx
  cases hw : v.wordAt k row with
  | error e =>
    rw [hw] at hx
    contradiction
  | ok w =>
    rw [hw, Result.ok_bind] at hx
    exact h.hasSlot_of_word hx

namespace LogicalType

theorem intSlot_val (type : LogicalType) {k : IntKind} (w : Word k) (x : Value) :
    type.intSlot k w.val x = .ok w.toBytes := by
  unfold intSlot
  rw [Word.ofInt?_val]

theorem intSlot_eq_ok {type : LogicalType} {k : IntKind} {n : Int} {v : Value} {slot : List UInt8}
    (h : type.intSlot k n v = .ok slot) : ∃ w : Word k, w.val = n ∧ slot = w.toBytes := by
  unfold intSlot Word.ofInt? at h
  by_cases inside : k.Holds n
  · rw [dif_pos inside] at h
    cases h
    exact ⟨⟨n, inside⟩, rfl, rfl⟩
  · rw [dif_neg inside] at h
    cases h

/-- The number of an integer is the one that it carries. -/
theorem intOf_int {type : LogicalType} {l : IntKind} {w : Word l} {n : Int}
    (h : type.intOf (.int l w) = .ok n) : n = w.val := by
  unfold intOf Value.int? Word.ofInt? at h
  by_cases inside : IntKind.i128.Holds w.val
  · simp only [dif_pos inside] at h
    exact (Except.ok.inj h).symm
  · simp only [dif_neg inside] at h
    cases h

theorem intOf_int_ok (type : LogicalType) {l : IntKind} {w : Word l}
    (inside : IntKind.i128.Holds w.val) : type.intOf (.int l w) = .ok w.val := by
  simp only [intOf, Value.int?, Word.ofInt?, inside, dif_pos]

/-- Integers other than those of the largest kind in a column of it go through signed integers. -/
theorem slotOf_int_eq {k l : IntKind} (h : ¬ (k = .u128 ∧ l = .u128)) {w : Word l} :
    (scalar (.int k)).slotOf (.int l w) = (do
      (scalar (.int k)).intSlot k (← (scalar (.int k)).intOf (.int l w)) (.int l w)) := by
  cases k with
  | u128 => cases l <;> first | rfl | exact absurd ⟨rfl, rfl⟩ h
  | _ => rfl

/-- A reader that decodes the word of a slot. -/
theorem leafAt_of_reader {type : LogicalType} (h : type.check = .ok ()) {k : IntKind}
    {decode : Word k → Result Value} {read : Reader Value} (hr : Reader.boxed? type = some read)
    (hd : ∀ view row, view.column.type = type → read view row = view.intAt k row >>= decode)
    (v : NativeVector) (row : Nat) : v.leafAt type row = v.wordAt k row >>= decode := by
  unfold leafAt
  rw [Column.ofType_of_check h]
  simp only [Result.ok_bind, hr]
  exact hd _ row rfl

theorem boolean_wordSlots :
    WordSlots (scalar .boolean) .u8 fun w => .ok (.boolean (w.val != 0)) := by
  refine ⟨.inr rfl, leafAt_of_reader rfl rfl ?_, ?_⟩
  · intro view row _
    show Except.map _ (view.intAt .u8 row) >>= _ = _
    cases view.intAt .u8 row <;> rfl
  · intro w x hx
    cases hx
    cases hb : w.val != 0 with
    | false => exact ⟨⟨0, by decide⟩, rfl, rfl⟩
    | true => exact ⟨⟨1, by decide⟩, rfl, rfl⟩

/-- An integer with a slot of another kind is written as that slot. Signed integers of 128 bits are
in between, except from the largest kind to itself. -/
theorem slotOf_int {k l : IntKind} (stored : Word k) (w : Word l) (same : stored.val = w.val) :
    (scalar (.int k)).slotOf (.int l w) = .ok stored.toBytes := by
  by_cases both : k = .u128 ∧ l = .u128
  · obtain ⟨rfl, rfl⟩ := both
    obtain rfl : stored = w := Word.ext same
    rfl
  · have inside : IntKind.i128.Holds w.val := by
      rcases not_and_or.mp both with hk | hl
      · rw [← same]
        exact stored.holds.of_signed hk
      · exact w.holds.of_signed hl
    rw [slotOf_int_eq both, intOf_int_ok _ inside, Result.ok_bind, ← same, intSlot_val]

/-- An integer has a slot if it is one of the column's kind. -/
theorem slotOf_int_iff {k l : IntKind} (w : Word l) :
    (∃ slot, (scalar (.int k)).slotOf (.int l w) = .ok slot) ↔ k.Holds w.val := by
  constructor
  · rintro ⟨slot, hs⟩
    by_cases both : k = .u128 ∧ l = .u128
    · obtain ⟨rfl, rfl⟩ := both
      exact w.holds
    · rw [slotOf_int_eq both] at hs
      obtain ⟨n, hn, hs⟩ := Result.bind_eq_ok.mp hs
      obtain ⟨stored, rfl, -⟩ := intSlot_eq_ok hs
      rw [← intOf_int hn]
      exact stored.holds
  · exact fun inside => ⟨_, slotOf_int ⟨w.val, inside⟩ w rfl⟩

theorem int_wordSlots (k : IntKind) :
    WordSlots (scalar (.int k)) k fun w => .ok (.int k w) := by
  refine ⟨.inl rfl, leafAt_of_reader rfl rfl ?_, ?_⟩
  · intro view row _
    show Except.map _ (view.intAt k row) = _
    cases view.intAt k row <;> rfl
  · intro w x hx
    cases hx
    exact ⟨w, slotOf_int w w rfl, rfl⟩

/-- What is read from the slot of a day is written as that slot. -/
theorem slotOf_date (days : Word .i32) : (scalar .date).slotOf
    (Reader.orRaw (fun days => (Date.ofSlot days).map .date) .rawDate days) = .ok days.toBytes := by
  cases hd : Date.ofSlot days with
  | error e => simp only [Reader.orRaw, hd, Except.map, slotOf]
  | ok date =>
    simp only [Reader.orRaw, hd, Except.map, slotOf]
    rw [Date.toSlot_of_ofSlot hd]

theorem date_wordSlots : WordSlots (scalar .date) .i32 fun w =>
    .ok (Reader.orRaw (fun days => (Date.ofSlot days).map .date) .rawDate w) := by
  refine ⟨.inr rfl, leafAt_of_reader rfl rfl ?_, ?_⟩
  · intro view row _
    show Except.map _ (view.intAt .i32 row) = _
    cases view.intAt .i32 row <;> rfl
  · intro w x hx
    refine ⟨w, ?_, hx⟩
    cases hx
    exact slotOf_date w

/-- What is read from the slot of a time is written as that slot. -/
theorem slotOf_time (micros : Word .i64) : (scalar .time).slotOf
    (Reader.orRaw (fun micros => (ClockTime.ofSlot micros).map .time) .rawTime micros) =
      .ok micros.toBytes := by
  cases ht : ClockTime.ofSlot micros with
  | error e => simp only [Reader.orRaw, ht, Except.map, slotOf]
  | ok t =>
    simp only [Reader.orRaw, ht, Except.map, slotOf]
    rw [ClockTime.toSlot_of_ofSlot ht]

theorem time_wordSlots : WordSlots (scalar .time) .i64 fun w =>
    .ok (Reader.orRaw (fun micros => (ClockTime.ofSlot micros).map .time) .rawTime w) := by
  refine ⟨.inr rfl, leafAt_of_reader rfl rfl ?_, ?_⟩
  · intro view row _
    show Except.map _ (view.intAt .i64 row) = _
    cases view.intAt .i64 row <;> rfl
  · intro w x hx
    refine ⟨w, ?_, hx⟩
    cases hx
    exact slotOf_time w

theorem timeTz_wordSlots :
    WordSlots (scalar .timeTz) .u64 fun w => .ok (.timeTz (TimeTz.ofBits w)) := by
  refine ⟨.inr rfl, leafAt_of_reader rfl rfl ?_, ?_⟩
  · intro view row _
    show Except.map _ (view.intAt .u64 row) >>= _ = _
    cases view.intAt .u64 row <;> rfl
  · intro w x hx
    refine ⟨w, ?_, hx⟩
    cases hx
    show packedSlot (TimeTz.ofBits w) = _
    rw [packedSlot, TimeTz.toBits?_ofBits]

theorem uuid_wordSlots :
    WordSlots (scalar .uuid) .i128 fun w => .ok (.uuid (Uuid.ofSlot w)) := by
  refine ⟨.inr rfl, leafAt_of_reader rfl rfl ?_, ?_⟩
  · intro view row _
    show Except.map _ (view.intAt .i128 row) >>= _ = _
    cases view.intAt .i128 row <;> rfl
  · intro w x hx
    refine ⟨w, ?_, hx⟩
    cases hx
    show Except.ok (Uuid.ofSlot w).toSlot.toBytes = _
    rw [Uuid.toSlot_ofSlot]

/-- Every number of a DECIMAL slot is an integer of 128 bits. -/
theorem widen_decimal {width : Nat} (w : Word (decimalStorage width)) :
    (w.widen .i128).val = w.val := by
  apply Word.wrap_val_of_holds
  have hw := w.holds
  unfold decimalStorage at hw
  split_ifs at hw <;> simp only [IntKind.Holds, IntKind.min, IntKind.max] at hw ⊢ <;> omega

/-- A number with as many digits as the column has fits its slots. -/
theorem decimalStorage_holds {width : Nat} (small : width ≤ 38) {n : Int}
    (h : n.natAbs < 10 ^ width) : (decimalStorage width).Holds n := by
  have below {digits : Nat} (le : width ≤ digits) : n.natAbs < 10 ^ digits :=
    Nat.lt_of_lt_of_le h (Nat.pow_le_pow_right (by decide) le)
  unfold decimalStorage
  split_ifs with four nine eighteen
  · have := below four
    simp only [IntKind.Holds, IntKind.min, IntKind.max]
    omega
  · have := below nine
    simp only [IntKind.Holds, IntKind.min, IntKind.max]
    omega
  · have := below eighteen
    simp only [IntKind.Holds, IntKind.min, IntKind.max]
    omega
  · have := below small
    simp only [IntKind.Holds, IntKind.min, IntKind.max]
    omega

/-- The number of a DECIMAL slot, a decimal or, beyond 96 bits or 28 places, still unscaled. -/
def numberOf (n : Word .i128) (scale : Nat) : Value :=
  Reader.orRaw (fun stored : ScaledInt => stored.toDecimal.map .decimal) .scaledInt ⟨n, scale⟩

/-- What is read from the slot of a number is written as that slot. -/
theorem slotOf_decimal {width scale : Nat} (w : Word (decimalStorage width)) :
    (decimal width scale).slotOf (numberOf (w.widen .i128) scale) = .ok w.toBytes := by
  have mantissa : (decimal width scale).mantissaOf scale (numberOf (w.widen .i128) scale) =
      .ok w.val := by
    unfold numberOf
    cases hd : ScaledInt.toDecimal ⟨w.widen .i128, scale⟩ with
    | error e =>
      simp only [Reader.orRaw, hd, Except.map, mantissaOf, if_true, widen_decimal]
    | ok d =>
      obtain ⟨hm, hs⟩ : d.mantissa = (w.widen .i128).val ∧ d.scale = scale :=
        Decimal.ofScaled_ok hd
      simp only [Reader.orRaw, hd, Except.map, mantissaOf]
      rw [← hs, Decimal.rescaled_self, hm, widen_decimal]
  show (do (decimal width scale).intSlot _ (← (decimal width scale).mantissaOf scale _) _) = _
  rw [mantissa, Result.ok_bind, intSlot_val]

theorem decimal_wordSlots {width scale : Nat} (h : (decimal width scale).check = .ok ()) :
    WordSlots (decimal width scale) (decimalStorage width) fun w =>
      .ok (numberOf (w.widen .i128) scale) := by
  refine ⟨.inl rfl, leafAt_of_reader h rfl ?_, ?_⟩
  · intro view row hc
    have hs : view.column.scale = scale := by rw [Column.scale, hc]
    unfold Reader.boxedDecimal Reader.scaled
    rw [hs]
    cases view.intAt (decimalStorage width) row <;> rfl
  · intro w x hx
    refine ⟨w, ?_, hx⟩
    cases hx
    exact slotOf_decimal w

/-- What a timestamp slot holds: a clock reading, or microseconds where the calendar has none. -/
def timestampValue (unit : TimestampUnit) (raw : Word .i64) : Result Value :=
  match Timestamp.clockOfSlot (.timestamp unit) raw with
  | .ok clock =>
    .ok (if unit = .zoned then .timestampTz (.utc clock) else .timestamp clock)
  | .error _ => (Reader.temporal (Timestamp.microsOfSlot (.timestamp unit) raw)).map .rawTimestamp

/-- No slot of a coarser unit becomes an infinity when it is counted in microseconds. -/
theorem finite_micros {unit : TimestampUnit} (coarse : unit ≠ .nanos) {raw micros : Word .i64}
    (finite : Timestamp.slotFinite raw) (h : micros.val = raw.val * unit.nanoseconds / 1000) :
    Timestamp.slotFinite micros ∧ micros.val * 1000 / unit.nanoseconds = raw.val := by
  simp only [Timestamp.slotFinite, Bool.and_eq_true, bne_iff_ne, ne_eq] at finite ⊢
  cases unit with
  | nanos => contradiction
  | _ =>
    simp only [TimestampUnit.nanoseconds] at h ⊢
    omega

theorem timestampSlot_value {unit : TimestampUnit} {raw : Word .i64} {x : Value}
    (hx : timestampValue unit raw = .ok x) :
    (scalar (.timestamp unit)).timestampSlot unit x = .ok raw.toBytes := by
  have positive : unit.nanoseconds ≠ 0 := by cases unit <;> decide
  unfold timestampValue at hx
  cases hc : Timestamp.clockOfSlot (.timestamp unit) raw with
  | ok clock =>
    have nanos := (Timestamp.clockOfSlot_eq_ok.mp hc).2
    have back : clock.nanos / unit.nanoseconds = raw.val := by
      rw [nanos, Int.mul_ediv_cancel _ positive]
    rw [hc] at hx
    by_cases zoned : unit = .zoned
    · simp only [zoned, if_true] at hx back ⊢
      cases hx
      unfold timestampSlot
      simp only [OffsetDateTime.instant_utc, back, intSlot_val]
    · simp only [zoned, if_false] at hx
      cases hx
      unfold timestampSlot
      simp only [back, intSlot_val]
  | error e =>
    rw [hc] at hx
    cases hm : Timestamp.microsOfSlot (.timestamp unit) raw with
    | error e => simp [hm, Reader.temporal, Except.mapError] at hx
    | ok micros =>
      obtain rfl : .rawTimestamp micros = x := by
        simpa [hm, Reader.temporal, Except.mapError] using hx
      unfold timestampSlot
      by_cases finite : Timestamp.slotFinite raw
      · have coarse : unit ≠ .nanos := by
          rintro rfl
          obtain ⟨clock, found⟩ := Timestamp.clockOfSlot_nanos finite
          rw [found] at hc
          contradiction
        have counted := (Timestamp.microsOfSlot_iff finite).mp hm
        obtain ⟨stays, back⟩ := finite_micros coarse finite counted
        simp only [stays, if_true, back, intSlot_val]
      · have infinite : Timestamp.slotFinite raw = false := Bool.eq_false_of_not_eq_true finite
        obtain rfl : raw = micros := by
          rw [Timestamp.microsOfSlot_infinite infinite] at hm
          exact Except.ok.inj hm
        simp only [infinite]
        rfl

theorem timestamp_wordSlots (unit : TimestampUnit) :
    WordSlots (scalar (.timestamp unit)) .i64 (timestampValue unit) := by
  refine ⟨.inr rfl, leafAt_of_reader rfl rfl ?_, fun w x hx => ⟨w, timestampSlot_value hx, hx⟩⟩
  intro view row hc
  have hk : view.kind = .timestamp unit := by rw [ColumnView.kind, Column.kind, hc]; rfl
  unfold Reader.boxedTimestamp
  rw [hk]
  cases view.intAt .i64 row with
  | error e => rfl
  | ok raw =>
    cases found : Timestamp.clockOfSlot (.timestamp unit) raw with
    | error e => simp only [Result.ok_bind, timestampValue, found]
    | ok clock => simp only [Result.ok_bind, timestampValue, found, Kind.timestamp.injEq]

/-- The name of the code, as the boxed reader gives it. -/
def enumValue (dictionary : Array String) (code : Nat) : Result Value :=
  match dictionary[code]? with
  | some name => .ok (.enum name)
  | none => .error (.domain (.enumCode code dictionary.size "String"))

theorem enumStorage_cases (count : Nat) :
    enumStorage count = .u8 ∨ enumStorage count = .u16 ∨ enumStorage count = .u32 := by
  unfold enumStorage
  split_ifs <;> simp

/-- Every position in a dictionary is a code. -/
theorem enumStorage_holds {dictionary : Array String} (h : (enum dictionary).check = .ok ())
    {code : Nat} (hc : code < dictionary.size) : (enumStorage dictionary.size).Holds code := by
  have size : dictionary.size < 0x100000000 := by
    rw [check] at h
    by_contra large
    rw [if_neg large] at h
    contradiction
  unfold enumStorage
  split_ifs <;> simp only [IntKind.Holds, IntKind.min, IntKind.max] <;> omega

theorem code_eq {dictionary : Array String} {view : ColumnView} (row : Nat)
    (hc : view.column.type = enum dictionary) :
    Reader.code view row =
      (view.intAt (enumStorage dictionary.size) row).map fun n => n.val.toNat := by
  have hs : view.column.storage = .int (enumStorage dictionary.size) := by
    rw [Column.storage, hc]
    rfl
  unfold Reader.code
  rw [hs]
  rcases enumStorage_cases dictionary.size with hk | hk | hk <;> rw [hk]

theorem idxOf?_of_mem {dictionary : Array String} {name : String} (h : name ∈ dictionary) :
    ∃ code, dictionary.idxOf? name = some code ∧ dictionary[code]? = some name := by
  obtain ⟨code, hcode⟩ := Option.isSome_iff_exists.mp (Array.isSome_idxOf?.mpr h)
  refine ⟨code, hcode, ?_⟩
  rw [Array.idxOf?_eq_map_finIdxOf?_val, Option.map_eq_some_iff] at hcode
  obtain ⟨position, hp, rfl⟩ := hcode
  rw [Array.finIdxOf?_eq_some_iff] at hp
  rw [← hp.1]
  simp

theorem enum_wordSlots {dictionary : Array String} (h : (enum dictionary).check = .ok ()) :
    WordSlots (enum dictionary) (enumStorage dictionary.size) fun w =>
      enumValue dictionary w.val.toNat := by
  refine ⟨.inl rfl, leafAt_of_reader h rfl ?_, ?_⟩
  · intro view row hc
    unfold Reader.enumName Reader.memberName Reader.map
    simp only [code_eq row hc]
    cases view.intAt (enumStorage dictionary.size) row with
    | error e => rfl
    | ok w =>
      simp only [Result.map_ok, Result.ok_bind, enumValue]
      cases dictionary[w.val.toNat]? <;> rfl
  · intro w x hx
    unfold enumValue at hx
    split at hx
    · next name found =>
      cases hx
      obtain ⟨code, hcode, hname⟩ := idxOf?_of_mem (Array.mem_of_getElem? found)
      have inside : code < dictionary.size := (Array.getElem?_eq_some_iff.mp hname).1
      refine ⟨⟨code, enumStorage_holds h inside⟩, ?_, ?_⟩
      · have position : (enum dictionary).codeOf dictionary (.enum name) = .ok code := by
          simp only [codeOf, Value.string?, hcode]
        show (do (enum dictionary).intSlot _ (← (enum dictionary).codeOf dictionary _) _) = _
        rw [position, Result.ok_bind]
        exact intSlot_val _ ⟨code, enumStorage_holds h inside⟩ _
      · simp only [enumValue, Int.toNat_natCast, hname]
    · contradiction

theorem hasSlot_of_float {type : LogicalType} {f : FloatFormat} (box : Binary f → Value)
    (width : type.storage.slotWidth? = some f.bytes)
    (reads : ∀ (v : NativeVector) row, v.leafAt type row =
      (ColumnView.loaded (v.slot? f.bytes row)).map fun bytes => box (Binary.ofBytes f bytes))
    (writes : ∀ number, type.slotOf (box number) = .ok number.toBytes) (number : Binary f) :
    type.HasSlot (box number) := by
  refine ⟨_, f.bytes, writes number, width, Binary.toBytes_length _, ?_⟩
  intro v row hslot
  rw [reads, hslot]
  simp only [ColumnView.loaded, Result.map_ok, Binary.ofBytes_toBytes]

theorem leafAt_float (v : NativeVector) (row : Nat) : v.leafAt (scalar .float) row =
    (ColumnView.loaded (v.slot? FloatFormat.single.bytes row)).map fun bytes =>
      .float (Binary.ofBytes .single bytes) := by
  show Except.map _ (Except.map _ (ColumnView.loaded (v.slot? FloatFormat.single.bytes row))) = _
  cases v.slot? FloatFormat.single.bytes row <;> rfl

theorem leafAt_double (v : NativeVector) (row : Nat) : v.leafAt (scalar .double) row =
    (ColumnView.loaded (v.slot? FloatFormat.double.bytes row)).map fun bytes =>
      .double (Binary.ofBytes .double bytes) := by
  show Except.map _ (Except.map _ (ColumnView.loaded (v.slot? FloatFormat.double.bytes row))) = _
  cases v.slot? FloatFormat.double.bytes row <;> rfl

theorem float_hasSlot (x : Binary .single) : (scalar .float).HasSlot (.float x) :=
  hasSlot_of_float Value.float rfl leafAt_float (fun _ => rfl) x

theorem double_hasSlot (x : Binary .double) : (scalar .double).HasSlot (.double x) :=
  hasSlot_of_float Value.double rfl leafAt_double (fun _ => rfl) x

theorem hasSlot_float {v : NativeVector} {row : Nat} {x : Value}
    (hx : v.leafAt (scalar .float) row = .ok x) : (scalar .float).HasSlot x := by
  rw [leafAt_float, Result.map_eq_ok] at hx
  obtain ⟨bytes, -, rfl⟩ := hx
  exact float_hasSlot _

theorem hasSlot_double {v : NativeVector} {row : Nat} {x : Value}
    (hx : v.leafAt (scalar .double) row = .ok x) : (scalar .double).HasSlot x := by
  rw [leafAt_double, Result.map_eq_ok] at hx
  obtain ⟨bytes, -, rfl⟩ := hx
  exact double_hasSlot _

/-- The three parts of an interval in the bytes of its slot. -/
def intervalOf (bytes : List UInt8) : Interval :=
  ⟨.ofBytes .i32 (bytes.take 4), .ofBytes .i32 ((bytes.drop 4).take 4), .ofBytes .i64 (bytes.drop 8)⟩

theorem intervalOf_bytes (i : Interval) :
    intervalOf (i.months.toBytes ++ i.days.toBytes ++ i.micros.toBytes) = i := by
  have months : i.months.toBytes.length = 4 := Word.toBytes_length _
  have days : i.days.toBytes.length = 4 := Word.toBytes_length _
  have both : (i.months.toBytes ++ i.days.toBytes).length = 8 := by
    rw [List.length_append, months, days]
  have first : (i.months.toBytes ++ i.days.toBytes ++ i.micros.toBytes).take 4 =
      i.months.toBytes := by
    rw [List.append_assoc, List.take_left' months]
  have second : ((i.months.toBytes ++ i.days.toBytes ++ i.micros.toBytes).drop 4).take 4 =
      i.days.toBytes := by
    rw [List.append_assoc, List.drop_left' months, List.take_left' days]
  unfold intervalOf
  rw [first, second, List.drop_left' both, Word.ofBytes_toBytes, Word.ofBytes_toBytes,
    Word.ofBytes_toBytes]

theorem leafAt_interval (v : NativeVector) (row : Nat) : v.leafAt (scalar .interval) row =
    (ColumnView.loaded (v.slot? 16 row)).map fun bytes => .interval (intervalOf bytes) := by
  show Except.map _ (Except.map _ (ColumnView.loaded (v.slot? 16 row))) = _
  cases v.slot? 16 row <;> rfl

theorem interval_hasSlot (i : Interval) : (scalar .interval).HasSlot (.interval i) := by
  refine ⟨_, 16, rfl, rfl, ?_, ?_⟩
  · simp only [List.length_append, Word.toBytes_length, IntKind.bytes]
  · intro v row hslot
    rw [leafAt_interval, hslot]
    simp only [ColumnView.loaded, Result.map_ok, intervalOf_bytes]

theorem hasSlot_interval {v : NativeVector} {row : Nat} {x : Value}
    (hx : v.leafAt (scalar .interval) row = .ok x) : (scalar .interval).HasSlot x := by
  rw [leafAt_interval, Result.map_eq_ok] at hx
  obtain ⟨bytes, -, rfl⟩ := hx
  exact interval_hasSlot _

/-- Types whose values sit in slots of their own, without payloads elsewhere. -/
def isSlotted (type : LogicalType) : Bool :=
  !type.kind.isNested && !type.kind.isStringLike && type.kind != .null

section Slotted

variable {type : LogicalType} (slotted : type.isSlotted)
include slotted

theorem leaf_of_slotted : type.kind.isNested = false := by
  simp only [isSlotted, Bool.and_eq_true, Bool.not_eq_true'] at slotted
  exact slotted.1.1

theorem storage_of_slotted : (type.storage.isStringLike || type.storage.isNested) = false := by
  cases type with
  | scalar kind =>
    simp only [isSlotted, LogicalType.kind, Bool.and_eq_true, Bool.not_eq_true'] at slotted
    simp only [storage, LogicalType.kind, slotted.1.1, slotted.1.2, Bool.or_self]
  | decimal width scale => rfl
  | enum dictionary => rfl
  | _ => simp [isSlotted, LogicalType.kind, Kind.isNested] at slotted

theorem slotWidth_of_slotted (h : type.check = .ok ()) :
    ∃ width, type.storage.slotWidth? = some width := by
  cases type with
  | scalar kind => cases kind <;> first | exact ⟨_, rfl⟩ | simp [check] at h
  | decimal width scale => exact ⟨_, rfl⟩
  | enum dictionary => exact ⟨_, rfl⟩
  | _ => simp [isSlotted, LogicalType.kind, Kind.isNested] at slotted

end Slotted

/-- Every value that is read from a slot has a slot. -/
theorem hasSlot_of_leafAt {type : LogicalType} (h : type.check = .ok ()) (slotted : type.isSlotted)
    {v : NativeVector} {row : Nat} {x : Value} (hx : v.leafAt type row = .ok x) :
    type.HasSlot x := by
  cases type with
  | scalar kind =>
    cases kind with
    | boolean => exact boolean_wordSlots.hasSlot hx
    | int k => exact (int_wordSlots k).hasSlot hx
    | float => exact hasSlot_float hx
    | double => exact hasSlot_double hx
    | date => exact date_wordSlots.hasSlot hx
    | time => exact time_wordSlots.hasSlot hx
    | timeTz => exact timeTz_wordSlots.hasSlot hx
    | timestamp unit => exact (timestamp_wordSlots unit).hasSlot hx
    | interval => exact hasSlot_interval hx
    | uuid => exact uuid_wordSlots.hasSlot hx
    | varchar | blob | bit | varInt | null => simp [isSlotted, kind, Kind.isStringLike] at slotted
    | _ => simp [check] at h
  | decimal width scale => exact (decimal_wordSlots h).hasSlot hx
  | enum dictionary => exact (enum_wordSlots h).hasSlot hx
  | _ => simp [isSlotted, kind, Kind.isNested] at slotted

end LogicalType
end TypedColumns
