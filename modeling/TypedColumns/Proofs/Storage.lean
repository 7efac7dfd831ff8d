import Mathlib.Algebra.BigOperators.Group.List.Lemmas
import TypedColumns.Proofs.PayloadRoundTrip
import TypedColumns.Proofs.SlotRoundTrip
import TypedColumns.Proofs.Validity

/-!
Vectors of leaf values: slots one after another, payloads on the heap, and the bitmap of the rows
that are there. What such a vector reads as is what it was made from.
-/
namespace TypedColumns

theorem sum_take_add_le (lengths : List Nat) {i : Nat} (h : i < lengths.length) :
    (lengths.take i).sum + lengths[i] ≤ lengths.sum := by
  have whole := List.sum_take_add_sum_drop lengths (i + 1)
  rw [List.sum_take_succ lengths i h] at whole
  omega

/-- The members of a list of lists are the segments of the list that they are joined to. -/
theorem segment_flatten {α : Type} (parts : List (List α)) {i : Nat} (h : i < parts.length) :
    (parts.flatten.drop ((parts.map List.length).take i).sum).take parts[i].length = parts[i] := by
  have next := List.sum_take_succ (parts.map List.length) i (by rwa [List.length_map])
  have whole := List.drop_take_succ_flatten_eq_getElem parts i h
  rw [next, List.drop_take, Nat.add_sub_cancel_left, List.getElem_map] at whole
  exact whole

theorem sum_take_uniform {α : Type} {parts : List (List α)} {width : Nat}
    (h : ∀ part ∈ parts, part.length = width) {i : Nat} (hi : i ≤ parts.length) :
    ((parts.map List.length).take i).sum = i * width := by
  have uniform : parts.map List.length = List.replicate parts.length width := by
    rw [List.eq_replicate_iff]
    refine ⟨List.length_map _, ?_⟩
    intro n hn
    obtain ⟨part, hp, rfl⟩ := List.mem_map.mp hn
    exact h part hp
  rw [uniform, List.take_replicate, Nat.min_eq_left hi, List.sum_replicate_nat]

theorem length_flatten_uniform {α : Type} {parts : List (List α)} {width : Nat}
    (h : ∀ part ∈ parts, part.length = width) : parts.flatten.length = parts.length * width := by
  have whole := sum_take_uniform h (Nat.le_refl parts.length)
  rwa [List.take_of_length_le (by simp), ← List.length_flatten] at whole

namespace NativeVector

/-- A slot of a vector whose slots are equally wide. -/
theorem slot?_flatten {slots : List (List UInt8)} {width : Nat}
    (h : ∀ slot ∈ slots, slot.length = width) {v : NativeVector}
    (hv : v.data = slots.flatten.toArray) {row : Nat} (hrow : row < slots.length) :
    v.slot? width row = some slots[row] := by
  have size : v.data.size = slots.length * width := by
    rw [hv, List.size_toArray, length_flatten_uniform h]
  have inside : width * row + width ≤ v.data.size := by
    rw [size, ← Nat.mul_succ, Nat.mul_comm]
    exact Nat.mul_le_mul_right width hrow
  have segment := segment_flatten slots hrow
  rw [sum_take_uniform h (Nat.le_of_lt hrow), h _ (List.getElem_mem hrow)] at segment
  unfold slot?
  rw [if_pos inside, Array.toList_extract, hv, List.extract_eq_take_drop, Nat.add_sub_cancel_left,
    Nat.mul_comm width row]
  exact congrArg some segment

end NativeVector

namespace LogicalType

/-- What stands for a value in a column: nothing for null, else what `f` gives. -/
def stored {α : Type} (f : Value → Result α) (v : Value) : Option α :=
  if v.isNull then none else (f v).toOption

theorem stored_of_ok {α : Type} {f : Value → Result α} {v : Value} (present : v.isNull = false)
    {a : α} (h : f v = .ok a) : stored f v = some a := by
  unfold stored
  rw [present, h]
  rfl

theorem ok_of_stored {α : Type} {f : Value → Result α} {v : Value} {a : α}
    (h : stored f v = some a) : f v = .ok a := by
  unfold stored at h
  split_ifs at h
  cases hf : f v with
  | error e =>
    rw [hf] at h
    contradiction
  | ok b =>
    rw [hf] at h
    cases h
    rfl

theorem mapPresent_ok {α : Type} {f : Value → Result α} {rows : List Value}
    (h : ∀ v ∈ rows, v.isNull = false → ∃ a, f v = .ok a) :
    mapPresent f rows = .ok (rows.map (stored f)) := by
  unfold mapPresent
  apply Result.mapM_eq_map
  intro v hv
  unfold stored
  cases missing : v.isNull with
  | true => rfl
  | false =>
    obtain ⟨a, ha⟩ := h v hv missing
    rw [ha]
    rfl

theorem isSome_stored {α : Type} {f : Value → Result α} {rows : List Value}
    (h : ∀ v ∈ rows, v.isNull = false → ∃ a, f v = .ok a) :
    (rows.map (stored f)).map Option.isSome = rows.map fun v => !v.isNull := by
  rw [List.map_map]
  apply List.map_congr_left
  intro v hv
  cases missing : v.isNull with
  | true => simp [stored, missing]
  | false =>
    obtain ⟨a, ha⟩ := h v hv missing
    simp [stored_of_ok missing ha]

theorem intSlot_length {type : LogicalType} {k : IntKind} {n : Int} {v : Value} {slot : List UInt8}
    (h : type.intSlot k n v = .ok slot) : slot.length = k.bytes := by
  unfold intSlot at h
  split at h
  · cases h
    exact Word.toBytes_length _
  · cases h

theorem timestampSlot_length {type : LogicalType} {unit : TimestampUnit} {v : Value}
    {slot : List UInt8} (h : type.timestampSlot unit v = .ok slot) : slot.length = 8 := by
  unfold timestampSlot at h
  split at h
  · exact intSlot_length h
  · exact intSlot_length h
  · split at h
    · exact intSlot_length h
    · cases h
      exact Word.toBytes_length _
  · cases h

theorem packedSlot_length {t : TimeTz} {slot : List UInt8} (h : packedSlot t = .ok slot) :
    slot.length = 8 := by
  unfold packedSlot at h
  split at h
  · cases h
    exact Word.toBytes_length _
  · cases h

/-- Every slot is as wide as the slots of its type. -/
theorem slotOf_length {type : LogicalType} {v : Value} {slot : List UInt8}
    (h : type.slotOf v = .ok slot) : type.storage.slotWidth? = some slot.length := by
  cases type with
  | decimal width scale =>
    obtain ⟨n, -, h⟩ := Result.bind_eq_ok.mp h
    exact congrArg some (intSlot_length h).symm
  | enum dictionary =>
    obtain ⟨n, -, h⟩ := Result.bind_eq_ok.mp h
    exact congrArg some (intSlot_length h).symm
  | scalar kind =>
    unfold slotOf at h
    dsimp only at h
    split at h
    case h_6 =>
      obtain ⟨n, -, h⟩ := Result.bind_eq_ok.mp h
      exact congrArg some (intSlot_length h).symm
    case h_11 => exact congrArg some (packedSlot_length h).symm
    case h_12 => exact congrArg some (timestampSlot_length h).symm
    case h_15 => cases h
    all_goals
      cases h
      simp [storage, LogicalType.kind, Kind.slotWidth?, IntKind.bytes, FloatFormat.bytes]
  | _ => cases h

end LogicalType

namespace NativeVector

open LogicalType

/-- Without slots and children, a bitmap made from flags is long enough. -/
theorem bare_flags {type : LogicalType} (h : type.check = .ok ()) (flags : List Bool) :
    bare type flags.length (Bitmap.ofFlags flags) =
      .ok ⟨type, flags.length, #[], Bitmap.ofFlags flags, #[], [], 0⟩ := by
  unfold bare Bitmap.ofFlags
  rw [h]
  split_ifs
  · rfl
  · simp

theorem bare_present {type : LogicalType} (h : type.check = .ok ()) (rows : List Value) :
    bare type rows.length (present rows) =
      .ok ⟨type, rows.length, #[], present rows, #[], [], 0⟩ := by
  have made := bare_flags h (rows.map fun v => !v.isNull)
  rwa [List.length_map] at made

theorem bit?_present {n : NativeVector} {rows : List Value} (h : n.bitmap = present rows) {row : Nat}
    (hrow : row < rows.length) : n.bit? row = some !rows[row].isNull := by
  have inside : row < (rows.map fun v => !v.isNull).length := by rwa [List.length_map]
  unfold bit?
  rw [h, present, Bitmap.rowBit?_ofFlags inside, List.getElem_map]

/-- Rows that hold a value are read, the others are null. -/
theorem read_present {n : NativeVector} {rows : List Value} (h : n.bitmap = present rows)
    (type : LogicalType) {row : Nat} (hrow : row < rows.length) :
    n.read type row = if rows[row].isNull then .ok .null else n.readPresent type row := by
  unfold read whenPresent
  rw [bit?_present h hrow]
  cases rows[row].isNull <;> rfl

/-- The vector has the given type, and reading its rows has the given answers. -/
structure Answers (n : NativeVector) (type : LogicalType) (answers : List (Result Value)) : Prop where
  typed : n.HasType type
  rows : n.rows = answers.length
  covers : n.Covers type answers.length
  reads (row : Nat) (h : row < answers.length) : n.read type row = answers[row]

/-- It is enough to know the answers for the rows that hold a value. -/
theorem Answers.of_present {type : LogicalType} {n : NativeVector} {rows : List Value}
    {answer : Value → Result Value} (typed : n.HasType type) (hr : n.rows = rows.length)
    (covers : n.Covers type rows.length) (hb : n.bitmap = present rows)
    (missing : answer .null = .ok .null)
    (reads : ∀ (row : Nat) (h : row < rows.length), rows[row].isNull = false →
      n.readPresent type row = answer rows[row]) : n.Answers type (rows.map answer) := by
  refine ⟨typed, by rw [hr, List.length_map], by rwa [List.length_map], ?_⟩
  intro row h
  have hrow : row < rows.length := by rwa [List.length_map] at h
  rw [read_present hb type hrow, List.getElem_map]
  cases hv : rows[row] with
  | null => rw [missing]; rfl
  | _ =>
    have found := reads row hrow (by rw [hv]; rfl)
    rw [hv] at found
    exact found

/-- The vector has the given type and reads as `values`. -/
structure Holds (n : NativeVector) (type : LogicalType) (values : List Value) : Prop where
  typed : n.HasType type
  rows : n.rows = values.length
  covers : n.Covers type values.length
  reads (row : Nat) (h : row < values.length) : n.read type row = .ok values[row]

theorem holds_iff_answers {n : NativeVector} {type : LogicalType} {values : List Value} :
    n.Holds type values ↔ n.Answers type (values.map .ok) := by
  constructor
  · rintro ⟨typed, rows, covers, reads⟩
    refine ⟨typed, by rwa [List.length_map], by rwa [List.length_map], fun row h => ?_⟩
    rw [List.getElem_map]
    exact reads row (by rwa [List.length_map] at h)
  · rintro ⟨typed, rows, covers, reads⟩
    rw [List.length_map] at rows covers
    refine ⟨typed, rows, covers, fun row h => ?_⟩
    rw [reads row (by rwa [List.length_map]), List.getElem_map]

/-- It is enough to know what the rows that hold a value read as. -/
theorem Holds.of_present {type : LogicalType} {n : NativeVector} {rows : List Value}
    {value : Value → Value} (typed : n.HasType type) (hr : n.rows = rows.length)
    (covers : n.Covers type rows.length) (hb : n.bitmap = present rows)
    (missing : value .null = .null)
    (reads : ∀ (row : Nat) (h : row < rows.length), rows[row].isNull = false →
      n.readPresent type row = .ok (value rows[row])) : n.Holds type (rows.map value) := by
  rw [holds_iff_answers, List.map_map]
  exact .of_present typed hr covers hb (congrArg Except.ok missing) reads

/-- A vector of a kind without children. -/
theorem Holds.leaf {type : LogicalType} (leaf : type.kind.isNested = false) {n : NativeVector}
    {rows : List Value} (ht : n.type = type) (hr : n.rows = rows.length)
    (hb : n.bitmap = present rows)
    (reads : ∀ (row : Nat) (h : row < rows.length), rows[row].isNull = false →
      n.leafAt type row = .ok rows[row]) : n.Holds type rows := by
  have holds : n.Holds type (rows.map id) := by
    refine .of_present (hasType_leaf leaf ht) hr (covers_leaf leaf n _) hb rfl ?_
    intro row hrow present
    rw [readPresent_leaf leaf]
    exact reads row hrow present
  rwa [List.map_id] at holds

theorem bit?_nulls {rows row : Nat} (h : row < rows) : (nulls rows).bit? row = some false := by
  have word : row / 64 < Bitmap.wordCount rows := by
    have := Bitmap.wordCount_mul rows
    omega
  unfold nulls bit?
  simp only [Bitmap.rowBit?, Bitmap.bit?, Array.getElem?_replicate, word, if_true, Option.map_some]
  exact congrArg some BitVec.getLsbD_zero

theorem nulls_holds {rows : List Value} (h : ∀ v ∈ rows, v = .null) :
    (nulls rows.length).Holds (.scalar .null) rows := by
  refine ⟨rfl, rfl, trivial, ?_⟩
  intro row hrow
  unfold read whenPresent
  rw [bit?_nulls hrow, h _ (List.getElem_mem hrow)]
  rfl

/-- Slots that are given as they are, with a flag for each. -/
theorem ofSlots_flags {type : LogicalType} (valid : type.check = .ok ()) (slotted : type.isSlotted)
    {width : Nat} (hw : type.storage.slotWidth? = some width) {slots : List (List UInt8)}
    (wide : ∀ slot ∈ slots, slot.length = width) (flags : List Bool)
    (count : slots.length = flags.length) (fits : flags.length * width < sizeModulus) :
    ofSlots type flags.length slots.flatten (Bitmap.ofFlags flags) =
      .ok ⟨type, flags.length, slots.flatten.toArray, Bitmap.ofFlags flags, #[], [], 0⟩ := by
  have size := length_flatten_uniform wide
  rw [count] at size
  unfold ofSlots
  simp only [hw, storage_of_slotted slotted, size, bare_flags valid]
  rw [if_neg Bool.false_ne_true, if_neg (Nat.not_le.mpr fits), if_neg (not_not.mpr rfl)]
  rfl

/-- Slots of all rows, for values that can be written. -/
theorem ofSlotValues_ok {type : LogicalType} (valid : type.check = .ok ()) (slotted : type.isSlotted)
    {width : Nat} (hw : type.storage.slotWidth? = some width) {rows : List Value}
    (written : ∀ v ∈ rows, v.isNull = false → ∃ slot, type.slotOf v = .ok slot)
    (fits : rows.length * width < sizeModulus) :
    ∃ n, ofSlotValues type rows = .ok n ∧ n.type = type ∧ n.rows = rows.length ∧
      n.bitmap = present rows ∧ ∀ (row : Nat) (h : row < rows.length) (slot : List UInt8),
        rows[row].isNull = false → type.slotOf rows[row] = .ok slot →
          n.slot? width row = some slot := by
  let cell (v : Value) : List UInt8 := (stored type.slotOf v).getD (List.replicate width 0)
  have wide : ∀ slot ∈ rows.map cell, slot.length = width := by
    intro slot hslot
    obtain ⟨v, -, rfl⟩ := List.mem_map.mp hslot
    simp only [cell]
    cases hv : stored type.slotOf v with
    | none => exact List.length_replicate
    | some slot =>
      have same := slotOf_length (ok_of_stored hv)
      rw [hw, Option.some_inj] at same
      exact same.symm
  refine ⟨⟨type, rows.length, (rows.map cell).flatten.toArray, present rows, #[], [], 0⟩, ?_, rfl,
    rfl, rfl, ?_⟩
  · have cells : (rows.map (stored type.slotOf)).map
        (fun slot => slot.getD (List.replicate width 0)) = rows.map cell := List.map_map
    have made := ofSlots_flags valid slotted hw wide (rows.map fun v => !v.isNull) (by simp)
      (by rwa [List.length_map])
    rw [List.length_map] at made
    unfold ofSlotValues
    simp only [hw, mapPresent_ok written, Result.ok_bind, Option.getD_some, cells]
    exact made
  · intro row hrow slot present hs
    have inside : row < (rows.map cell).length := by rwa [List.length_map]
    rw [slot?_flatten wide rfl inside, List.getElem_map]
    simp only [cell, stored_of_ok present hs, Option.getD_some]

/-- A vector of slots, for values that have slots. -/
theorem ofSlotValues_holds {type : LogicalType} (valid : type.check = .ok ())
    (slotted : type.isSlotted) {width : Nat} (hw : type.storage.slotWidth? = some width)
    {rows : List Value} (h : ∀ v ∈ rows, v = .null ∨ type.HasSlot v)
    (fits : rows.length * width < sizeModulus) :
    ∃ n, ofSlotValues type rows = .ok n ∧ n.Holds type rows := by
  have written : ∀ v ∈ rows, v.isNull = false → ∃ slot, type.slotOf v = .ok slot := by
    intro v hv present
    rcases h v hv with rfl | ⟨slot, -, hs, -⟩
    · contradiction
    · exact ⟨slot, hs⟩
  obtain ⟨n, hn, ht, hr, hb, slots⟩ := ofSlotValues_ok valid slotted hw written fits
  refine ⟨n, hn, Holds.leaf (leaf_of_slotted slotted) ht hr hb ?_⟩
  intro row hrow present
  rcases h _ (List.getElem_mem hrow) with missing | ⟨slot, width', hs, hw', -, hread⟩
  · rw [missing] at present
    contradiction
  · obtain rfl : width = width' := by simpa [hw] using hw'
    exact hread _ _ (slots row hrow slot present hs)

theorem ofValues_slotted {type : LogicalType} (valid : type.check = .ok ())
    (slotted : type.isSlotted) (rows : List Value) : ofValues type rows = ofSlotValues type rows := by
  cases type with
  | scalar kind =>
    have null : kind ≠ .null := by
      rintro rfl
      cases slotted
    have string : kind.isStringLike = false := by
      cases kind <;> first | rfl | cases slotted
    simp only [ofValues, valid, null, string, if_false, Bool.false_eq_true]
  | decimal width scale => simp only [ofValues, valid]
  | enum dictionary => simp only [ofValues, valid]
  | _ => cases slotted

theorem ofValues_stringLike {kind : Kind} (string : kind.isStringLike) (rows : List Value) :
    ofValues (scalar kind) rows = ofPayloadValues (scalar kind) rows := by
  have valid := check_of_stringLike string
  have null : kind ≠ .null := by
    rintro rfl
    cases string
  simp only [ofValues, valid, null, string, if_false, if_true]

/-- Payloads shorter than 4 GiB have slots from which they are found again. The long ones are added
behind those that the heap has already. -/
theorem stringSlots_ok {cells : List (Option (List UInt8))} (heap : Array (List UInt8))
    (short : ∀ payload, some payload ∈ cells → payload.length < 0x100000000)
    (fits : heap.size + cells.length < sizeModulus) :
    ∃ slots long, stringSlots heap cells = .ok (slots, heap ++ long) ∧
      List.Forall₂ (fun cell slot => slot.length = 16 ∧ ∀ payload, cell = some payload →
        StringSlot.decode? (heap ++ long) slot = some payload) cells slots := by
  induction cells generalizing heap with
  | nil => exact ⟨[], #[], by rw [Array.append_empty]; rfl, .nil⟩
  | cons cell rest ih =>
    have shortRest : ∀ payload, some payload ∈ rest → payload.length < 0x100000000 :=
      fun payload hp => short payload (List.mem_cons_of_mem _ hp)
    rw [List.length_cons] at fits
    cases cell with
    | none =>
      obtain ⟨slots, long, hs, hr⟩ := ih heap shortRest (by omega)
      refine ⟨List.replicate 16 0 :: slots, long, ?_, .cons ⟨rfl, nofun⟩ hr⟩
      rw [stringSlots, hs]
      rfl
    | some payload =>
      obtain ⟨slot, hslot, hl, hd⟩ :=
        StringSlot.encode_decode? (short payload List.mem_cons_self) heap.size
      by_cases outside : StringSlot.inlineLength < payload.length
      · obtain ⟨slots, long, hs, hr⟩ := ih (heap.push payload) shortRest
          (by rw [Array.size_push]; omega)
        rw [Array.push_eq_append, Array.append_assoc] at hs hr
        refine ⟨slot :: slots, #[payload] ++ long, ?_, .cons ⟨hl, ?_⟩ hr⟩
        · simp only [stringSlots, hslot, Result.ok_bind, outside, if_true, Array.push_eq_append, hs]
          rfl
        · rintro _ ⟨⟩
          apply hd
          intro _
          refine ⟨by omega, ?_⟩
          rw [Array.getElem?_append_right (Nat.le_refl _), Nat.sub_self,
            Array.getElem?_append_left Nat.one_pos]
          rfl
      · obtain ⟨slots, long, hs, hr⟩ := ih heap shortRest (by omega)
        refine ⟨slot :: slots, long, ?_, .cons ⟨hl, ?_⟩ hr⟩
        · simp only [stringSlots, hslot, Result.ok_bind, outside, if_false, hs]
          rfl
        · rintro _ ⟨⟩
          exact hd _ fun inside => absurd inside outside

/-- A slot for each string, and no payload of 4 GiB. -/
theorem stringSlots_shape {heap : Array (List UInt8)} {cells : List (Option (List UInt8))}
    {slots : List (List UInt8)} {long : Array (List UInt8)}
    (h : stringSlots heap cells = .ok (slots, long)) :
    slots.length = cells.length ∧ (∀ slot ∈ slots, slot.length = 16) ∧
      ∀ payload, some payload ∈ cells → payload.length < 0x100000000 := by
  induction cells generalizing heap slots with
  | nil =>
    cases h
    exact ⟨rfl, List.forall_mem_nil _, fun _ none => absurd none List.not_mem_nil⟩
  | cons cell rest ih =>
    cases cell with
    | none =>
      obtain ⟨⟨others, long'⟩, ho, h⟩ := Result.bind_eq_ok.mp h
      cases h
      obtain ⟨count, wide, short⟩ := ih ho
      refine ⟨congrArg Nat.succ count, List.forall_mem_cons.mpr ⟨List.length_replicate, wide⟩, ?_⟩
      intro payload hp
      exact short payload (by simpa using hp)
    | some payload =>
      obtain ⟨slot, hs, h⟩ := Result.bind_eq_ok.mp h
      obtain ⟨⟨others, long'⟩, ho, h⟩ := Result.bind_eq_ok.mp h
      cases h
      obtain ⟨count, wide, shortRest⟩ := ih ho
      have short : payload.length < 0x100000000 := by
        by_contra tooLong
        rw [StringSlot.encode, if_pos (Nat.not_lt.mp tooLong)] at hs
        cases hs
      obtain ⟨slot', hs', first, -⟩ := StringSlot.encode_decode? short heap.size
      rw [hs] at hs'
      cases hs'
      refine ⟨congrArg Nat.succ count, List.forall_mem_cons.mpr ⟨first, wide⟩, ?_⟩
      intro other ho
      rcases List.mem_cons.mp ho with same | ho
      · rwa [Option.some_inj.mp same]
      · exact shortRest other ho

/-- The payloads of all rows, as long as each of them is below 4 GiB. -/
theorem ofPayloads_ok {kind : Kind} (string : kind.isStringLike)
    {cells : List (Option (List UInt8))}
    (short : ∀ payload, some payload ∈ cells → payload.length < 0x100000000)
    (fits : cells.length < sizeModulus) :
    ∃ n, ofPayloads (scalar kind) cells = .ok n ∧ n.type = scalar kind ∧ n.rows = cells.length ∧
      n.bitmap = Bitmap.ofFlags (cells.map Option.isSome) ∧
      ∀ (row : Nat) (h : row < cells.length) (payload : List UInt8), cells[row] = some payload →
        n.payload? row = some payload := by
  obtain ⟨slots, long, hslots, found⟩ := stringSlots_ok #[] short (by simpa using fits)
  rw [Array.empty_append] at hslots found
  have wide : ∀ slot ∈ slots, slot.length = 16 := by
    intro slot hslot
    obtain ⟨i, hi, rfl⟩ := List.getElem_of_mem hslot
    exact (found.get (by rwa [found.length_eq]) hi).1
  refine ⟨⟨scalar kind, cells.length, slots.flatten.toArray,
    Bitmap.ofFlags (cells.map Option.isSome), long, [], 0⟩, ?_, rfl, rfl, rfl, ?_⟩
  · have bare := bare_flags (check_of_stringLike string) (cells.map Option.isSome)
    rw [List.length_map] at bare
    have payloads : (scalar kind).kind.isStringLike = true := string
    unfold ofPayloads
    rw [if_pos payloads, bare, hslots]
    rfl
  · intro row hrow payload hp
    have inside : row < slots.length := by rwa [← found.length_eq]
    have decoded := (found.get hrow inside).2 payload hp
    unfold payload?
    rw [slot?_flatten wide rfl inside]
    exact decoded

/-- Payloads of all rows, for values that can be written. -/
theorem ofPayloadValues_ok {kind : Kind} (string : kind.isStringLike) {rows : List Value}
    (written : ∀ v ∈ rows, v.isNull = false →
      ∃ payload, (scalar kind).payloadOf v = .ok payload ∧ payload.length < 0x100000000)
    (fits : rows.length < sizeModulus) :
    ∃ n, ofPayloadValues (scalar kind) rows = .ok n ∧ n.type = scalar kind ∧ n.rows = rows.length ∧
      n.bitmap = present rows ∧ ∀ (row : Nat) (h : row < rows.length) (payload : List UInt8),
        rows[row].isNull = false → (scalar kind).payloadOf rows[row] = .ok payload →
          n.payload? row = some payload := by
  have writes : ∀ v ∈ rows, v.isNull = false → ∃ payload, (scalar kind).payloadOf v = .ok payload :=
    fun v hv present => (written v hv present).imp fun _ h => h.1
  have short : ∀ payload, some payload ∈ rows.map (stored (scalar kind).payloadOf) →
      payload.length < 0x100000000 := by
    intro payload hp
    obtain ⟨v, hv, hs⟩ := List.mem_map.mp hp
    have there : v.isNull = false := by
      cases null : v.isNull with
      | false => rfl
      | true =>
        rw [stored, if_pos null] at hs
        cases hs
    obtain ⟨payload', found, short⟩ := written v hv there
    rw [stored_of_ok there found, Option.some_inj] at hs
    rwa [← hs]
  obtain ⟨n, hn, ht, hr, hb, payloads⟩ := ofPayloads_ok string short (by rwa [List.length_map])
  rw [List.length_map] at hr
  rw [isSome_stored writes] at hb
  refine ⟨n, ?_, ht, hr, hb, fun row hrow payload present hp => ?_⟩
  · rw [ofPayloadValues, mapPresent_ok writes, Result.ok_bind, hn]
  · refine payloads row (by rwa [List.length_map]) payload ?_
    rw [List.getElem_map, stored_of_ok present hp]

/-- A vector of payloads, for values that have payloads. -/
theorem ofPayloadValues_holds {kind : Kind} (string : kind.isStringLike) {rows : List Value}
    (h : ∀ v ∈ rows, v = .null ∨ (scalar kind).HasPayload v)
    (short : ∀ v ∈ rows, ∀ payload, (scalar kind).payloadOf v = .ok payload →
      payload.length < 0x100000000) (fits : rows.length < sizeModulus) :
    ∃ n, ofPayloadValues (scalar kind) rows = .ok n ∧ n.Holds (scalar kind) rows := by
  have written : ∀ v ∈ rows, v.isNull = false →
      ∃ payload, (scalar kind).payloadOf v = .ok payload ∧ payload.length < 0x100000000 := by
    intro v hv present
    rcases h v hv with rfl | ⟨payload, hp, -⟩
    · contradiction
    · exact ⟨payload, hp, short v hv payload hp⟩
  obtain ⟨n, hn, ht, hr, hb, payloads⟩ := ofPayloadValues_ok string written fits
  refine ⟨n, hn, Holds.leaf (leaf_of_stringLike string) ht hr hb ?_⟩
  intro row hrow present
  rcases h _ (List.getElem_mem hrow) with missing | ⟨payload, hp, hread⟩
  · rw [missing] at present
    contradiction
  · exact hread _ _ (payloads row hrow payload present hp)

end NativeVector
end TypedColumns
