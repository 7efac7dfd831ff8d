import TypedColumns.Proofs.ArrowReadBack
import TypedColumns.Proofs.StoredChildren

/-!
Dictionary arrays of texts become ENUM columns, alone and inside of other arrays. The codes of the
column are those of the array even where entries are repeated, so that a row is read as the entry that
its own code points at.
-/
namespace TypedColumns

open LogicalType NativeVector

/-- A view of an ENUM column that is read as the values, each of them null or a name of the
dictionary; the names are read as texts too. -/
structure ColumnView.ReadsNames (view : ColumnView) (dictionary : Array String)
    (vals : List Value) : Prop where
  typed : view.column.type = .enum dictionary
  rows : view.rows = vals.length
  boxed : ∃ plan, view.column.resolveBoxed = .ok plan ∧ plan.prepare view = .ok plan ∧
    ∀ (row : Nat) (h : row < vals.length), plan.convert view row true = .ok vals[row]
  text : ∃ plan, view.column.resolve .string = .ok plan ∧ plan.prepare view = .ok plan ∧
    ∀ (row : Nat) (h : row < vals.length),
      vals[row] = .null ∧ view.isValid row = .ok false ∨
      ∃ name ∈ dictionary, vals[row] = .enum name ∧ view.isValid row = .ok true ∧
        plan.convert view row true = .ok name

theorem Reader.enumName_mem {dictionary : Array String} {view : ColumnView} {row : Nat} {name : String}
    (h : Reader.enumName dictionary view row = .ok name) : name ∈ dictionary := by
  obtain ⟨⟨code, found⟩, hm, h⟩ := Result.bind_eq_ok.mp h
  cases h
  obtain ⟨code', -, hm⟩ := Result.bind_eq_ok.mp hm
  split at hm
  · next there =>
    cases hm
    exact Array.mem_of_getElem? there
  · cases hm

/-- Rows of an ENUM column that are made from values are read as the names that these are stored as. -/
theorem ColumnView.Keeps.readsNames {view : ColumnView} {dictionary : Array String}
    {rows xs : List Value} (h : view.Keeps (.enum dictionary) rows xs) :
    view.ReadsNames dictionary xs := by
  have count : view.rows = xs.length := h.count.trans h.stored.length_eq
  let names : Reader String := Reader.enumName dictionary
  let plan : Converter Target.value :=
    .ofReading (.enum dictionary) (.closed (names.map fun name => .ok (.enum name))) false
  let text : Converter Target.string := .ofReading (.enum dictionary) (.closed names) false
  have hplan : view.column.resolveBoxed = .ok plan := by
    rw [Column.resolveBoxed, h.typed]
    rfl
  have htext : view.column.resolve .string = .ok text := by
    unfold Column.resolve Column.checkTarget
    rw [h.typed]
    rfl
  obtain ⟨plan', conv, hplan', hconv, holds, reads⟩ := h.boxed rfl
  obtain rfl : plan = plan' := Except.ok.inj (hplan.symm.trans hplan')
  obtain rfl : plan = conv := Except.ok.inj hconv
  refine ⟨h.typed, count, ⟨plan, hplan, rfl, reads⟩, text, htext, rfl, fun row inside => ?_⟩
  have there : row < view.rows := by rwa [count]
  have here : row < rows.length := h.count ▸ there
  have valid := isValid_inside there
  have kind : plan.kind = (LogicalType.enum dictionary).kind := rfl
  have textKind : text.kind = (LogicalType.enum dictionary).kind := rfl
  have found := reads row inside
  rw [plan.convert_boxed kind rfl rfl rfl h.typed there] at found
  have bit := (bits_of_ofValues h.made).2.2 row here
  unfold whenPresent at found
  rw [bit] at valid found
  cases flag : flagOf (.enum dictionary) rows[row] with
  | false =>
    rw [flag] at valid found
    exact .inl ⟨(Except.ok.inj found).symm, valid⟩
  | true =>
    rw [flag] at valid found
    have found : (names.map fun name => .ok (Value.enum name)) view row = .ok xs[row] := found
    obtain ⟨name, hn, hx⟩ := Result.bind_eq_ok.mp found
    refine .inr ⟨name, Reader.enumName_mem hn, (Except.ok.inj hx).symm, valid, ?_⟩
    rw [text.convert_closed textKind rfl rfl h.typed there]
    unfold whenPresent
    rw [bit, flag]
    exact hn

namespace Arrow.PhysicalArray

variable {α : Type}

/-- The texts of a dictionary, in order. -/
def entryTexts : PhysicalArray → List String
  | utf8 _ cells => cells.map Cell.content
  | _ => []

/-- The entry that a code points at. -/
def entryAt (entries : PhysicalArray) (code : Int) : String := entries.entryTexts[code.toNat]?.getD ""

/-- Codes that point into a dictionary of texts, none of which is missing. Codes of missing rows may be
anything. -/
structure Labels {k : IntKind} (codes : List (Cell (Word k))) (entries : PhysicalArray) : Prop where
  texts : ∃ layout cells, entries = utf8 layout cells ∧ layout ≠ .views ∧ ∀ cell ∈ cells, cell.valid
  some : 0 < entries.rows
  /-- An ENUM has no more names than 32 bits can tell apart. -/
  few : entries.rows < 0x100000000
  inside : OnValid (fun code => 0 ≤ code.val ∧ code.val < (entries.rows : Int)) codes
  /-- Slots of all rows fit in the memory. -/
  room : codes.length * 16 < sizeModulus

/-- A dictionary array that an ENUM column can hold. -/
inductive Labelled : PhysicalArray → Prop where
  | dictionary {k : IntKind} {codes : List (Cell (Word k))} {entries : PhysicalArray}
    (h : Labels codes entries) : Labelled (dictionary k codes entries)

mutual

/-- The value at a row, where the codes of dictionaries stand for their entries. -/
def labelled : PhysicalArray → (row : Nat) → Value
  | dictionary _ codes entries, row =>
    cellAt (fun code => .enum (entries.entryAt code.val)) codes row
  | list _ _ offsets valid child, row =>
    whereValid valid row (.list ((spanRows offsets row).map (labelled child)))
  | fixedList _ size valid child, row =>
    whereValid valid row (.list ((List.range' (row * size) size).map (labelled child)))
  | struct fields valid, row => whereValid valid row (.struct (labelledFields fields row))
  | map _ _ _ offsets valid key value, row => whereValid valid row
      (.map ((spanRows offsets row).map fun j => (labelled key j, labelled value j)))
  | a, row => a.element row

def labelledFields : List (String × PhysicalArray) → (row : Nat) → List (String × Value)
  | [], _ => []
  | (name, a) :: rest, row => (name, labelled a row) :: labelledFields rest row

end

theorem labelledFields_eq (fields : List (String × PhysicalArray)) (row : Nat) :
    labelledFields fields row = (fields.map Prod.fst).zip
      ((fields.map fun field => field.2.labelled).map fun content => content row) := by
  induction fields with
  | nil => rfl
  | cons field rest ih =>
    rw [labelledFields, ih]
    rfl

theorem labelled_storable {a : PhysicalArray} (bare : a.isNested = false) (h : a.Storable) :
    a.labelled = a.element := by
  cases a with
  | list _ _ _ _ _ | fixedList _ _ _ _ | struct _ _ | map _ _ _ _ _ _ _ => cases bare
  | dictionary _ _ _ => exact h.inRange.elim
  | _ => rfl

theorem names_eq {cells : List (Cell String)} (complete : ∀ cell ∈ cells, cell.valid)
    (position : Nat) : names position cells = .ok (cells.map Cell.content) := by
  induction cells generalizing position with
  | nil => rfl
  | cons cell rest ih =>
    obtain ⟨here, others⟩ := List.forall_mem_cons.mp complete
    rw [names, if_pos here, ih others]
    rfl

section Labels

variable {k : IntKind} {codes : List (Cell (Word k))} {entries : PhysicalArray}

theorem Labels.names (h : Labels codes entries) : dictionaryNames entries = .ok entries.entryTexts ∧
    entries.entryTexts.length = entries.rows := by
  obtain ⟨layout, cells, rfl, stored, complete⟩ := h.texts
  refine ⟨?_, by rw [entryTexts, PhysicalArray.rows, validity, List.length_map, List.length_map]⟩
  cases layout with
  | views => exact absurd rfl stored
  | _ => exact names_eq complete 0

theorem Labels.valid (h : Labels codes entries) :
    (LogicalType.enum entries.entryTexts.toArray).check = .ok () := by
  rw [LogicalType.check, List.size_toArray, h.names.2, if_pos h.few]

/-- A code is stored as the entry that it points at. -/
theorem code_stored (h : Labels codes entries) {code : Int} (lower : 0 ≤ code)
    (upper : code < entries.rows) : ∃ v, codeValue entries.rows code = .ok v ∧
      StoredAs (.enum entries.entryTexts.toArray) v (.enum (entries.entryAt code)) := by
  obtain ⟨n, rfl⟩ := Int.eq_ofNat_of_zero_le lower
  have below : n < entries.entryTexts.length := by
    rw [h.names.2]
    omega
  have few := h.few
  have holds : IntKind.u32.Holds n := by
    simp only [IntKind.Holds, IntKind.min, IntKind.max]
    omega
  let word : Word .u32 := ⟨n, holds⟩
  have value : codeValue entries.rows n = .ok (.int .u32 word) := by
    have same : position entries.rows n = n := if_pos ⟨lower, upper⟩
    have found : Word.ofInt? .u32 n = some word := dif_pos holds
    rw [codeValue, same]
    simp only [found]
  let dictionary := entries.entryTexts.toArray
  let slot : Word (enumStorage dictionary.size) :=
    ⟨n, enumStorage_holds h.valid (by rwa [List.size_toArray])⟩
  have slots := enum_wordSlots h.valid
  have read : enumValue dictionary slot.val.toNat = .ok (.enum (entries.entryAt n)) := by
    simp [enumValue, entryAt, dictionary, slot, below]
  have written : (LogicalType.enum dictionary).slotOf (.int .u32 word) = .ok slot.toBytes := by
    have wide : IntKind.i128.Holds n := by
      simp only [IntKind.Holds, IntKind.min, IntKind.max]
      omega
    have number : (Value.int .u32 word).int? = some ⟨n, wide⟩ := dif_pos wide
    have code : (LogicalType.enum dictionary).codeOf dictionary (.int .u32 word) = .ok slot.val := by
      simp only [codeOf, Value.string?, intOf, number, slot]
    rw [slotOf, code, Result.ok_bind]
    exact intSlot_val _ slot _
  have reads : (LogicalType.enum dictionary).SlotReads (.int .u32 word) (.enum (entries.entryAt n)) := by
    refine ⟨slot.toBytes, _, written, rfl, fun v row found => ?_⟩
    rw [slots.reads, wordAt_of_slot found, Result.ok_bind, read]
  have canonical := canonical_of_hasSlot h.valid rfl rfl (slots.hasSlot_of_word read)
  exact ⟨_, value, (storedAs_leaf rfl).mpr ⟨canonical, .inr ⟨rfl, rfl, rfl, reads⟩⟩⟩

theorem faithful_dictionary (h : Labels codes entries) : ∃ vals,
    (dictionary k codes entries).Faithful (dictionary k codes entries).labelled
      (.enum entries.entryTexts.toArray) vals := by
  have typed : (dictionary k codes entries).logicalType =
      .ok (.enum entries.entryTexts.toArray) := by
    rw [logicalType, h.names.1]
    rfl
  have some : entries.rows ≠ 0 := Nat.pos_iff_ne_zero.mp h.some
  have room : (dictionary k codes entries).rows * 16 < sizeModulus := by
    rw [PhysicalArray.rows, validity, List.length_map]
    exact h.room
  refine faithful_of_cells typed rfl (fun _ => rfl) (if_neg some) h.valid rfl room ?_ ?_
  · exact fun cell hc there => code_stored h (h.inside cell hc there).1 (h.inside cell hc there).2
  · exact fun _ _ _ => shortPayload_of_plain rfl _

end Labels

theorem Labelled.room {a : PhysicalArray} (h : a.Labelled) : a.rows * 16 < sizeModulus := by
  obtain ⟨h⟩ := h
  rw [PhysicalArray.rows, validity, List.length_map]
  exact h.room

/-- The children of an array that is not a dictionary are laid out as it needs. -/
theorem laid_of_nested {a : PhysicalArray} (nested : a.isNested)
    (h : a.Storable ∨ a.Labelled) : a.Laid := by
  rcases h with h | h
  · exact h.laid
  · cases h
    cases nested

theorem room_of {a : PhysicalArray} (h : a.Storable ∨ a.Labelled) : a.rows * 16 < sizeModulus :=
  h.elim Storable.room Labelled.room

/-- Arrays with dictionaries in them become values that are stored as the entries. -/
theorem faithful_labelled {a : PhysicalArray} (h : a.Everywhere fun b => b.Storable ∨ b.Labelled) :
    ∃ type vals, a.Faithful a.labelled type vals := by
  induction h with
  | leaf bare here =>
    rcases here with here | here
    · rw [labelled_storable bare here]
      exact faithful_leaf bare here
    · obtain ⟨h⟩ := here
      exact ⟨_, faithful_dictionary h⟩
  | list here inside ih =>
    obtain ⟨type, vals, child⟩ := ih
    exact ⟨_, faithful_list child (laid_of_nested rfl here) (room_of inside.here)⟩
  | fixedList here inside ih =>
    obtain ⟨type, vals, child⟩ := ih
    exact ⟨_, faithful_fixedList child (laid_of_nested rfl here) (room_of inside.here)⟩
  | @struct fields valid here _ ih =>
    obtain ⟨members, columns, each⟩ := faithfulFields_of_faithful ih
    obtain ⟨vals, whole⟩ := faithful_struct each (laid_of_nested rfl here)
    refine ⟨.struct members, vals, ?_⟩
    simp only [← labelledFields_eq] at whole
    exact whole
  | map here keys _ ihk ihw =>
    obtain ⟨keyType, keyVals, key⟩ := ihk
    obtain ⟨valueType, vals, value⟩ := ihw
    have laid := laid_of_nested rfl here
    exact ⟨_, faithful_map key value laid.1 laid.2 (room_of keys.here)⟩

theorem labelled_eq_null_iff {a : PhysicalArray} (h : a.Storable ∨ a.Labelled) {row : Nat}
    (inside : row < a.rows) : a.labelled row = .null ↔ a.isNullAt row = true := by
  rcases h with h | h
  · by_cases nested : a.isNested
    · cases a with
      | list _ _ _ valid _ | fixedList _ _ valid _ | struct _ valid | map _ _ _ _ valid _ _ =>
        exact whereValid_eq_null_iff rfl inside
      | _ => cases nested
    · rw [labelled_storable (Bool.eq_false_iff.mpr nested) h]
      exact element_eq_null_iff h inside
  · cases h
    exact cellAt_eq_null_iff (fun _ _ _ => rfl) inside

/-- The array inside of another one that a step leads to; the entries of a map are structs. -/
def child? : PhysicalArray → ViewStep → Option PhysicalArray
  | list _ _ _ _ child, .list | fixedList _ _ _ child, .array => some child
  | map _ _ _ _ _ key value, .list =>
    some (struct [("key", key), ("value", value)] (List.replicate key.rows true))
  | struct fields _, .member i => fields[i]?.map Prod.snd
  | _, _ => none

/-- The array at the end of a path. -/
def part? (a : PhysicalArray) : List ViewStep → Option PhysicalArray
  | [] => some a
  | step :: rest => do (← a.child? step).part? rest

theorem memberType_of_field {fields : List (String × PhysicalArray)}
    {members : List (String × LogicalType)} (typed : memberTypes fields = .ok members) {i : Nat}
    {field : String × PhysicalArray} (hf : fields[i]? = some field) :
    ∃ type, members[i]? = some (field.1, type) ∧ field.2.logicalType = .ok type := by
  induction fields generalizing members i with
  | nil => cases hf
  | cons first rest ih =>
    obtain ⟨type, ht, typed⟩ := Result.bind_eq_ok.mp typed
    obtain ⟨members, hm, typed⟩ := Result.bind_eq_ok.mp typed
    cases typed
    cases i with
    | zero =>
      cases hf
      exact ⟨type, rfl, ht⟩
    | succ i => exact ih hm hf

/-- A step leads to the column type of the array that it leads to. -/
theorem stepType_of_child {a b : PhysicalArray} {type : LogicalType} (typed : a.logicalType = .ok type)
    {s : ViewStep} (h : a.child? s = some b) :
    ∃ inner, type.stepType? s = some inner ∧ b.logicalType = .ok inner := by
  unfold child? at h
  split at h
  · cases h
    obtain ⟨item, ht, rfl⟩ := Result.map_eq_ok.mp typed
    exact ⟨item, rfl, ht⟩
  · cases h
    obtain ⟨item, ht, rfl⟩ := Result.map_eq_ok.mp typed
    exact ⟨item, rfl, ht⟩
  · cases h
    obtain ⟨key, hk, typed⟩ := Result.bind_eq_ok.mp typed
    obtain ⟨value, hw, typed⟩ := Result.bind_eq_ok.mp typed
    cases typed
    refine ⟨_, rfl, ?_⟩
    simp only [logicalType, memberTypes, hk, hw, Result.ok_bind]
    rfl
  · obtain ⟨field, hf, rfl⟩ := Option.map_eq_some_iff.mp h
    obtain ⟨members, hm, rfl⟩ := Result.map_eq_ok.mp typed
    obtain ⟨inner, there, ht⟩ := memberType_of_field hm hf
    refine ⟨inner, ?_, ht⟩
    rw [LogicalType.stepType?, there]
    rfl
  · cases h

theorem typeAt_of_part {a b : PhysicalArray} {type : LogicalType} (typed : a.logicalType = .ok type)
    {path : List ViewStep} (h : a.part? path = some b) :
    ∃ inner, type.typeAt? path = some inner ∧ b.logicalType = .ok inner := by
  induction path generalizing a type with
  | nil =>
    cases h
    exact ⟨type, rfl, typed⟩
  | cons s rest ih =>
    obtain ⟨child, hc, h⟩ := Option.bind_eq_some_iff.mp h
    obtain ⟨inner, hs, ht⟩ := stepType_of_child typed hc
    obtain ⟨result, there, hr⟩ := ih ht h
    refine ⟨result, ?_, hr⟩
    rw [LogicalType.typeAt?, hs]
    exact there

theorem names_of_ok {cells : List (Cell String)} {position : Nat} {found : List String}
    (h : names position cells = .ok found) : found = cells.map Cell.content := by
  induction cells generalizing position found with
  | nil =>
    cases h
    rfl
  | cons cell rest ih =>
    rw [names] at h
    split at h
    · obtain ⟨others, ho, h⟩ := Result.bind_eq_ok.mp h
      cases h
      rw [ih ho, List.map_cons]
    · cases h

/-- The names of an ENUM column are the entries of the dictionary. -/
theorem type_of_dictionary {k : IntKind} {codes : List (Cell (Word k))} {entries : PhysicalArray}
    {type : LogicalType} (typed : (dictionary k codes entries).logicalType = .ok type) :
    type = .enum entries.entryTexts.toArray := by
  obtain ⟨found, hf, typed⟩ := Result.bind_eq_ok.mp typed
  cases typed
  unfold dictionaryNames at hf
  split at hf
  · rw [names_of_ok hf]
    rfl
  · rw [names_of_ok hf]
    rfl
  · cases hf

/-- What the rows stand for, dictionaries included. -/
def labels (a : PhysicalArray) : List Value := (List.range a.rows).map a.labelled

theorem length_labels (a : PhysicalArray) : a.labels.length = a.rows := by
  rw [labels, List.length_map, List.length_range]

/-- An array that is copied as slots has no dictionary in it. -/
theorem bare_of_rawSlots {a : PhysicalArray} (raw : a.rawSlots?.isSome) :
    a.isNested = false ∧ ¬ a.Labelled ∧ ∀ s, a.child? s = none := by
  cases a with
  | int _ _ | float _ _ | date32 _ | time64 _ _ | timestamp _ _ _ => exact ⟨rfl, nofun, fun _ => rfl⟩
  | _ => cases raw

/-- The vector of an array with dictionaries in it holds what the rows stand for, and is made from
values that are stored as this unless the array is copied as slots. -/
theorem toVector_labels {a : PhysicalArray} (h : a.Everywhere fun b => b.Storable ∨ b.Labelled) :
    ∃ type n, a.logicalType = .ok type ∧ type.check = .ok () ∧ a.toVector = .ok n ∧
      n.Holds type a.labels ∧ (a.rawSlots? = none → ∃ vals, ofValues type vals = .ok n ∧
        List.Forall₂ (StoredAs type) vals a.labels ∧ Fits type a.labels) := by
  cases raw : a.rawSlots? with
  | some found =>
    have copied : a.rawSlots?.isSome := by
      rw [raw]
      rfl
    obtain ⟨bare, plain, -⟩ := bare_of_rawSlots copied
    have storable := h.here.resolve_right plain
    obtain ⟨type, n, typed, valid, hn, holds⟩ := copied_holds storable copied
    refine ⟨type, n, typed, valid, hn, ?_, nofun⟩
    rwa [labels, labelled_storable bare storable]
  | none =>
    obtain ⟨type, vals, each⟩ := faithful_labelled h
    obtain ⟨n, hn, made, holds⟩ := each.toVector_ok raw
    exact ⟨type, n, each.typed, each.valid, hn, holds,
      fun _ => ⟨vals, made, each.stored, each.fits _ (.all a.labelled a.rows)⟩⟩

/-- An array of any form with dictionaries of texts anywhere in it becomes a vector: every row is read
as what the row of the array stands for, where each code stands for the name that it points at. The
views of the dictionaries are views of ENUM columns, the names being the entries in their order, and
their rows are read as names and as texts. -/
theorem reads_labels (a : PhysicalArray) (h : a.Everywhere fun b => b.Storable ∨ b.Labelled) :
    ∃ type n view plan conv, a.logicalType = .ok type ∧ a.toVector = .ok n ∧ n.type = type ∧
      n.rows = a.rows ∧ ColumnView.ofNative n a.rows = .ok view ∧
      view.column.resolveBoxed = .ok plan ∧ plan.prepare view = .ok conv ∧
      (∀ row < a.rows, conv.convert view row true = .ok (a.labelled row) ∧
        (a.labelled row = .null ↔ a.isNullAt row = true)) ∧
      ∀ path k codes entries, a.part? path = some (dictionary k codes entries) →
        ∃ part, view.follow path = .ok part ∧
          part.ReadsNames entries.entryTexts.toArray (type.valuesAt path a.labels) := by
  obtain ⟨type, n, typed, valid, hn, holds, made⟩ := toVector_labels h
  obtain ⟨view, plan, conv, opens, same, hplan, hconv, reads⟩ :=
    ColumnView.reads_of_answers valid (holds_iff_answers.mp holds)
  rw [List.length_map, length_labels] at opens same
  refine ⟨type, n, view, plan, conv, typed, hn, holds.typed.type_eq,
    holds.rows.trans (length_labels a), opens, hplan, hconv, ?_, ?_⟩
  · intro row inside
    have found := reads row (by rwa [List.length_map, length_labels])
    simp only [labels, List.getElem_map, List.getElem_range] at found
    exact ⟨found, labelled_eq_null_iff h.here inside⟩
  · intro path k codes entries hp
    obtain ⟨inner, there, ht⟩ := typeAt_of_part typed hp
    obtain rfl := type_of_dictionary ht
    have raw : a.rawSlots? = none := by
      by_contra copied
      obtain ⟨bare, -, alone⟩ := bare_of_rawSlots (Option.isSome_iff_ne_none.mpr copied)
      cases path with
      | nil =>
        cases hp
        exact copied rfl
      | cons s rest =>
        rw [part?, alone s] at hp
        cases hp
    obtain ⟨vals, written, stored, fits⟩ := made raw
    have keeps : view.Keeps type vals a.labels := by
      subst same
      exact ⟨rfl, written, by rw [stored.length_eq, length_labels], stored, fits⟩
    obtain ⟨part, followed, result⟩ := keeps.follow there
    exact ⟨part, followed, result.readsNames⟩

/-- Lists of codes, of which the missing one points nowhere and the first one at the second entry of
its name. -/
theorem reads_labels_repeated_entry :
    let code := Word.wrap .i8
    let colors := dictionary .i8 [⟨code 2, true⟩, ⟨code (-7), false⟩, ⟨code 1, true⟩]
      (utf8 .offsets64 [⟨"red", true⟩, ⟨"green", true⟩, ⟨"red", true⟩])
    let lists := list false "item" [0, 2, 3] [true, true] colors
    ∃ n view plan conv part texts, lists.toVector = .ok n ∧ ColumnView.ofNative n 2 = .ok view ∧
      view.column.resolveBoxed = .ok plan ∧ plan.prepare view = .ok conv ∧
      conv.convert view 0 true = .ok (.list [.enum "red", .null]) ∧
      conv.convert view 1 true = .ok (.list [.enum "green"]) ∧
      view.follow [.list] = .ok part ∧ part.column.type = .enum #["red", "green", "red"] ∧
      part.column.resolve .string = .ok texts ∧ texts.convert part 0 true = .ok "red" := by
  intro code colors lists
  have hcolors : colors.Labelled := by
    refine .dictionary ⟨⟨_, _, rfl, nofun, ?_⟩, by decide, by decide, ?_, by decide⟩
    · decide
    · simp only [OnValid, code]
      decide
  have hlists : lists.Everywhere fun b => b.Storable ∨ b.Labelled := by
    refine .list (.inl ⟨?_, trivial, by decide⟩) (.leaf rfl (.inr hcolors))
    exact ⟨rfl, by decide, by decide⟩
  obtain ⟨type, n, view, plan, conv, typed, hn, -, -, opens, hplan, hconv, reads, names⟩ :=
    reads_labels lists hlists
  obtain rfl : LogicalType.list (.enum #["red", "green", "red"]) = type :=
    Except.ok.inj (Eq.trans rfl typed)
  obtain ⟨part, followed, shown⟩ := names [.list] _ _ _ rfl
  obtain ⟨texts, htexts, -, found⟩ := shown.text
  refine ⟨n, view, plan, conv, part, texts, hn, opens, hplan, hconv, (reads 0 (by decide)).1,
    (reads 1 (by decide)).1, followed, shown.typed, htexts, ?_⟩
  rcases found 0 (by decide) with ⟨missing, -⟩ | ⟨name, -, same, -, text⟩
  · cases missing
  · cases same
    exact text

/-- Without entries the conversion panics, even where no row needs one. -/
theorem reads_labels_without_entries :
    (dictionary .i8 [⟨.wrap .i8 0, false⟩] (utf8 .offsets32 [])).toVector =
      .error (.panic .emptyDictionary) ∧
    ¬ ∀ (k : IntKind) (codes : List (Cell (Word k))) (cells : List (Cell String)),
      (∀ cell ∈ cells, cell.valid) → cells.length < 0x100000000 →
      OnValid (fun code => 0 ≤ code.val ∧ code.val < (cells.length : Int)) codes →
      codes.length * 16 < sizeModulus →
      ∃ n, (dictionary k codes (utf8 .offsets32 cells)).toVector = .ok n := by
  refine ⟨rfl, fun claim => ?_⟩
  obtain ⟨n, hn⟩ :=
    claim .i8 [⟨.wrap .i8 0, false⟩] [] nofun (by decide) (by simp [OnValid]) (by decide)
  cases hn

end Arrow.PhysicalArray

end TypedColumns
