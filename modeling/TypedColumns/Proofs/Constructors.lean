import TypedColumns.Proofs.Storage

/-!
What the constructors of vectors accept. A vector that one of them gives has a well-formed type, a
bitmap for all of its rows, the children that its type asks for and exactly the slots of its rows.
Slots that are given as bytes are counted in 64 bits, and a count that these do not hold is a panic:
the bytes of too few rows never pass for all of them.
-/
namespace TypedColumns.NativeVector

open LogicalType
open Result (FailsOnly)

/-- What all constructors check: a well-formed type, and a bitmap word for every 64 rows unless
there is no bitmap. -/
structure Checked (type : LogicalType) (rows : Nat) (bitmap : Option Bitmap) : Prop where
  type : type.check = .ok ()
  words : ∀ words, bitmap = some words → Bitmap.wordCount rows ≤ words.size

section Inversion

variable {type : LogicalType} {rows : Nat} {bitmap : Option Bitmap} {child n : NativeVector}

theorem bare_eq_ok (h : bare type rows bitmap = .ok n) :
    Checked type rows bitmap ∧ n = ⟨type, rows, #[], bitmap, #[], [], 0⟩ := by
  unfold bare at h
  split at h
  · cases h
  · next valid =>
    split at h
    · next words =>
      split_ifs at h with short
      exact ⟨⟨valid, fun _ same => Option.some.inj same ▸ Nat.not_lt.mp short⟩,
        (Except.ok.inj h).symm⟩
    · exact ⟨⟨valid, nofun⟩, (Except.ok.inj h).symm⟩

/-- Slots are taken only if they are all the bytes of the rows and 64 bits count these. -/
theorem ofSlots_eq_ok {slots : List UInt8} (h : ofSlots type rows slots bitmap = .ok n) :
    Checked type rows bitmap ∧ type.storage.isNested = false ∧
      ∃ width, type.storage.slotWidth? = some width ∧ rows * width < sizeModulus ∧
        slots.length = rows * width ∧ n = ⟨type, rows, slots.toArray, bitmap, #[], [], 0⟩ := by
  unfold ofSlots at h
  split at h
  · cases h
  · next width hw =>
    split_ifs at h with refused overflow short
    obtain ⟨v, hv, rfl⟩ := Result.map_eq_ok.mp h
    obtain ⟨checked, rfl⟩ := bare_eq_ok hv
    simp only [Bool.or_eq_true, not_or, Bool.not_eq_true] at refused
    exact ⟨checked, refused.2, width, hw, Nat.not_le.mp overflow, not_not.mp short, rfl⟩

theorem ofPayloads_eq_ok {values : List (Option (List UInt8))}
    (h : ofPayloads type values = .ok n) :
    Checked type values.length (Bitmap.ofFlags (values.map Option.isSome)) ∧
      type.kind.isStringLike ∧ ∃ slots heap, stringSlots #[] values = .ok (slots, heap) ∧
        n = ⟨type, values.length, slots.flatten.toArray,
          Bitmap.ofFlags (values.map Option.isSome), heap, [], 0⟩ := by
  unfold ofPayloads at h
  split_ifs at h with string
  obtain ⟨v, hv, h⟩ := Result.bind_eq_ok.mp h
  obtain ⟨⟨slots, heap⟩, hs, h⟩ := Result.bind_eq_ok.mp h
  cases h
  obtain ⟨checked, rfl⟩ := bare_eq_ok hv
  exact ⟨checked, string, slots, heap, hs, rfl⟩

theorem ofListParts_eq_ok {entries : List ListEntry} {childRows : Nat}
    (h : ofListParts type entries bitmap child childRows = .ok n) :
    Checked type entries.length bitmap ∧ childRows ≤ child.rows ∧
      (type.kind = .list ∨ type.kind = .map) ∧
      n = ⟨type, entries.length, (entries.map ListEntry.toBytes).flatten.toArray, bitmap, #[],
        [child], childRows⟩ := by
  unfold ofListParts at h
  split_ifs at h with kinds short
  obtain ⟨v, hv, rfl⟩ := Result.map_eq_ok.mp h
  obtain ⟨checked, rfl⟩ := bare_eq_ok hv
  exact ⟨checked, Nat.not_lt.mp short, or_iff_not_and_not.mpr kinds, rfl⟩

theorem ofArrayParts_eq_ok (h : ofArrayParts type rows bitmap child = .ok n) :
    Checked type rows bitmap ∧ type.kind = .array ∧
      n = ⟨type, rows, #[], bitmap, #[], [child], 0⟩ := by
  unfold ofArrayParts at h
  split_ifs at h with kind
  obtain ⟨v, hv, rfl⟩ := Result.map_eq_ok.mp h
  obtain ⟨checked, rfl⟩ := bare_eq_ok hv
  exact ⟨checked, not_not.mp kind, rfl⟩

theorem ofStructParts_eq_ok {members : List NativeVector}
    (h : ofStructParts type rows bitmap members = .ok n) :
    Checked type rows bitmap ∧ memberCount? type = some members.length ∧
      n = ⟨type, rows, #[], bitmap, #[], members, 0⟩ := by
  unfold ofStructParts at h
  split at h
  · cases h
  · next expected count =>
    split_ifs at h with same
    obtain ⟨v, hv, rfl⟩ := Result.map_eq_ok.mp h
    obtain ⟨checked, rfl⟩ := bare_eq_ok hv
    rw [not_not.mp same]
    exact ⟨checked, count, rfl⟩

end Inversion

/-- The bytes of list slots. -/
theorem size_entries (entries : List ListEntry) :
    ((entries.map ListEntry.toBytes).flatten.toArray).size = entries.length * 16 := by
  have wide : ∀ slot ∈ entries.map ListEntry.toBytes, slot.length = 16 := by
    intro slot hs
    obtain ⟨entry, -, rfl⟩ := List.mem_map.mp hs
    exact ListEntry.toBytes_length entry
  rw [List.size_toArray, length_flatten_uniform wide, List.length_map]

/-- What is given to the constructors of vectors. -/
inductive Parts where
  | ints {k : IntKind} (values : List (Option (Word k)))
  | floats {f : FloatFormat} (values : List (Option (Binary f)))
  | booleans (values : List (Option Bool))
  | texts (values : List (Option String))
  | payloads (type : LogicalType) (values : List (Option (List UInt8)))
  | slots (type : LogicalType) (rows : Nat) (bytes : List UInt8) (bitmap : Option Bitmap)
  | lists (type : LogicalType) (entries : List ListEntry) (bitmap : Option Bitmap)
    (child : NativeVector) (childRows : Nat)
  | arrays (type : LogicalType) (rows : Nat) (bitmap : Option Bitmap) (child : NativeVector)
  | structs (type : LogicalType) (rows : Nat) (bitmap : Option Bitmap)
    (members : List NativeVector)
  | nulls (rows : Nat)

namespace Parts

def vector : Parts → Result NativeVector
  | ints values => .ok (ofInts values)
  | floats values => .ok (ofFloats values)
  | booleans values => .ok (ofBooleans values)
  | texts values => ofTexts values
  | payloads type values => ofPayloads type values
  | slots type rows bytes bitmap => ofSlots type rows bytes bitmap
  | lists type entries bitmap child childRows => ofListParts type entries bitmap child childRows
  | arrays type rows bitmap child => ofArrayParts type rows bitmap child
  | structs type rows bitmap members => ofStructParts type rows bitmap members
  | nulls rows => .ok (NativeVector.nulls rows)

/-- How many rows the vector is to have. -/
def rows : Parts → Nat
  | ints values => values.length
  | floats values => values.length
  | booleans values => values.length
  | texts values => values.length
  | payloads _ values => values.length
  | lists _ entries _ _ _ => entries.length
  | slots _ rows _ _ | arrays _ rows _ _ | structs _ rows _ _ | nulls rows => rows

/-- Bytes are given as the slots of more rows than 64 bits count the bytes of. -/
def Overflows : Parts → Prop
  | slots type rows _ _ => (type.storage.isStringLike || type.storage.isNested) = false ∧
      sizeModulus ≤ rows * type.storage.slotWidth?.getD 0
  | _ => False

end Parts

/-- The bytes of all slots and no others; none at all for types without slots. -/
def HasSlots (n : NativeVector) : Prop :=
  n.data.size = n.rows * n.type.storage.slotWidth?.getD 0

instance (n : NativeVector) : Decidable n.HasSlots := inferInstanceAs (Decidable (_ = _))

/-- What a vector has for its rows beside their slots. -/
structure Furnished (n : NativeVector) : Prop where
  type : n.type.check = .ok ()
  words : ∀ words, n.bitmap = some words → Bitmap.wordCount n.rows ≤ words.size
  /-- The child of a LIST or MAP has the rows that are in use. -/
  child : n.kind = .list ∨ n.kind = .map →
    ∃ child, n.children = [child] ∧ n.childRows ≤ child.rows
  structMembers : ∀ members, n.type = .struct members → n.children.length = members.length
  /-- The tags are one more member. -/
  unionMembers : ∀ alternatives, n.type = .union alternatives →
    n.children.length = alternatives.length + 1

section Contract

variable {type : LogicalType} {rows : Nat} {bitmap : Option Bitmap} {data : Array UInt8}
  {heap : Array (List UInt8)} {child n : NativeVector} {kind : Kind}

/-- Without children there is nothing to check but type and bitmap. -/
theorem Checked.furnished (h : Checked type rows bitmap) (leaf : type.kind.isNested = false) :
    Furnished ⟨type, rows, data, bitmap, heap, [], 0⟩ := by
  refine ⟨h.type, h.words, ?_, ?_, ?_⟩
  · intro (kinds : type.kind = .list ∨ type.kind = .map)
    rcases kinds with kind | kind <;> simp [kind, Kind.isNested] at leaf
  · rintro members rfl
    cases leaf
  · rintro alternatives rfl
    cases leaf

/-- Flags make a bitmap that is long enough for them. -/
theorem checked_flags (h : type.check = .ok ()) (flags : List Bool) :
    Checked type flags.length (Bitmap.ofFlags flags) :=
  (bare_eq_ok (bare_flags h flags)).1

/-- Slots of missing rows are as wide as the others. -/
theorem ofCells_complete {α : Type} (valid : (scalar kind).check = .ok ())
    (leaf : kind.isNested = false) {width : Nat} (hw : kind.slotWidth? = some width)
    {bytes : α → List UInt8} (wide : ∀ a, (bytes a).length = width) (values : List (Option α)) :
    let n := ofCells kind width (values.map fun value => value.map bytes)
    n.rows = values.length ∧ n.Furnished ∧ n.HasSlots := by
  have checked := checked_flags valid
    ((values.map fun value => value.map bytes).map Option.isSome)
  rw [List.length_map, List.length_map] at checked
  have uniform : ∀ slot ∈ (values.map fun value => value.map bytes).map fun cell =>
      cell.getD (List.replicate width 0), slot.length = width := by
    intro slot hs
    simp only [List.map_map, List.mem_map, Function.comp_apply] at hs
    obtain ⟨value, -, rfl⟩ := hs
    cases value <;> simp [wide]
  refine ⟨List.length_map _, ?_, ?_⟩
  · rw [ofCells, List.length_map]
    exact checked.furnished leaf
  · have slotWidth : (scalar kind).storage.slotWidth? = some width := hw
    simp only [HasSlots, ofCells, List.size_toArray, length_flatten_uniform uniform,
      List.length_map, slotWidth, Option.getD_some]

theorem ofPayloads_complete {values : List (Option (List UInt8))}
    (h : ofPayloads type values = .ok n) :
    n.rows = values.length ∧ n.Furnished ∧ n.HasSlots := by
  obtain ⟨checked, string, slots, heap, made, rfl⟩ := ofPayloads_eq_ok h
  obtain ⟨count, wide, -⟩ := stringSlots_shape made
  cases type with
  | scalar kind =>
    have string : kind.isStringLike := string
    refine ⟨rfl, checked.furnished (leaf_of_stringLike string), ?_⟩
    simp only [HasSlots, List.size_toArray, length_flatten_uniform wide, count,
      slotWidth_of_stringLike string, Option.getD_some]
  | _ => cases string

theorem ofSlots_complete {slots : List UInt8} (h : ofSlots type rows slots bitmap = .ok n) :
    n.rows = rows ∧ n.Furnished ∧ n.HasSlots := by
  obtain ⟨checked, leaf, width, hw, -, bytes, rfl⟩ := ofSlots_eq_ok h
  have nested : type.storage.isNested = type.kind.isNested := by cases type <;> rfl
  refine ⟨rfl, checked.furnished (nested ▸ leaf), ?_⟩
  simp only [HasSlots, List.size_toArray, bytes, hw, Option.getD_some]

theorem ofListParts_complete {entries : List ListEntry} {childRows : Nat}
    (h : ofListParts type entries bitmap child childRows = .ok n) :
    n.rows = entries.length ∧ n.Furnished ∧ n.HasSlots := by
  obtain ⟨checked, enough, kinds, rfl⟩ := ofListParts_eq_ok h
  cases type with
  | list _ | map _ _ =>
    exact ⟨rfl, ⟨checked.type, checked.words, fun _ => ⟨child, rfl, enough⟩, nofun, nofun⟩,
      size_entries entries⟩
  | scalar kind =>
    -- Without the types of their children, lists and maps are not well formed.
    rcases kinds with rfl | rfl <;> cases checked.type
  | _ => simp [LogicalType.kind] at kinds

theorem ofArrayParts_complete (h : ofArrayParts type rows bitmap child = .ok n) :
    n.rows = rows ∧ n.Furnished ∧ n.HasSlots := by
  obtain ⟨checked, kind, rfl⟩ := ofArrayParts_eq_ok h
  cases type with
  | array _ _ => exact ⟨rfl, ⟨checked.type, checked.words, nofun, nofun, nofun⟩, rfl⟩
  | scalar _ =>
    cases kind
    cases checked.type
  | _ => cases kind

theorem ofStructParts_complete {members : List NativeVector}
    (h : ofStructParts type rows bitmap members = .ok n) :
    n.rows = rows ∧ n.Furnished ∧ n.HasSlots := by
  obtain ⟨checked, count, rfl⟩ := ofStructParts_eq_ok h
  cases type with
  | struct _ =>
    refine ⟨rfl, ⟨checked.type, checked.words, nofun, ?_, nofun⟩, rfl⟩
    rintro _ ⟨⟩
    exact (Option.some.inj count).symm
  | union _ =>
    refine ⟨rfl, ⟨checked.type, checked.words, nofun, nofun, ?_⟩, rfl⟩
    rintro _ ⟨⟩
    exact (Option.some.inj count).symm
  | _ => cases count

theorem nulls_complete (rows : Nat) : (nulls rows).Furnished ∧ (nulls rows).HasSlots := by
  have checked : Checked (scalar .null) rows
      (some (Array.replicate (Bitmap.wordCount rows) 0)) := by
    refine ⟨rfl, ?_⟩
    rintro _ ⟨⟩
    simp
  exact ⟨checked.furnished rfl, rfl⟩

/-- Every call that checks type and bitmap returns. -/
theorem bare_returns (type : LogicalType) (rows : Nat) (bitmap : Option Bitmap) :
    FailsOnly (·.isPanic = false) (bare type rows bitmap) := by
  unfold bare
  split
  · exact .error rfl
  · split
    · split
      · exact .error rfl
      · exact .ok _
    · exact .ok _

theorem stringSlots_returns (heap : Array (List UInt8)) (values : List (Option (List UInt8))) :
    FailsOnly (·.isPanic = false) (stringSlots heap values) := by
  induction values generalizing heap with
  | nil => exact .ok _
  | cons value rest ih =>
    cases value with
    | none => exact (ih heap).bind fun _ _ => .ok _
    | some payload =>
      apply FailsOnly.bind
      · unfold StringSlot.encode
        dsimp only
        split_ifs
        · exact .error rfl
        · exact .ok _
        · exact .ok _
      · intro slot _
        exact (ih _).bind fun _ _ => .ok _

theorem ofPayloads_returns (type : LogicalType) (values : List (Option (List UInt8))) :
    FailsOnly (·.isPanic = false) (ofPayloads type values) := by
  unfold ofPayloads
  split
  · exact (bare_returns _ _ _).bind fun _ _ => (stringSlots_returns _ _).bind fun _ _ => .ok _
  · exact .error rfl

theorem ofListParts_returns (type : LogicalType) (entries : List ListEntry)
    (bitmap : Option Bitmap) (child : NativeVector) (childRows : Nat) :
    FailsOnly (·.isPanic = false) (ofListParts type entries bitmap child childRows) := by
  unfold ofListParts
  split_ifs
  · exact .error rfl
  · exact .error rfl
  · exact (bare_returns _ _ _).map _

theorem ofArrayParts_returns (type : LogicalType) (rows : Nat) (bitmap : Option Bitmap)
    (child : NativeVector) :
    FailsOnly (·.isPanic = false) (ofArrayParts type rows bitmap child) := by
  unfold ofArrayParts
  split_ifs
  · exact .error rfl
  · exact (bare_returns _ _ _).map _

theorem ofStructParts_returns (type : LogicalType) (rows : Nat) (bitmap : Option Bitmap)
    (members : List NativeVector) :
    FailsOnly (·.isPanic = false) (ofStructParts type rows bitmap members) := by
  unfold ofStructParts
  split
  · exact .error rfl
  · split_ifs
    · exact .error rfl
    · exact (bare_returns _ _ _).map _

/-- The bytes of slots are counted before they are compared with what is given. -/
theorem ofSlots_panics_iff (type : LogicalType) (rows : Nat) (bytes : List UInt8)
    (bitmap : Option Bitmap) : (∃ cause, ofSlots type rows bytes bitmap = .error (.panic cause)) ↔
      (type.storage.isStringLike || type.storage.isNested) = false ∧
        sizeModulus ≤ rows * type.storage.slotWidth?.getD 0 := by
  unfold ofSlots
  split
  · next unslotted => simp [unslotted, sizeModulus]
  · next width slotted =>
    rw [slotted, Option.getD_some]
    split_ifs with refused overflow short
    · simp [refused]
    · simp [refused, overflow]
    · simp [overflow]
    · simp only [overflow, and_false, iff_false, not_exists]
      intro cause panics
      have returned := bare_returns type rows bitmap _ (Result.map_eq_error.mp panics)
      cases returned

end Contract

/-- A vector that a constructor gives has the rows that it is to have, a well-formed type, a bitmap
for all rows unless it has none, the child rows that are in use and one vector for each member. It
has the slots of all rows and no bytes beside them. Where 64 bits do not count the bytes of the slots,
and nowhere else, the call panics and gives no vector, however many bytes come with it. -/
theorem accepted_hold_rows (parts : Parts) :
    (∀ n, parts.vector = .ok n → n.rows = parts.rows ∧ n.Furnished ∧ n.HasSlots) ∧
      ((∃ cause, parts.vector = .error (.panic cause)) ↔ parts.Overflows) := by
  constructor
  · intro n made
    cases parts with
    | ints values =>
      cases made
      exact ofCells_complete rfl rfl rfl Word.toBytes_length values
    | @floats f values =>
      cases made
      cases f with
      | single | double => exact ofCells_complete rfl rfl rfl Binary.toBytes_length values
    | booleans values =>
      cases made
      let bytes (b : Bool) : List UInt8 := [if b then 1 else 0]
      have wide (b : Bool) : (bytes b).length = 1 := rfl
      exact ofCells_complete rfl rfl rfl wide values
    | texts values =>
      simp only [Parts.vector, ofTexts] at made
      have complete := ofPayloads_complete made
      rwa [List.length_map] at complete
    | payloads type values => exact ofPayloads_complete made
    | slots type rows bytes bitmap => exact ofSlots_complete made
    | lists type entries bitmap child childRows => exact ofListParts_complete made
    | arrays type rows bitmap child => exact ofArrayParts_complete made
    | structs type rows bitmap members => exact ofStructParts_complete made
    | nulls rows =>
      cases made
      exact ⟨rfl, nulls_complete rows⟩
  · -- Of all constructors only the one that takes bytes multiplies what it is given.
    have returns {x : Result NativeVector} (h : FailsOnly (·.isPanic = false) x) :
        (∃ cause, x = .error (.panic cause)) ↔ False := by
      refine iff_false_intro ?_
      rintro ⟨cause, panics⟩
      cases h _ panics
    cases parts with
    | ints _ | floats _ | booleans _ | nulls _ => exact returns (.ok _)
    | texts values =>
      simp only [Parts.vector, ofTexts]
      exact returns (ofPayloads_returns _ _)
    | payloads type values => exact returns (ofPayloads_returns _ _)
    | slots type rows bytes bitmap => exact ofSlots_panics_iff type rows bytes bitmap
    | lists type entries bitmap child childRows => exact returns (ofListParts_returns _ _ _ _ _)
    | arrays type rows bitmap child => exact returns (ofArrayParts_returns _ _ _ _)
    | structs type rows bitmap members => exact returns (ofStructParts_returns _ _ _ _)

/-- Three decimals in slots of four bytes, the second one missing, are taken. Eight bytes do not pass
as the slots of 2^61 + 1 rows, whose 2^64 + 8 bytes they are in 64 bits. -/
theorem accepted_hold_rows_of_decimals :
    let decimals := Parts.slots (.decimal 9 2) 3 (List.replicate 12 0) (some #[5])
    let far := Parts.slots (.scalar (.int .i64)) 0x2000000000000001 [5, 0, 0, 0, 0, 0, 0, 0] none
    (∃ n, decimals.vector = .ok n ∧ n.rows = 3 ∧ n.Furnished ∧ n.HasSlots) ∧
      ∃ cause, far.vector = .error (.panic cause) := by
  intro decimals far
  have made : decimals.vector =
      .ok ⟨.decimal 9 2, 3, (List.replicate 12 0).toArray, some #[5], #[], [], 0⟩ := rfl
  exact ⟨⟨_, made, (accepted_hold_rows decimals).1 _ made⟩,
    (accepted_hold_rows far).2.mpr ⟨rfl, by decide⟩⟩

end TypedColumns.NativeVector
