import TypedColumns.Proofs.RoundTrip

/-!
Values that columns take beside their own, such as a day number for a date, an instant for a clock
reading or a code for a name. They are written to vectors that are read as canonical values.
-/
namespace TypedColumns

theorem forall_of_forall₂ {α β : Type} {R : α → β → Prop} {P : α → Prop} {Q : β → Prop}
    {left : List α} {right : List β} (h : List.Forall₂ R left right)
    (both : ∀ a b, R a b → P a ∧ Q b) : (∀ a ∈ left, P a) ∧ ∀ b ∈ right, Q b := by
  induction h with
  | nil => exact ⟨List.forall_mem_nil _, List.forall_mem_nil _⟩
  | cons first _ ih =>
    exact ⟨List.forall_mem_cons.mpr ⟨(both _ _ first).1, ih.1⟩,
      List.forall_mem_cons.mpr ⟨(both _ _ first).2, ih.2⟩⟩

open NativeVector

namespace LogicalType

/-- The value is written to a slot that is read as `x`. -/
def SlotReads (type : LogicalType) (v x : Value) : Prop :=
  ∃ slot width, type.slotOf v = .ok slot ∧ type.storage.slotWidth? = some width ∧
    ∀ (n : NativeVector) (row : Nat), n.slot? width row = some slot → n.leafAt type row = .ok x

theorem HasSlot.reads {type : LogicalType} {x : Value} (h : type.HasSlot x) : type.SlotReads x x := by
  obtain ⟨slot, width, written, hw, -, reads⟩ := h
  exact ⟨slot, width, written, hw, reads⟩

mutual

/-- The second value is canonical, and the first one is written to vectors that are read as it. -/
def StoredAs : LogicalType → (v x : Value) → Prop
  | .list child, v, x => v = .null ∧ x = .null ∨ ∃ items found, v = .list items ∧
      x = .list found ∧ List.Forall₂ (StoredAs child) items found
  | .array child size, v, x => v = .null ∧ x = .null ∨ ∃ items found, v = .list items ∧
      x = .list found ∧ found.length = size ∧ List.Forall₂ (StoredAs child) items found
  | .struct members, v, x => v = .null ∧ x = .null ∨ ∃ values found, v = .struct values ∧
      x = .struct found ∧ found.map Prod.fst = members.map Prod.fst ∧
      CellsStoredAs members (values.map Prod.snd) (found.map Prod.snd)
  | .map key content, v, x => v = .null ∧ x = .null ∨ ∃ pairs found, v = .map pairs ∧
      x = .map found ∧ List.Forall₂ (fun pair other =>
        StoredAs key pair.1 other.1 ∧ StoredAs content pair.2 other.2) pairs found
  | .union alternatives, v, x => v = x ∧ Canonical (.union alternatives) x
  | type, v, x => Canonical type x ∧
      (v = x ∨ type.isSlotted ∧ v.isNull = false ∧ x.isNull = false ∧ type.SlotReads v x)

/-- The same for one cell of each member. -/
def CellsStoredAs : List (String × LogicalType) → (cells found : List Value) → Prop
  | [], [], [] => True
  | (_, type) :: rest, v :: cells, x :: found => StoredAs type v x ∧ CellsStoredAs rest cells found
  | _, _, _ => False

end

theorem storedAs_null (type : LogicalType) : StoredAs type .null .null := by
  cases type with
  | list _ | array _ _ | struct _ | map _ _ => exact .inl ⟨rfl, rfl⟩
  | union _ => exact ⟨rfl, canonical_null _⟩
  | scalar _ | decimal _ _ | enum _ => exact ⟨canonical_null _, .inl rfl⟩

section Leaf

variable {type : LogicalType} (leaf : type.kind.isNested = false)
include leaf

theorem storedAs_leaf {v x : Value} : StoredAs type v x ↔ Canonical type x ∧
    (v = x ∨ type.isSlotted ∧ v.isNull = false ∧ x.isNull = false ∧ type.SlotReads v x) := by
  cases type with
  | list _ | array _ _ | struct _ | map _ _ | union _ => simp [kind, Kind.isNested] at leaf
  | _ => rfl

theorem storedAs_self {x : Value} (h : Canonical type x) : StoredAs type x x :=
  (storedAs_leaf leaf).mpr ⟨h, .inl rfl⟩

end Leaf

theorem cellsStoredAs_missing (members : List (String × LogicalType)) :
    CellsStoredAs members (List.replicate members.length .null)
      (List.replicate members.length .null) := by
  induction members with
  | nil => trivial
  | cons m rest ih => exact ⟨storedAs_null m.2, ih⟩

/-- The cell of the first member, and those of the others. -/
theorem CellsStoredAs.split {m : String × LogicalType} {members : List (String × LogicalType)}
    {cells found : List Value} (h : CellsStoredAs (m :: members) cells found) :
    ∃ v others x rest, cells = v :: others ∧ found = x :: rest ∧ StoredAs m.2 v x ∧
      CellsStoredAs members others rest := by
  cases cells with
  | nil => exact h.elim
  | cons v others =>
    cases found with
    | nil => exact h.elim
    | cons x rest => exact ⟨v, others, x, rest, rfl, rfl, h.1, h.2⟩

theorem CellsStoredAs.lengths {members : List (String × LogicalType)} {cells found : List Value}
    (h : CellsStoredAs members cells found) :
    cells.length = members.length ∧ found.length = members.length := by
  induction members generalizing cells found with
  | nil =>
    cases cells with
    | nil =>
      cases found with
      | nil => exact ⟨rfl, rfl⟩
      | cons x rest => exact h.elim
    | cons v others => exact h.elim
  | cons m members ih =>
    obtain ⟨v, others, x, rest, rfl, rfl, -, h⟩ := h.split
    simp only [List.length_cons, (ih h).1, (ih h).2, and_self]

theorem isNull_of_storedAs {type : LogicalType} {v x : Value} (h : StoredAs type v x) :
    v.isNull = x.isNull := by
  cases type with
  | list child =>
    rcases h with ⟨rfl, rfl⟩ | ⟨items, found, rfl, rfl, -⟩ <;> rfl
  | array child size =>
    rcases h with ⟨rfl, rfl⟩ | ⟨items, found, rfl, rfl, -⟩ <;> rfl
  | struct members =>
    rcases h with ⟨rfl, rfl⟩ | ⟨values, found, rfl, rfl, -⟩ <;> rfl
  | map key content =>
    rcases h with ⟨rfl, rfl⟩ | ⟨pairs, found, rfl, rfl, -⟩ <;> rfl
  | union alternatives => rw [h.1]
  | scalar _ | decimal _ _ | enum _ =>
    rcases h.2 with same | ⟨-, left, right, -⟩
    · rw [same]
    · rw [left, right]

end LogicalType

namespace NativeVector

open LogicalType

section StoredAs

variable {type : LogicalType} {rows xs : List Value}

theorem present_congr (h : List.Forall₂ (fun v x => v.isNull = x.isNull) rows xs) :
    present rows = present xs := by
  have flags : rows.map (fun v => !v.isNull) = xs.map fun v => !v.isNull := by
    rw [← List.forall₂_eq_eq_eq, List.forall₂_map_left_iff, List.forall₂_map_right_iff]
    exact h.imp fun v x same => congrArg not same
  exact congrArg Bitmap.ofFlags flags

theorem present_storedAs (h : List.Forall₂ (StoredAs type) rows xs) : present rows = present xs :=
  present_congr (h.imp fun _ _ => isNull_of_storedAs)

/-- The parts of rows, with those of the values that the rows are stored as. -/
theorem flatten_storedAs {α : Type} {R : α → α → Prop} (cells : Value → List α)
    (h : List.Forall₂ (StoredAs type) rows xs)
    (parts : ∀ v x, StoredAs type v x → List.Forall₂ R (cells v) (cells x)) :
    List.Forall₂ R (rows.map cells).flatten (xs.map cells).flatten ∧
      (rows.map cells).map List.length = (xs.map cells).map List.length := by
  have each : List.Forall₂ (List.Forall₂ R) (rows.map cells) (xs.map cells) := by
    rw [List.forall₂_map_left_iff, List.forall₂_map_right_iff]
    exact h.imp parts
  refine ⟨List.rel_flatten each, ?_⟩
  rw [← List.forall₂_eq_eq_eq, List.forall₂_map_left_iff, List.forall₂_map_right_iff]
  exact each.imp fun _ _ parts => parts.length_eq

theorem elements_storedAs {child : LogicalType} (h : List.Forall₂ (StoredAs (.list child)) rows xs) :
    List.Forall₂ (StoredAs child) (rows.map elements).flatten (xs.map elements).flatten ∧
      (rows.map elements).map List.length = (xs.map elements).map List.length := by
  refine flatten_storedAs elements h ?_
  rintro v x (⟨rfl, rfl⟩ | ⟨items, found, rfl, rfl, each⟩)
  · exact .nil
  · exact each

theorem arrayElements_storedAs {child : LogicalType} {size : Nat}
    (h : List.Forall₂ (StoredAs (.array child size)) rows xs) :
    List.Forall₂ (StoredAs child) (rows.map (arrayElements size)).flatten
      (xs.map (arrayElements size)).flatten := by
  refine (flatten_storedAs (arrayElements size) h ?_).1
  rintro v x (⟨rfl, rfl⟩ | ⟨items, found, rfl, rfl, -, each⟩)
  · rw [List.forall₂_same]
    intro x hx
    rw [List.eq_of_mem_replicate hx]
    exact storedAs_null child
  · exact each

theorem entries_storedAs {key content : LogicalType}
    (h : List.Forall₂ (StoredAs (.map key content)) rows xs) :
    List.Forall₂ (fun pair other : Value × Value =>
        StoredAs key pair.1 other.1 ∧ StoredAs content pair.2 other.2)
      (rows.map entries).flatten (xs.map entries).flatten ∧
      (rows.map entries).map List.length = (xs.map entries).map List.length := by
  refine flatten_storedAs entries h ?_
  rintro v x (⟨rfl, rfl⟩ | ⟨pairs, found, rfl, rfl, each⟩)
  · exact .nil
  · exact each

theorem cells_storedAs {members : List (String × LogicalType)}
    (h : List.Forall₂ (StoredAs (.struct members)) rows xs) :
    List.Forall₂ (CellsStoredAs members) (rows.map (memberCells members.length))
      (xs.map (memberCells members.length)) := by
  rw [List.forall₂_map_left_iff, List.forall₂_map_right_iff]
  refine h.imp ?_
  rintro v x (⟨rfl, rfl⟩ | ⟨values, found, rfl, rfl, -, cells⟩)
  · exact cellsStoredAs_missing members
  · exact cells

/-- Writing values of the type gives a vector that holds what they are stored as. -/
def WritesStored (type : LogicalType) : Prop :=
  ∀ rows xs : List Value, List.Forall₂ (StoredAs type) rows xs → Fits type xs →
    ∃ n, ofValues type rows = .ok n ∧ n.Holds type xs

theorem slotReads_of_storedAs (valid : type.check = .ok ()) (slotted : type.isSlotted) {v x : Value}
    (h : StoredAs type v x) (there : v.isNull = false) : type.SlotReads v x := by
  have leaf := leaf_of_slotted slotted
  obtain ⟨canonical, rfl | ⟨-, -, -, reads⟩⟩ := (storedAs_leaf leaf).mp h
  · rcases leafAt_of_canonical leaf valid canonical with rfl | ⟨n, row, hx⟩
    · contradiction
    · exact (hasSlot_of_leafAt valid slotted hx).reads
  · exact reads

theorem writesStored_slotted (valid : type.check = .ok ()) (slotted : type.isSlotted) :
    WritesStored type := by
  intro rows xs h fits
  have leaf := leaf_of_slotted slotted
  obtain ⟨width, hw⟩ := slotWidth_of_slotted slotted valid
  have room := (fits_leaf leaf fits).1
  rw [hw, Option.getD_some, ← h.length_eq] at room
  have each (row : Nat) (hr : row < rows.length) (hx : row < xs.length) :
      StoredAs type rows[row] xs[row] := h.get hr hx
  have written : ∀ v ∈ rows, v.isNull = false → ∃ slot, type.slotOf v = .ok slot := by
    intro v hv there
    obtain ⟨row, hr, rfl⟩ := List.getElem_of_mem hv
    obtain ⟨slot, -, found, -⟩ :=
      slotReads_of_storedAs valid slotted (each row hr (h.length_eq ▸ hr)) there
    exact ⟨slot, found⟩
  obtain ⟨n, hn, ht, hr, hb, slots⟩ := ofSlotValues_ok valid slotted hw written room
  rw [ofValues_slotted valid slotted]
  refine ⟨n, hn, Holds.leaf leaf ht (hr.trans h.length_eq) (hb.trans (present_storedAs h)) ?_⟩
  intro row hx there
  have inside : row < rows.length := by rwa [h.length_eq]
  have stored := each row inside hx
  rw [← isNull_of_storedAs stored] at there
  obtain ⟨slot, width', found, hw', reads⟩ := slotReads_of_storedAs valid slotted stored there
  obtain rfl : width = width' := by simpa [hw] using hw'
  exact reads n row (slots row inside slot there found)

theorem writesStored_leaf (valid : type.check = .ok ()) (leaf : type.kind.isNested = false) :
    WritesStored type := by
  by_cases slotted : type.isSlotted
  · exact writesStored_slotted valid slotted
  · intro rows xs h fits
    have same : rows = xs := by
      rw [← List.forall₂_eq_eq_eq]
      refine h.imp fun v x stored => ?_
      exact ((storedAs_leaf leaf).mp stored).2.resolve_right fun other => slotted other.1
    subst same
    have canonical : ∀ v ∈ rows, Canonical type v :=
      (forall_of_forall₂ h fun _ _ stored => ⟨trivial, ((storedAs_leaf leaf).mp stored).1⟩).2
    have written := writes_of_check valid rows canonical fits
    rwa [map_chosen_leaf leaf] at written

theorem writesStored_list {child : LogicalType} (valid : child.check = .ok ())
    (ih : WritesStored child) : WritesStored (.list child) := by
  intro rows xs h fits
  have items := elements_storedAs h
  obtain ⟨left, right⟩ : (∀ v ∈ rows, v = .null ∨ itemsOf (.list child) v = .ok (elements v)) ∧
      ∀ x ∈ xs, x.isNull = false → id x = .list (elements x) := by
    refine forall_of_forall₂ h ?_
    rintro v x (⟨rfl, rfl⟩ | ⟨items, found, rfl, rfl, -⟩)
    · exact ⟨.inl rfl, fun there => by contradiction⟩
    · exact ⟨.inr rfl, fun _ => rfl⟩
  obtain ⟨parts, hparts, hitems⟩ := mapPresent_parts rfl left
  obtain ⟨vector, hvector, holds⟩ := ih _ _ items.1 fits.2
  obtain ⟨n, hn, made⟩ := list_holds valid rfl right holds fits.1
  rw [List.map_id] at made
  refine ⟨n, ?_, made⟩
  rw [ofValues, valid]
  simp only [hparts, Result.ok_bind, hitems, hvector, items.2, present_storedAs h, hn]

theorem writesStored_array {child : LogicalType} {size : Nat} (valid : child.check = .ok ())
    (ih : WritesStored child) : WritesStored (.array child size) := by
  intro rows xs h fits
  obtain ⟨left, right⟩ :
      (∀ v ∈ rows, arrayItemsOf (.array child size) size v = .ok (arrayElements size v)) ∧
      ∀ x ∈ xs, (x.isNull = false → id x = .list (arrayElements size x)) ∧
        (arrayElements size x).length = size := by
    refine forall_of_forall₂ h ?_
    rintro v x (⟨rfl, rfl⟩ | ⟨items, found, rfl, rfl, count, each⟩)
    · exact ⟨rfl, fun there => by contradiction, List.length_replicate⟩
    · exact ⟨if_pos (each.length_eq.trans count), fun _ => rfl, count⟩
  obtain ⟨vector, hvector, holds⟩ := ih _ _ (arrayElements_storedAs h) fits.2
  obtain ⟨n, hn, made⟩ := array_holds valid rfl (fun x hx => (right x hx).1)
    (fun x hx => (right x hx).2) holds fits.1
  rw [List.map_id] at made
  refine ⟨n, ?_, made⟩
  rw [ofValues, valid]
  simp only [Result.mapM_eq_map left, Result.ok_bind, hvector, present_storedAs h, h.length_eq, hn]

theorem writesStored_map {key content : LogicalType} (valid : (map key content).check = .ok ())
    (ihk : WritesStored key) (ihw : WritesStored content) : WritesStored (.map key content) := by
  intro rows xs h fits
  have pairs := entries_storedAs h
  have keyPairs : List.Forall₂ (StoredAs key) ((rows.map entries).flatten.map Prod.fst)
      ((xs.map entries).flatten.map Prod.fst) := by
    rw [List.forall₂_map_left_iff, List.forall₂_map_right_iff]
    exact pairs.1.imp fun _ _ h => h.1
  have contentPairs : List.Forall₂ (StoredAs content) ((rows.map entries).flatten.map Prod.snd)
      ((xs.map entries).flatten.map Prod.snd) := by
    rw [List.forall₂_map_left_iff, List.forall₂_map_right_iff]
    exact pairs.1.imp fun _ _ h => h.2
  obtain ⟨left, right⟩ :
      (∀ v ∈ rows, v = .null ∨ entriesOf (.map key content) v = .ok (entries v)) ∧
      ∀ x ∈ xs, x.isNull = false → id x = .map (entries x) := by
    refine forall_of_forall₂ h ?_
    rintro v x (⟨rfl, rfl⟩ | ⟨pairs, found, rfl, rfl, -⟩)
    · exact ⟨.inl rfl, fun there => by contradiction⟩
    · exact ⟨.inr rfl, fun _ => rfl⟩
  obtain ⟨parts, hparts, hitems⟩ := mapPresent_parts rfl left
  obtain ⟨keys, hkeys, keysHold⟩ := ihk _ _ keyPairs fits.2.1
  obtain ⟨contents, hcontents, contentsHold⟩ := ihw _ _ contentPairs fits.2.2
  obtain ⟨structs, n, hstructs, hn, made⟩ :=
    map_holds valid rfl right keysHold contentsHold fits.1
  rw [List.map_id] at made
  refine ⟨n, ?_, made⟩
  rw [ofValues, valid]
  simp only [hparts, Result.ok_bind, hitems, hkeys, hcontents, pairs.2, pairs.1.length_eq,
    present_storedAs h, hstructs, hn]

theorem columns_stored {members : List (String × LogicalType)}
    (ih : ∀ m ∈ members, WritesStored m.2) {cells found : List (List Value)}
    (h : List.Forall₂ (CellsStoredAs members) cells found) (fits : FitAll members found) :
    ∃ vectors, ofColumns members cells = .ok vectors ∧ HoldAll members vectors found := by
  induction members generalizing cells found with
  | nil =>
    refine ⟨[], rfl, .nil ?_⟩
    refine (forall_of_forall₂ (P := fun _ => True) h fun row other cells => ⟨trivial, ?_⟩).2
    exact List.length_eq_zero_iff.mp cells.lengths.2
  | cons m rest ihRest =>
    have heads : List.Forall₂ (StoredAs m.2) (cells.map fun row => row.headD .null)
        (found.map fun row => row.headD .null) := by
      rw [List.forall₂_map_left_iff, List.forall₂_map_right_iff]
      refine h.imp fun row other cells => ?_
      obtain ⟨v, others, x, rest, rfl, rfl, first, -⟩ := cells.split
      exact first
    have tails : List.Forall₂ (CellsStoredAs rest) (cells.map List.tail) (found.map List.tail) := by
      rw [List.forall₂_map_left_iff, List.forall₂_map_right_iff]
      refine h.imp fun row other cells => ?_
      obtain ⟨v, others, x, rest, rfl, rfl, -, later⟩ := cells.split
      exact later
    have there : ∀ row ∈ found, row ≠ [] := by
      refine (forall_of_forall₂ (P := fun _ => True) h fun row other cells => ⟨trivial, ?_⟩).2
      obtain ⟨v, others, x, rest, -, rfl, -⟩ := cells.split
      exact List.cons_ne_nil _ _
    obtain ⟨vector, hvector, first⟩ := ih m List.mem_cons_self _ _ heads fits.1
    obtain ⟨vectors, hvectors, others⟩ :=
      ihRest (fun m' hm' => ih m' (List.mem_cons_of_mem _ hm')) tails fits.2
    refine ⟨vector :: vectors, ?_, .cons there first others⟩
    rw [ofColumns, hvector, Result.ok_bind, hvectors]
    rfl

theorem writesStored_struct {members : List (String × LogicalType)}
    (valid : (LogicalType.struct members).check = .ok ()) (ih : ∀ m ∈ members, WritesStored m.2) :
    WritesStored (.struct members) := by
  intro rows xs h fits
  obtain ⟨left, right⟩ : (∀ v ∈ rows, memberValuesOf (.struct members) members.length v =
        .ok (memberCells members.length v)) ∧
      ∀ x ∈ xs, x.isNull = false →
        id x = .struct ((members.map Prod.fst).zip (memberCells members.length x)) := by
    refine forall_of_forall₂ h ?_
    rintro v x (⟨rfl, rfl⟩ | ⟨values, found, rfl, rfl, names, cells⟩)
    · exact ⟨rfl, fun there => by contradiction⟩
    · have lengths := cells.lengths
      rw [List.length_map, List.length_map] at lengths
      exact ⟨if_pos lengths.1, fun _ => congrArg Value.struct (List.zip_of_prod names rfl)⟩
  obtain ⟨vectors, hvectors, holds⟩ := columns_stored ih (cells_storedAs h) fits
  obtain ⟨n, hn, made⟩ := struct_holds valid rfl right holds
  rw [List.map_id] at made
  refine ⟨n, ?_, made⟩
  rw [ofValues, valid]
  simp only [Result.mapM_eq_map left, Result.ok_bind, hvectors, present_storedAs h, h.length_eq, hn]

/-- Rows are written to a vector that holds what they are stored as. -/
theorem ofValues_holds_stored (valid : type.check = .ok ()) (free : type.isUnionFree) :
    WritesStored type := by
  induction type using induction_on_members with
  | list child ih =>
    rw [check_list] at valid
    exact writesStored_list valid (ih valid free)
  | array child size ih =>
    rw [check_array] at valid
    exact writesStored_array valid (ih valid free)
  | struct members ih =>
    exact writesStored_struct valid fun m hm =>
      ih m hm (checkAll_of_mem valid hm) (isUnionFree_of_mem free hm)
  | map key content ihk ihw =>
    simp only [isUnionFree, Bool.and_eq_true] at free
    exact writesStored_map valid (ihk (check_map_left valid) free.1)
      (ihw (check_map_right valid) free.2)
  | union alternatives => cases free
  | scalar kind => exact writesStored_leaf valid (check_scalar_nested valid)
  | decimal _ _ | enum _ => exact writesStored_leaf valid rfl

end StoredAs

section Readable

variable {type : LogicalType} {x : Value}

/-- A vector that holds the value alone shows that it is readable. -/
theorem readable_of_holds (valid : type.check = .ok ()) (leaf : type.kind.isNested = false)
    (present : x.isNull = false) {n : NativeVector} (h : n.Holds type [x]) : type.Readable x := by
  obtain ⟨read, hr⟩ := boxed?_isSome valid leaf
  let view : ColumnView := ⟨⟨type, valid⟩, 1, n, []⟩
  have found : n.whenPresent 0 (n.readPresent type 0) (.ok .null) = .ok x := h.reads 0 Nat.one_pos
  have bit : n.bit? 0 = some true := by
    unfold whenPresent at found
    cases hb : n.bit? 0 with
    | none =>
      rw [hb] at found
      cases found
    | some flag =>
      cases flag with
      | true => rfl
      | false =>
        rw [hb] at found
        cases found
        cases present
  refine ⟨view, _, 0, rfl, boxedPlan_leaf leaf hr, ?_, ?_⟩
  · have valid : view.isValid 0 = ColumnView.loaded (n.bit? 0) := rfl
    rw [valid, bit]
    rfl
  · rw [Converter.convert_boxed _ rfl rfl rfl rfl rfl Nat.one_pos, Reader.boxed?_eq_leafAt hr rfl,
      ← readPresent_leaf leaf]
    exact found

theorem canonical_of_readable (leaf : type.kind.isNested = false) (null : type ≠ .scalar .null)
    (h : type.Readable x) : Canonical type x := by
  cases type with
  | scalar kind => cases kind <;> first | exact .inr h | exact absurd rfl null
  | decimal _ _ | enum _ => exact .inr h
  | _ => cases leaf

theorem slotWidth_le {kind : Kind} {width : Nat} (h : kind.slotWidth? = some width) :
    width ≤ 16 := by
  cases kind with
  | int k =>
    cases h
    cases k <;> decide
  | _ =>
    cases h
    try decide

theorem canonical_of_hasSlot (valid : type.check = .ok ()) (slotted : type.isSlotted)
    (present : x.isNull = false) (h : type.HasSlot x) : Canonical type x := by
  have leaf := leaf_of_slotted slotted
  obtain ⟨width, hw⟩ := slotWidth_of_slotted slotted valid
  have small := slotWidth_le hw
  have each : ∀ v ∈ [x], v = .null ∨ type.HasSlot v := by
    intro v hv
    rw [List.mem_singleton] at hv
    exact .inr (hv ▸ h)
  obtain ⟨n, -, holds⟩ := ofSlotValues_holds valid slotted hw each (by
    rw [List.length_singleton, sizeModulus]
    omega)
  refine canonical_of_readable leaf ?_ (readable_of_holds valid leaf present holds)
  rintro rfl
  cases slotted

theorem canonical_of_hasPayload {kind : Kind} (string : kind.isStringLike)
    (present : x.isNull = false) (h : (scalar kind).HasPayload x)
    (short : ∀ payload, (scalar kind).payloadOf x = .ok payload → payload.length < 0x100000000) :
    Canonical (scalar kind) x := by
  have leaf := leaf_of_stringLike string
  have valid := check_of_stringLike string
  have each : ∀ v ∈ [x], v = .null ∨ (scalar kind).HasPayload v := by
    intro v hv
    rw [List.mem_singleton] at hv
    exact .inr (hv ▸ h)
  obtain ⟨n, -, holds⟩ := ofPayloadValues_holds string each
    (fun v hv => List.mem_singleton.mp hv ▸ short) (by
      rw [List.length_singleton]
      decide)
  refine canonical_of_readable leaf ?_ (readable_of_holds valid leaf present holds)
  rintro ⟨⟩
  cases string

end Readable

end NativeVector

end TypedColumns
