import TypedColumns.Proofs.EncodedTrees
import TypedColumns.Proofs.StoredValues

/-!
Views of the children of a vector that is made from values. A step into the children goes to a vector
that is made from the values inside the rows, one row after another, and so the views at the end of
every path read exactly those.
-/
namespace TypedColumns

namespace LogicalType

/-- The type that a step leads to. -/
def stepType? : LogicalType → ViewStep → Option LogicalType
  | list child, .list => some child
  | array child _, .array => some child
  | map key content, .list => some (entry key content)
  | struct members, .member i => members[i]?.map Prod.snd
  | _, _ => none

/-- The values inside the rows that a step leads to. -/
def inside : LogicalType → ViewStep → (rows : List Value) → List Value
  | list _, .list, rows => (rows.map elements).flatten
  | array _ size, .array, rows => (rows.map (arrayElements size)).flatten
  | map _ _, .list, rows => (rows.map entries).flatten.map NativeVector.entryStruct
  | struct members, .member i, rows =>
    rows.map fun v => (memberCells members.length v)[i]?.getD .null
  | _, _, _ => []

/-- The type at the end of a path. -/
def typeAt? (type : LogicalType) : List ViewStep → Option LogicalType
  | [] => some type
  | step :: rest => do (← type.stepType? step).typeAt? rest

/-- The values at the end of a path. -/
def valuesAt (type : LogicalType) : List ViewStep → (rows : List Value) → List Value
  | [], rows => rows
  | step :: rest, rows => match type.stepType? step with
    | some child => child.valuesAt rest (type.inside step rows)
    | none => []

end LogicalType

open LogicalType NativeVector

variable {type child : LogicalType} {rows xs : List Value} {s : ViewStep}

/-- The steps that there are. -/
theorem stepType_cases (h : type.stepType? s = some child) :
    (type = .list child ∧ s = .list) ∨ (∃ size, type = .array child size ∧ s = .array) ∨
      (∃ key content, type = .map key content ∧ s = .list ∧ child = .entry key content) ∨
      ∃ members i m, type = .struct members ∧ s = .member i ∧ members[i]? = some m ∧
        child = m.2 := by
  unfold stepType? at h
  split at h
  · cases h
    exact .inl ⟨rfl, rfl⟩
  · cases h
    exact .inr (.inl ⟨_, rfl, rfl⟩)
  · cases h
    exact .inr (.inr (.inl ⟨_, _, rfl, rfl, rfl⟩))
  · obtain ⟨m, hm, same⟩ := Option.map_eq_some_iff.mp h
    exact .inr (.inr (.inr ⟨_, _, m, rfl, rfl, hm, same.symm⟩))
  · cases h

theorem LogicalType.CellsStoredAs.cell {members : List (String × LogicalType)} {cells found : List Value}
    (h : CellsStoredAs members cells found) {i : Nat} {m : String × LogicalType}
    (hm : members[i]? = some m) :
    StoredAs m.2 (cells[i]?.getD .null) (found[i]?.getD .null) := by
  induction members generalizing cells found i with
  | nil => cases hm
  | cons first members ih =>
    obtain ⟨v, others, x, rest, rfl, rfl, here, later⟩ := h.split
    cases i with
    | zero =>
      cases hm
      exact here
    | succ i => exact ih later hm

theorem LogicalType.FitAll.cell {members : List (String × LogicalType)} {cells : List (List Value)}
    (h : FitAll members cells) {i : Nat} {m : String × LogicalType} (hm : members[i]? = some m) :
    Fits m.2 (cells.map fun row => row[i]?.getD .null) := by
  induction members generalizing cells i with
  | nil => cases hm
  | cons first members ih =>
    cases i with
    | zero =>
      cases hm
      simpa only [List.headD_eq_head?_getD, List.head?_eq_getElem?] using h.1
    | succ i =>
      have later := ih h.2 hm
      rw [List.map_map] at later
      simpa only [Function.comp_def, List.getElem?_tail] using later

/-- The values inside the rows, with those that they are stored as. -/
theorem inside_storedAs (h : List.Forall₂ (StoredAs type) rows xs)
    (hs : type.stepType? s = some child) :
    List.Forall₂ (StoredAs child) (type.inside s rows) (type.inside s xs) := by
  obtain ⟨rfl, rfl⟩ | ⟨size, rfl, rfl⟩ | ⟨key, content, rfl, rfl, rfl⟩ |
    ⟨members, i, m, rfl, rfl, hm, rfl⟩ := stepType_cases hs
  · exact (elements_storedAs h).1
  · exact arrayElements_storedAs h
  · rw [inside, List.forall₂_map_left_iff, inside, List.forall₂_map_right_iff]
    exact (entries_storedAs h).1.imp fun pair other stored =>
      .inr ⟨_, _, rfl, rfl, rfl, stored.1, stored.2, trivial⟩
  · have cells := cells_storedAs h
    rw [List.forall₂_map_left_iff, List.forall₂_map_right_iff] at cells
    rw [inside, List.forall₂_map_left_iff, inside, List.forall₂_map_right_iff]
    exact cells.imp fun _ _ stored => stored.cell hm

theorem inside_fits (h : Fits type xs) (hs : type.stepType? s = some child) :
    Fits child (type.inside s xs) := by
  obtain ⟨rfl, rfl⟩ | ⟨size, rfl, rfl⟩ | ⟨key, content, rfl, rfl, rfl⟩ |
    ⟨members, i, m, rfl, rfl, hm, rfl⟩ := stepType_cases hs
  · exact h.2
  · exact h.2
  · show FitAll _ (((xs.map entries).flatten.map entryStruct).map (memberCells 2))
    refine ⟨?_, ?_, trivial⟩
    · rw [List.map_map, List.map_map]
      exact h.2.1
    · rw [List.map_map, List.map_map, List.map_map]
      exact h.2.2
  · have cell := FitAll.cell h hm
    rwa [List.map_map] at cell

/-- The vector of a member is made from its cells. -/
theorem vector_of_ofColumns {members : List (String × LogicalType)} {cells : List (List Value)}
    {vectors : List NativeVector} (h : ofColumns members cells = .ok vectors) {i : Nat}
    {m : String × LogicalType} (hm : members[i]? = some m) :
    ∃ vector, vectors[i]? = some vector ∧
      ofValues m.2 (cells.map fun row => row[i]?.getD .null) = .ok vector := by
  induction members generalizing cells vectors i with
  | nil => cases hm
  | cons first members ih =>
    rw [ofColumns] at h
    obtain ⟨vector, hvector, h⟩ := Result.bind_eq_ok.mp h
    obtain ⟨vectors, hvectors, h⟩ := Result.bind_eq_ok.mp h
    cases h
    cases i with
    | zero =>
      cases hm
      refine ⟨vector, rfl, ?_⟩
      simpa only [List.headD_eq_head?_getD, List.head?_eq_getElem?] using hvector
    | succ i =>
      obtain ⟨found, hf, made⟩ := ih hvectors hm
      rw [List.map_map] at made
      refine ⟨found, hf, ?_⟩
      simpa only [Function.comp_def, List.getElem?_tail] using made

/-- The entries of a map are made from structs. -/
theorem ofValues_entries {key content : LogicalType} (valid : (entry key content).check = .ok ())
    {pairs : List (Value × Value)} {keys contents : NativeVector}
    (hk : ofValues key (pairs.map Prod.fst) = .ok keys)
    (hw : ofValues content (pairs.map Prod.snd) = .ok contents) :
    ofValues (entry key content) (pairs.map entryStruct) =
      .ok ⟨entry key content, pairs.length, #[], none, #[], [keys, contents], 0⟩ := by
  let cell (pair : Value × Value) : List Value := [pair.1, pair.2]
  have cells : (pairs.map entryStruct).mapM (memberValuesOf (entry key content) 2) =
      .ok (pairs.map cell) := by
    rw [List.mapM_map]
    exact Result.mapM_eq_map fun _ _ => rfl
  have columns : ofColumns [("key", key), ("value", content)] (pairs.map cell) =
      .ok [keys, contents] := by
    simp only [ofColumns, List.map_map]
    show (do
      let vector ← ofValues key (pairs.map Prod.fst)
      let vectors ← (do
        let vector ← ofValues content (pairs.map Prod.snd)
        return [vector])
      return vector :: vectors) = _
    rw [hk, Result.ok_bind, hw]
    rfl
  have made : ofStructParts (entry key content) pairs.length none [keys, contents] =
      .ok ⟨entry key content, pairs.length, #[], none, #[], [keys, contents], 0⟩ := by
    unfold ofStructParts bare
    rw [valid]
    rfl
  unfold entry at *
  rw [ofValues, valid]
  simp only [List.length_cons, List.length_nil, cells, columns, Result.ok_bind, present_entries,
    List.length_map, made]

/-- A view of a vector that is made from the rows, which are stored as `xs`. -/
structure ColumnView.Keeps (view : ColumnView) (type : LogicalType) (rows xs : List Value) : Prop where
  typed : view.column.type = type
  made : ofValues type rows = .ok view.native
  count : view.rows = rows.length
  stored : List.Forall₂ (StoredAs type) rows xs
  fits : Fits type xs

namespace ColumnView.Keeps

variable {view : ColumnView}

/-- A step into the children goes to the values inside the rows. -/
theorem step (h : view.Keeps type rows xs) (hs : type.stepType? s = some child) :
    ∃ next, view.step s = .ok next ∧ next.Keeps child (type.inside s rows) (type.inside s xs) := by
  suffices opens : ∃ column vector, column.type = child ∧
      ofValues child (type.inside s rows) = .ok vector ∧ view.step s =
        firstRows vector column (type.inside s rows).length (view.path ++ [s]) by
    obtain ⟨column, vector, typed, made, opens⟩ := opens
    rw [firstRows_of_le (Nat.le_of_eq (bits_of_ofValues made).2.1.symm)] at opens
    exact ⟨_, opens, typed, made, rfl, inside_storedAs h.stored hs, inside_fits h.fits hs⟩
  have made := h.made
  have typed := h.typed
  obtain ⟨rfl, rfl⟩ | ⟨size, rfl, rfl⟩ | ⟨key, content, rfl, rfl, rfl⟩ |
    ⟨members, i, m, rfl, rfl, hm, rfl⟩ := stepType_cases hs
  · obtain ⟨vector, hvector, same⟩ := ofValues_list_eq_ok made
    obtain ⟨column, hc, opens⟩ := listChildren_list typed (by rw [same]) (by rw [same])
    rw [same, (bits_of_ofValues hvector).2.1] at opens
    exact ⟨column, vector, hc, hvector, opens⟩
  · obtain ⟨vector, hvector, total, same⟩ := ofValues_array_eq_ok made
    obtain ⟨column, hc, opens⟩ := arrayChildren_array typed (by rw [same]) (by rw [same])
    have room : ¬ sizeModulus ≤ view.rows * size := by
      rw [h.count, h.stored.length_eq]
      exact Nat.not_le.mpr h.fits.1
    rw [if_neg room, h.count, ← total] at opens
    exact ⟨column, vector, hc, hvector, opens⟩
  · obtain ⟨keys, contents, hk, hw, same⟩ := ofValues_map_eq_ok made
    obtain ⟨column, hc, opens⟩ := listChildren_map typed (by rw [same]) (by rw [same])
    refine ⟨column, _, hc, ofValues_entries (hc ▸ column.valid) hk hw, ?_⟩
    rw [same] at opens
    rw [inside, List.length_map]
    exact opens
  · obtain ⟨vectors, hvectors, same⟩ := ofValues_struct_eq_ok made
    obtain ⟨vector, hv, hvector⟩ := vector_of_ofColumns hvectors hm
    rw [List.map_map] at hvector
    have kind : view.column.kind = .struct := by
      rw [Column.kind, typed]
      rfl
    have nativeKind : view.native.kind = .struct := by
      rw [same]
      rfl
    have member : view.column.type.memberTypes[i]? = some m.2 := by
      rw [typed, LogicalType.memberTypes, List.getElem?_map, hm]
      rfl
    obtain ⟨column, hc, opens⟩ := view.member_eq (.inl kind) (.inl nativeKind) member
      (by rw [same]; exact hv)
    refine ⟨column, vector, hc, hvector, ?_⟩
    rw [h.count] at opens
    rw [inside, List.length_map]
    exact opens

/-- The view at the end of a path reads the values there. -/
theorem follow (h : view.Keeps type rows xs) {path : List ViewStep} {inner : LogicalType}
    (hp : type.typeAt? path = some inner) :
    ∃ part, view.follow path = .ok part ∧
      part.Keeps inner (type.valuesAt path rows) (type.valuesAt path xs) := by
  induction path generalizing view type rows xs with
  | nil =>
    cases hp
    exact ⟨view, rfl, h⟩
  | cons s rest ih =>
    obtain ⟨child, hs, hp⟩ := Option.bind_eq_some_iff.mp hp
    obtain ⟨next, there, keeps⟩ := h.step hs
    obtain ⟨part, followed, result⟩ := ih keeps hp
    refine ⟨part, ?_, ?_⟩
    · rw [ColumnView.follow, there, Result.ok_bind, followed]
    · rwa [valuesAt, hs, valuesAt, hs]

/-- What is read from the rows through the plan for boxed values. -/
theorem boxed (h : view.Keeps type rows xs) (free : type.isUnionFree) :
    ∃ plan conv, view.column.resolveBoxed = .ok plan ∧ plan.prepare view = .ok conv ∧
      view.native.Holds type xs ∧
      ∀ (row : Nat) (inside : row < xs.length), conv.convert view row true = .ok xs[row] := by
  have valid : type.check = .ok () := h.typed ▸ view.column.valid
  obtain ⟨n, hn, holds⟩ := ofValues_holds_stored valid free rows xs h.stored h.fits
  obtain rfl : view.native = n := Except.ok.inj (h.made.symm.trans hn)
  obtain ⟨plan, hplan, computes⟩ := boxedPlan_computes valid
  have count : view.rows = xs.length := h.count.trans h.stored.length_eq
  obtain ⟨conv, hconv, reads⟩ := computes.prepares view h.typed holds.typed
    (by rw [count]; exact holds.covers)
  refine ⟨plan, conv, ?_, hconv, holds, fun row inside => ?_⟩
  · rw [Column.resolveBoxed, h.typed, hplan]
  · rw [reads row (by rwa [count]), holds.reads row inside]

end ColumnView.Keeps

end TypedColumns
