import TypedColumns.Proofs.CanonicalValues
import TypedColumns.Proofs.NestedStorage

/-!
Canonical values are written and read back: a vector made from them holds them, and the plan for the
boxed values of its column reads them, each UNION value as the value that it chooses.
-/
namespace TypedColumns

namespace LogicalType

variable {child : LogicalType} {members : List (String × LogicalType)}

/-- Where missing rows have no parts, all parts are those that `f` finds. -/
theorem mapPresent_parts {α : Type} {f : Value → Result (List α)} {cells : Value → List α}
    {rows : List Value} (missing : cells .null = [])
    (h : ∀ v ∈ rows, v = .null ∨ f v = .ok (cells v)) :
    ∃ parts, mapPresent f rows = .ok parts ∧ parts.map (·.getD []) = rows.map cells := by
  refine ⟨_, mapPresent_ok ?_, ?_⟩
  · intro v hv present
    rcases h v hv with rfl | found
    · contradiction
    · exact ⟨_, found⟩
  · rw [List.map_map]
    apply List.map_congr_left
    intro v hv
    by_cases present : v.isNull
    · cases v <;> first | exact missing.symm | contradiction
    · rw [Bool.not_eq_true] at present
      rcases h v hv with rfl | found
      · contradiction
      · simp [stored_of_ok present found]

theorem arrayItemsOf_eq {size : Nat} {v : Value} (h : Canonical (.array child size) v) :
    arrayItemsOf (.array child size) size v = .ok (arrayElements size v) := by
  rcases h with rfl | ⟨items, rfl, count, -⟩
  · rfl
  · exact if_pos count

theorem CanonicalMembers.length_eq {values : List (String × Value)}
    (h : CanonicalMembers members values) : values.length = members.length := by
  have := h.cells.length_eq
  rw [this, List.length_map]

theorem memberValuesOf_eq {v : Value} (h : Canonical (.struct members) v) :
    memberValuesOf (.struct members) members.length v = .ok (memberCells members.length v) := by
  rcases h with rfl | ⟨values, rfl, hv⟩
  · rfl
  · exact if_pos hv.length_eq

theorem alternativeValuesOf_eq {v : Value} (h : Canonical (.union members) v) :
    alternativeValuesOf (.union members) (members.map Prod.fst) v =
      .ok (alternativeTag (members.map Prod.fst) v :: alternativeCells (members.map Prod.fst) v) := by
  rcases h with rfl | ⟨name, x, rfl, hx⟩
  · rfl
  · obtain ⟨tag, m, -, hi, hi', -⟩ := hx.first
    simp only [alternativeValuesOf, hi', alternativeTag, alternativeCells, hi]

theorem length_of_check_union (h : (union members).check = .ok ()) : members.length ≤ 255 := by
  rw [check] at h
  split_ifs at h with bad
  omega

theorem alternativeTag_hasSlot (names : List String) (v : Value) :
    alternativeTag names v = .null ∨ (scalar (.int .u8)).HasSlot (alternativeTag names v) := by
  unfold alternativeTag
  split
  · exact .inr ((int_wordSlots .u8).hasSlot_of_word rfl)
  · exact .inl rfl

/-- The tag of a UNION row points to the cell with the chosen value. -/
theorem chosen_union (few : members.length ≤ 255) {v : Value} (h : Canonical (.union members) v)
    (present : v.isNull = false) : ∃ k : Word .u8,
      alternativeTag (members.map Prod.fst) v = .int .u8 k ∧
      (chosenCells members (alternativeCells (members.map Prod.fst) v))[k.val.toNat]? =
        some (chosen (.union members) v) := by
  rcases h with rfl | ⟨name, x, rfl, hx⟩
  · contradiction
  · obtain ⟨tag, m, hm, hi, -, -, hc⟩ := hx.first
    have inside : tag < members.length := (List.getElem?_eq_some_iff.mp hm).1
    have number : (Word.wrap .u8 (tag : Int)).val = tag := by
      apply Word.wrap_val_of_holds
      simp only [IntKind.Holds, IntKind.min, IntKind.max]
      omega
    refine ⟨.wrap .u8 tag, by rw [alternativeTag, hi], ?_⟩
    rw [number, Int.toNat_natCast, alternativeCells, hi, chosen, hc, chosenCells,
      List.getElem?_zipWith, hm, List.getElem?_set_self (by simpa using inside)]

end LogicalType

namespace NativeVector

open LogicalType

/-- Writing rows of the type gives a vector that holds them. -/
def Writes (type : LogicalType) : Prop :=
  ∀ rows : List Value, (∀ v ∈ rows, Canonical type v) → Fits type rows →
    ∃ n, ofValues type rows = .ok n ∧ n.Holds type (rows.map (chosen type))

theorem writes_slotted {type : LogicalType} (valid : type.check = .ok ()) (slotted : type.isSlotted)
    {rows : List Value} (canonical : ∀ v ∈ rows, Canonical type v) (fits : Fits type rows) :
    ∃ n, ofSlotValues type rows = .ok n ∧ n.Holds type (rows.map (chosen type)) := by
  have leaf := leaf_of_slotted slotted
  have slots : ∀ v ∈ rows, v = .null ∨ type.HasSlot v := by
    intro v hv
    rcases leafAt_of_canonical leaf valid (canonical v hv) with missing | ⟨n, row, hx⟩
    · exact .inl missing
    · exact .inr (hasSlot_of_leafAt valid slotted hx)
  rw [map_chosen_leaf leaf]
  obtain ⟨width, hw⟩ := slotWidth_of_slotted slotted valid
  have room := (fits_leaf leaf fits).1
  rw [hw] at room
  exact ofSlotValues_holds valid slotted hw slots room

theorem writes_payloads {kind : Kind} (string : kind.isStringLike) {rows : List Value}
    (canonical : ∀ v ∈ rows, Canonical (.scalar kind) v) (fits : Fits (.scalar kind) rows) :
    ∃ n, ofPayloadValues (.scalar kind) rows = .ok n ∧
      n.Holds (.scalar kind) (rows.map (chosen (.scalar kind))) := by
  have leaf := leaf_of_stringLike string
  have payloads : ∀ v ∈ rows, v = .null ∨ (LogicalType.scalar kind).HasPayload v := by
    intro v hv
    rcases leafAt_of_canonical leaf (check_of_stringLike string) (canonical v hv) with
      missing | ⟨n, row, hx⟩
    · exact .inl missing
    · exact .inr (hasPayload_of_leafAt string hx)
  rw [map_chosen_leaf leaf]
  obtain ⟨room, short⟩ := fits_leaf leaf fits
  rw [slotWidth_of_stringLike string, Option.getD_some] at room
  exact ofPayloadValues_holds string payloads short (by omega)

theorem writes_list {child : LogicalType} (valid : child.check = .ok ()) (ih : Writes child) :
    Writes (.list child) := by
  intro rows canonical fits
  have items : ∀ x ∈ (rows.map elements).flatten, Canonical child x := by
    intro x hx
    rw [← List.flatMap_def, List.mem_flatMap] at hx
    obtain ⟨v, hv, hx⟩ := hx
    rcases canonical v hv with rfl | ⟨items, rfl, h⟩
    · simp [elements, Value.items?] at hx
    · exact h x hx
  obtain ⟨vector, hvector, holds⟩ := ih _ items fits.2
  have found : ∀ v ∈ rows, v = .null ∨ itemsOf (.list child) v = .ok (elements v) := by
    intro v hv
    rcases canonical v hv with missing | ⟨items, rfl, -⟩
    · exact .inl missing
    · exact .inr rfl
  obtain ⟨parts, hparts, hitems⟩ := mapPresent_parts rfl found
  have hvalue : ∀ v ∈ rows, v.isNull = false →
      chosen (.list child) v = .list ((elements v).map (chosen child)) := by
    intro v hv present
    rcases canonical v hv with rfl | ⟨items, rfl, -⟩
    · contradiction
    · rfl
  have total := fits.1
  rw [← List.length_map (chosen child), map_flatten_map] at total
  rw [map_flatten_map] at holds
  obtain ⟨n, hn, h⟩ := list_holds valid rfl hvalue holds total
  rw [← lengths_map] at hn
  refine ⟨n, ?_, h⟩
  rw [ofValues, valid]
  simp only [hparts, Result.ok_bind, hitems, hvector, hn]

theorem writes_array {child : LogicalType} {size : Nat} (valid : child.check = .ok ())
    (ih : Writes child) : Writes (.array child size) := by
  intro rows canonical fits
  have items : ∀ x ∈ (rows.map (arrayElements size)).flatten, Canonical child x := by
    intro x hx
    rw [← List.flatMap_def, List.mem_flatMap] at hx
    obtain ⟨v, hv, hx⟩ := hx
    rcases canonical v hv with rfl | ⟨items, rfl, -, h⟩
    · rw [List.eq_of_mem_replicate hx]
      exact canonical_null child
    · exact h x hx
  obtain ⟨vector, hvector, holds⟩ := ih _ items fits.2
  have sizes : ∀ v ∈ rows, ((arrayElements size v).map (chosen child)).length = size := by
    intro v hv
    rw [List.length_map]
    rcases canonical v hv with rfl | ⟨items, rfl, count, -⟩
    · exact List.length_replicate
    · exact count
  have hvalue : ∀ v ∈ rows, v.isNull = false →
      chosen (.array child size) v = .list ((arrayElements size v).map (chosen child)) := by
    intro v hv present
    rcases canonical v hv with rfl | ⟨items, rfl, -⟩
    · contradiction
    · rfl
  rw [map_flatten_map] at holds
  obtain ⟨n, hn, h⟩ := array_holds valid rfl hvalue sizes holds fits.1
  refine ⟨n, ?_, h⟩
  rw [ofValues, valid]
  simp only [Result.mapM_eq_map fun v hv => arrayItemsOf_eq (canonical v hv), Result.ok_bind, hvector,
    hn]

theorem writes_map {key content : LogicalType} (valid : (map key content).check = .ok ())
    (ihk : Writes key) (ihw : Writes content) : Writes (.map key content) := by
  intro rows canonical fits
  have pairs : ∀ x ∈ (rows.map entries).flatten, Canonical key x.1 ∧ Canonical content x.2 := by
    intro x hx
    rw [← List.flatMap_def, List.mem_flatMap] at hx
    obtain ⟨v, hv, hx⟩ := hx
    rcases canonical v hv with rfl | ⟨pairs, rfl, h⟩
    · simp [entries, Value.entries?] at hx
    · exact h x hx
  obtain ⟨keys, hkeys, holdsKeys⟩ := ihk ((rows.map entries).flatten.map Prod.fst) (by
    intro x hx
    obtain ⟨pair, hp, rfl⟩ := List.mem_map.mp hx
    exact (pairs pair hp).1) fits.2.1
  obtain ⟨contents, hcontents, holdsContents⟩ := ihw ((rows.map entries).flatten.map Prod.snd) (by
    intro x hx
    obtain ⟨pair, hp, rfl⟩ := List.mem_map.mp hx
    exact (pairs pair hp).2) fits.2.2
  have found : ∀ v ∈ rows, v = .null ∨ entriesOf (.map key content) v = .ok (entries v) := by
    intro v hv
    rcases canonical v hv with missing | ⟨pairs, rfl, -⟩
    · exact .inl missing
    · exact .inr rfl
  obtain ⟨parts, hparts, hitems⟩ := mapPresent_parts rfl found
  let pair (entry : Value × Value) : Value × Value := (chosen key entry.1, chosen content entry.2)
  have joined := map_flatten_map pair entries rows
  have hvalue : ∀ v ∈ rows, v.isNull = false →
      chosen (.map key content) v = .map ((entries v).map pair) := by
    intro v hv present
    rcases canonical v hv with rfl | ⟨pairs, rfl, -⟩
    · contradiction
    · rfl
  have total := congrArg List.length joined
  rw [List.length_map] at total
  rw [List.map_map] at holdsKeys holdsContents
  have keysHold : keys.Holds key ((rows.map fun v => (entries v).map pair).flatten.map Prod.fst) := by
    rw [← joined, List.map_map]
    exact holdsKeys
  have contentsHold :
      contents.Holds content ((rows.map fun v => (entries v).map pair).flatten.map Prod.snd) := by
    rw [← joined, List.map_map]
    exact holdsContents
  obtain ⟨entryVector, n, hentries, hn, h⟩ := map_holds valid rfl hvalue keysHold contentsHold
    (total ▸ fits.1)
  rw [← total] at hentries hn
  rw [← lengths_map] at hn
  refine ⟨n, ?_, h⟩
  rw [ofValues, valid]
  simp only [hparts, Result.ok_bind, hitems, hkeys, hcontents, hentries, hn]

theorem writes_columns {members : List (String × LogicalType)} (ih : ∀ m ∈ members, Writes m.2)
    {cells : List (List Value)} (canonical : ∀ row ∈ cells, CanonicalCells members row)
    (fits : FitAll members cells) : ∃ vectors, ofColumns members cells = .ok vectors ∧
      HoldAll members vectors (cells.map (chosenCells members)) := by
  induction members generalizing cells with
  | nil =>
    refine ⟨[], rfl, .nil ?_⟩
    intro row hrow
    obtain ⟨row, -, rfl⟩ := List.mem_map.mp hrow
    rfl
  | cons m rest ihRest =>
    have heads : ∀ x ∈ cells.map fun row => row.headD .null, Canonical m.2 x := by
      intro x hx
      obtain ⟨row, hrow, rfl⟩ := List.mem_map.mp hx
      obtain ⟨x, others, rfl, canonical, -⟩ := (canonical row hrow).split
      exact canonical
    have tails : ∀ row ∈ cells.map List.tail, CanonicalCells rest row := by
      intro row hrow
      obtain ⟨cell, hcell, rfl⟩ := List.mem_map.mp hrow
      obtain ⟨x, others, rfl, -, canonical, -⟩ := (canonical cell hcell).split
      exact canonical
    obtain ⟨vector, hvector, first⟩ := ih m List.mem_cons_self _ heads fits.1
    obtain ⟨vectors, hvectors, others⟩ :=
      ihRest (fun m' hm' => ih m' (List.mem_cons_of_mem _ hm')) tails fits.2
    have written : ofColumns (m :: rest) cells = .ok (vector :: vectors) := by
      rw [ofColumns, hvector, Result.ok_bind, hvectors]
      rfl
    refine ⟨vector :: vectors, written, .cons ?_ ?_ ?_⟩
    · intro row hrow
      obtain ⟨cell, hcell, rfl⟩ := List.mem_map.mp hrow
      obtain ⟨x, others, -, -, -, hchosen⟩ := (canonical cell hcell).split
      rw [hchosen]
      exact List.cons_ne_nil _ _
    · rw [List.map_map] at first ⊢
      convert first using 1
      apply List.map_congr_left
      intro row hrow
      obtain ⟨x, others, rfl, -⟩ := (canonical row hrow).split
      rfl
    · rw [List.map_map] at others ⊢
      convert others using 1
      apply List.map_congr_left
      intro row hrow
      obtain ⟨x, others, rfl, -⟩ := (canonical row hrow).split
      rfl

theorem writes_struct {members : List (String × LogicalType)}
    (valid : (LogicalType.struct members).check = .ok ()) (ih : ∀ m ∈ members, Writes m.2) :
    Writes (.struct members) := by
  intro rows canonical fits
  obtain ⟨vectors, hvectors, holds⟩ := writes_columns ih (by
    intro row hrow
    obtain ⟨v, hv, rfl⟩ := List.mem_map.mp hrow
    exact canonicalCells_struct (canonical v hv)) fits
  rw [List.map_map] at holds
  obtain ⟨n, hn, h⟩ := struct_holds valid rfl
    (fun v hv present => chosen_struct (canonical v hv) present) holds
  refine ⟨n, ?_, h⟩
  rw [ofValues, valid]
  simp only [Result.mapM_eq_map fun v hv => memberValuesOf_eq (canonical v hv), Result.ok_bind,
    hvectors, hn]

theorem writes_union {members : List (String × LogicalType)}
    (valid : (LogicalType.union members).check = .ok ()) (ih : ∀ m ∈ members, Writes m.2) :
    Writes (.union members) := by
  intro rows canonical fits
  have few := length_of_check_union valid
  obtain ⟨vectors, hvectors, holds⟩ := writes_columns ih (by
    intro row hrow
    obtain ⟨v, hv, rfl⟩ := List.mem_map.mp hrow
    exact canonicalCells_union (canonical v hv)) fits.2
  have slots : ∀ tag ∈ rows.map (alternativeTag (members.map Prod.fst)),
      tag = .null ∨ (scalar (.int .u8)).HasSlot tag := by
    intro tag ht
    obtain ⟨v, -, rfl⟩ := List.mem_map.mp ht
    exact alternativeTag_hasSlot _ v
  have room : (rows.map (alternativeTag (members.map Prod.fst))).length * 1 < sizeModulus := by
    rw [Nat.mul_one, List.length_map]
    exact fits.1
  obtain ⟨tags, htags, holdsTags⟩ := ofSlotValues_holds rfl rfl rfl slots room
  rw [List.map_map] at holds
  obtain ⟨n, hn, h⟩ := union_holds valid rfl
    (fun v hv present => chosen_union few (canonical v hv) present) holdsTags holds
  refine ⟨n, ?_, h⟩
  rw [ofValues, valid]
  simp only [Result.mapM_eq_map fun v hv => alternativeValuesOf_eq (canonical v hv), Result.ok_bind,
    List.map_map]
  show (do
    let tags ← ofSlotValues (.scalar (.int .u8)) (rows.map (alternativeTag (members.map Prod.fst)))
    let vectors ← ofColumns members (rows.map (alternativeCells (members.map Prod.fst)))
    ofStructParts (.union members) rows.length (present rows) (tags :: vectors)) = .ok n
  rw [htags, Result.ok_bind, hvectors, Result.ok_bind, hn]

/-- Canonical rows of a well-formed type are written, and the vector holds them. -/
theorem writes_of_check {type : LogicalType} (valid : type.check = .ok ()) : Writes type := by
  induction type using induction_on_members with
  | scalar kind =>
    intro rows canonical fits
    rw [ofValues, valid]
    by_cases null : kind = .null
    · subst null
      have missing : ∀ v ∈ rows, v = .null := canonical
      rw [map_chosen_leaf rfl]
      exact ⟨_, rfl, nulls_holds missing⟩
    · by_cases string : kind.isStringLike
      · simp only [null, string, if_true, if_false]
        exact writes_payloads string canonical fits
      · have slotted : (LogicalType.scalar kind).isSlotted := by
          have leaf := check_scalar_nested valid
          simp [isSlotted, LogicalType.kind] at leaf ⊢
          simp [leaf, string, null]
        simp only [null, string, if_false]
        exact writes_slotted valid slotted canonical fits
  | decimal width scale =>
    intro rows canonical fits
    rw [ofValues, valid]
    exact writes_slotted valid rfl canonical fits
  | enum dictionary =>
    intro rows canonical fits
    rw [ofValues, valid]
    exact writes_slotted valid rfl canonical fits
  | list child ih =>
    rw [check_list] at valid
    exact writes_list valid (ih valid)
  | array child size ih =>
    rw [check_array] at valid
    exact writes_array valid (ih valid)
  | struct members ih => exact writes_struct valid fun m hm => ih m hm (checkAll_of_mem valid hm)
  | map key content ihk ihw =>
    exact writes_map valid (ihk (check_map_left valid)) (ihw (check_map_right valid))
  | union alternatives ih =>
    exact writes_union valid fun m hm => ih m hm (checkAll_of_mem (checkAll_of_check_union valid) hm)

end NativeVector

open LogicalType NativeVector

/-- The plan for boxed values gives the answers of a vector. -/
theorem ColumnView.reads_of_answers {type : LogicalType} (valid : type.check = .ok ())
    {native : NativeVector} {answers : List (Result Value)} (h : native.Answers type answers) :
    ∃ view plan conv, ColumnView.ofNative native answers.length = .ok view ∧
      view = ⟨⟨type, valid⟩, answers.length, native, []⟩ ∧
      view.column.resolveBoxed = .ok plan ∧ plan.prepare view = .ok conv ∧
      ∀ (i : Nat) (h : i < answers.length), conv.convert view i true = answers[i] := by
  obtain ⟨plan, hplan, computes⟩ := LogicalType.boxedPlan_computes valid
  let view : ColumnView := ⟨⟨type, valid⟩, answers.length, native, []⟩
  obtain ⟨conv, hconv, reads⟩ := computes.prepares view rfl h.typed h.covers
  have opens : ofNative native answers.length = .ok view := by
    unfold ofNative
    rw [h.typed.type_eq, Column.ofType_of_check valid, Result.ok_bind,
      firstRows_of_le (Nat.le_of_eq h.rows.symm)]
  refine ⟨view, plan, conv, opens, rfl, hplan, hconv, ?_⟩
  intro i inside
  rw [reads i inside, h.reads i inside]

/-- All rows of a vector are read through the plan for boxed values. -/
theorem ColumnView.reads_of_holds {type : LogicalType} (valid : type.check = .ok ())
    {native : NativeVector} {values : List Value} (holds : native.Holds type values) :
    ∃ view plan conv, ColumnView.ofNative native values.length = .ok view ∧
      view.column.type = type ∧ view.column.resolveBoxed = .ok plan ∧ plan.prepare view = .ok conv ∧
      ∀ (i : Nat) (h : i < values.length), conv.convert view i true = .ok values[i] := by
  obtain ⟨view, plan, conv, opens, same, hplan, hconv, reads⟩ :=
    reads_of_answers valid (holds_iff_answers.mp holds)
  rw [List.length_map] at opens
  refine ⟨view, plan, conv, opens, by rw [same], hplan, hconv, fun i h => ?_⟩
  rw [reads i (by rwa [List.length_map]), List.getElem_map]

/-- Rows that are canonical for a well-formed type are written, and all of them are read back through
the plan for boxed values: each with its UNION values replaced by the values that they choose, and as
it was where the type has no UNION. -/
theorem ColumnView.boxed_roundTrip {type : LogicalType} (valid : type.check = .ok ())
    {rows : List Value} (canonical : ∀ v ∈ rows, type.Canonical v) (fits : type.Fits rows) :
    ∃ native view plan conv, NativeVector.ofValues type rows = .ok native ∧
      ColumnView.ofNative native rows.length = .ok view ∧ view.column.type = type ∧
      view.column.resolveBoxed = .ok plan ∧ plan.prepare view = .ok conv ∧
      ∀ (i : Nat) (h : i < rows.length), conv.convert view i true = .ok (type.chosen rows[i]) ∧
        (type.isUnionFree → conv.convert view i true = .ok rows[i]) := by
  obtain ⟨native, hnative, holds⟩ := writes_of_check valid rows canonical fits
  obtain ⟨view, plan, conv, opens, htype, hplan, hconv, reads⟩ := reads_of_holds valid holds
  rw [List.length_map] at opens
  refine ⟨native, view, plan, conv, hnative, opens, htype, hplan, hconv, ?_⟩
  intro i h
  have found : conv.convert view i true = .ok (type.chosen rows[i]) := by
    rw [reads i (by rwa [List.length_map]), List.getElem_map]
  refine ⟨found, ?_⟩
  intro free
  rw [found, chosen_eq_self free]

/-- Both booleans are read from slots. -/
theorem LogicalType.boolean_readable (b : Bool) :
    (LogicalType.scalar .boolean).Readable (.boolean b) := by
  let native : NativeVector := ⟨.scalar .boolean, 1, #[if b then 1 else 0], none, #[], [], 0⟩
  refine ⟨⟨⟨.scalar .boolean, rfl⟩, 1, native, []⟩, _, 0, rfl, rfl, rfl, ?_⟩
  cases b <;> rfl

theorem LogicalType.boolean_fits {rows : List Value} (h : rows.length < sizeModulus) :
    (LogicalType.scalar .boolean).Fits rows := by
  refine ⟨by rwa [show (scalar .boolean).storage.slotWidth?.getD 0 = 1 from rfl, Nat.mul_one], ?_⟩
  intro v _ payload hp
  cases v <;> simp [payloadOf, kind] at hp

/-- A list with a UNION value in it, and a missing list. -/
theorem ColumnView.boxed_roundTrip_list_of_unions :
    let type := LogicalType.list (.union [("left", .scalar .boolean), ("right", .scalar .boolean)])
    let rows := [Value.list [.struct [("right", .boolean true)], .null], .null]
    ∃ native view plan conv, NativeVector.ofValues type rows = .ok native ∧
      ColumnView.ofNative native 2 = .ok view ∧ view.column.resolveBoxed = .ok plan ∧
      plan.prepare view = .ok conv ∧
      conv.convert view 0 true = .ok (.list [.boolean true, .null]) ∧
      conv.convert view 1 true = .ok .null := by
  intro type rows
  have canonical : ∀ v ∈ rows, type.Canonical v := by
    intro v hv
    rcases List.mem_pair.mp hv with rfl | rfl
    · refine .inr ⟨_, rfl, ?_⟩
      intro item hitem
      rcases List.mem_pair.mp hitem with rfl | rfl
      · exact .inr ⟨"right", _, rfl, .inr (LogicalType.boolean_readable true)⟩
      · exact .inl rfl
    · exact .inl rfl
  have fits : type.Fits rows :=
    ⟨by decide, by decide, LogicalType.boolean_fits (by decide),
      LogicalType.boolean_fits (by decide), trivial⟩
  obtain ⟨native, view, plan, conv, hnative, hview, -, hplan, hconv, reads⟩ :=
    boxed_roundTrip rfl canonical fits
  exact ⟨native, view, plan, conv, hnative, hview, hplan, hconv, (reads 0 (by decide)).1,
    (reads 1 (by decide)).1⟩

/-- Not every canonical row comes back as it was: the name of the alternative is not read. -/
theorem ColumnView.boxed_roundTrip_without_names : ¬ ∀ (type : LogicalType) (rows : List Value),
    type.check = .ok () → (∀ v ∈ rows, type.Canonical v) → type.Fits rows →
      ∃ native view plan conv, NativeVector.ofValues type rows = .ok native ∧
        ColumnView.ofNative native rows.length = .ok view ∧ view.column.type = type ∧
        view.column.resolveBoxed = .ok plan ∧ plan.prepare view = .ok conv ∧
        ∀ (i : Nat) (h : i < rows.length), conv.convert view i true = .ok rows[i] := by
  intro claim
  have canonical : ∀ v ∈ [Value.struct [("flag", .boolean true)]],
      (LogicalType.union [("flag", .scalar .boolean)]).Canonical v := by
    intro v hv
    rw [List.mem_singleton] at hv
    exact .inr ⟨"flag", .boolean true, hv, .inr (LogicalType.boolean_readable true)⟩
  have fits : (LogicalType.union [("flag", .scalar .boolean)]).Fits
      [.struct [("flag", .boolean true)]] :=
    ⟨by decide, LogicalType.boolean_fits (by decide), trivial⟩
  obtain ⟨native, view, plan, conv, hnative, hview, -, hplan, hconv, reads⟩ :=
    claim _ _ rfl canonical fits
  cases hnative
  cases hview
  cases hplan
  cases hconv
  cases reads 0 Nat.one_pos

end TypedColumns
