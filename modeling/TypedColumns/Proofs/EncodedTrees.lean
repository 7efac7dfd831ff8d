import TypedColumns.Proofs.Binding
import TypedColumns.Proofs.Constructors
import TypedColumns.Proofs.RoundTrip

/-!
The trees of vectors that values are encoded in. Whatever the values are, a vector that is made from
them is well formed at every node: rows, bits and slots are those of its values, the spans and
members lead to rows that exist, and children have the types that columns derive for them.
-/
namespace TypedColumns

open LogicalType

/-- A column derives a type for the child at position `i`. -/
def Column.Derives (c : Column) (i : Nat) (type : LogicalType) : Prop :=
  ∃ d : Column, d.type = type ∧ (i = 0 ∧ c.child = .ok d ∨ c.member i = .ok d)

theorem Column.derives_iff {c : Column} {i : Nat} {type : LogicalType} :
    c.Derives i type ↔ c.type.childTypes[i]? = some type := by
  constructor
  · rintro ⟨d, rfl, ⟨rfl, child⟩ | member⟩
    · exact child_type child
    · exact member_type member
  · intro h
    have lone {child : LogicalType} (types : c.type.childTypes = [child])
        (child : ∃ d, c.child = .ok d ∧ d.type = child) : c.Derives i type := by
      rw [types, List.getElem?_singleton] at h
      split_ifs at h with first
      obtain ⟨d, hd, typed⟩ := child
      exact ⟨d, typed.trans (Option.some_inj.mp h), .inl ⟨first, hd⟩⟩
    have element {child : LogicalType} (part : c.type.element? = some child) :
        c.Derives i type := lone (childTypes_element part) (child_element part)
    cases ht : c.type with
    | list child => exact element (by rw [ht]; rfl)
    | array child size => exact element (by rw [ht]; rfl)
    | map key content => exact lone (by rw [ht]; rfl) (child_map ht)
    | struct members =>
      have kind : c.kind = .struct := by rw [Column.kind, ht]; rfl
      rw [childTypes_members (.inl kind)] at h
      obtain ⟨d, hd, typed⟩ := member_ok (.inl kind) h
      exact ⟨d, typed, .inr hd⟩
    | union alternatives =>
      have kind : c.kind = .union := by rw [Column.kind, ht]; rfl
      rw [childTypes_members (.inr kind)] at h
      obtain ⟨d, hd, typed⟩ := member_ok (.inr kind) h
      exact ⟨d, typed, .inr hd⟩
    | _ => simp [ht, childTypes, memberTypes] at h

namespace NativeVector

/-- What one vector of a tree has for the rows that it was made from. -/
structure HasRows (n : NativeVector) (type : LogicalType) (rows : List Value) : Prop where
  typed : n.type = type
  count : n.rows = rows.length
  /-- As many bytes as the slots of all rows have; none for types without slots. -/
  slots : n.data.size = rows.length * type.storage.slotWidth?.getD 0
  valid : type ≠ .scalar .null → ∀ (row : Nat) (h : row < rows.length),
    n.bit? row = some !rows[row].isNull
  complete : type ≠ .scalar .null → (n.bitmap = none ↔ ∀ v ∈ rows, v.isNull = false)
  nothing : type = .scalar .null →
    n.bitmap.isSome ∧ ∀ row < rows.length, n.bit? row = some false
  /-- There are the children that a column of the type derives, of the types that it derives. -/
  derived : ∀ c : Column, c.type = type → ∀ i t,
    n.children[i]?.map NativeVector.type = some t ↔ c.Derives i t

/-- The entries of rows of the given lengths: each starts where the one before it ends, and together
they use all rows of the child. -/
structure Spans (n : NativeVector) (lengths : List Nat) (child : NativeVector) : Prop where
  total : n.childRows = lengths.sum
  covered : child.rows = n.childRows
  entries : ∀ (row : Nat) (h : row < lengths.length), n.entry? row =
    some ⟨.wrap .u64 ((lengths.take row).sum : Nat), .wrap .u64 lengths[row]⟩
  /-- Counts that a size can hold are stored as they are. -/
  exact : n.childRows < sizeModulus → ∀ (row : Nat) (h : row < lengths.length) (e : ListEntry),
    n.entry? row = some e → e.offset.val = (lengths.take row).sum ∧ e.length.val = lengths[row]

/-- The tag of a row that is there names one of the alternatives, and all others are missing in that
row; in a missing row all of them are. -/
structure Chooses (tags : NativeVector) (vectors : List NativeVector) (rows : List Value) : Prop where
  there : ∀ (row : Nat) (h : row < rows.length), rows[row].isNull = false →
    ∃ tag < vectors.length, tags.bit? row = some true ∧ tags.tagAt row = .ok tag ∧
      ∀ j v, vectors[j]? = some v → j ≠ tag → v.bit? row = some false
  missing : ∀ (row : Nat) (h : row < rows.length), rows[row].isNull →
    ∀ v ∈ vectors, v.bit? row = some false

mutual

/-- A well-formed tree for the rows: every node has them, and its children are such trees for what
the rows have in them. -/
def Encodes : LogicalType → NativeVector → (rows : List Value) → Prop
  | .list child, n, rows => n.HasRows (.list child) rows ∧ ∃ vector, n.children = [vector] ∧
      n.Spans (rows.map fun v => (elements v).length) vector ∧
      Encodes child vector (rows.map elements).flatten
  | .array child size, n, rows => n.HasRows (.array child size) rows ∧
      ∃ vector, n.children = [vector] ∧ vector.rows = rows.length * size ∧
        Encodes child vector (rows.map (arrayElements size)).flatten
  | .struct members, n, rows => n.HasRows (.struct members) rows ∧
      EncodeAll members n.children (rows.map (memberCells members.length))
  | .map key content, n, rows => n.HasRows (.map key content) rows ∧
      ∃ pairs keys contents, n.children = [pairs] ∧ pairs.children = [keys, contents] ∧
        n.Spans (rows.map fun v => (entries v).length) pairs ∧
        pairs.HasRows (.entry key content) ((rows.map entries).flatten.map fun entry =>
          .struct [("key", entry.1), ("value", entry.2)]) ∧
        Encodes key keys ((rows.map entries).flatten.map Prod.fst) ∧
        Encodes content contents ((rows.map entries).flatten.map Prod.snd)
  | .union alternatives, n, rows => n.HasRows (.union alternatives) rows ∧
      ∃ tags vectors, n.children = tags :: vectors ∧
        tags.HasRows (.scalar (.int .u8)) (rows.map (alternativeTag (alternatives.map Prod.fst))) ∧
        EncodeAll alternatives vectors (rows.map (alternativeCells (alternatives.map Prod.fst))) ∧
        Chooses tags vectors rows
  | type, n, rows => n.HasRows type rows

/-- One tree for each member, from one row of cells after another. -/
def EncodeAll : List (String × LogicalType) → List NativeVector → (cells : List (List Value)) → Prop
  | [], [], _ => True
  | (_, type) :: rest, v :: vectors, cells =>
    Encodes type v (cells.map fun row => row.headD .null) ∧
      EncodeAll rest vectors (cells.map List.tail)
  | _, _, _ => False

end

theorem present_eq_none {rows : List Value} : present rows = none ↔ ∀ v ∈ rows, v.isNull = false := by
  simp [present, Bitmap.ofFlags_eq_none]

/-- The bitmap of the rows makes their bits. -/
theorem HasRows.of_present {n : NativeVector} {type : LogicalType} {rows : List Value}
    (typed : n.type = type) (count : n.rows = rows.length)
    (slots : n.data.size = rows.length * type.storage.slotWidth?.getD 0)
    (hb : n.bitmap = present rows) (some : type ≠ .scalar .null)
    (children : n.children.map NativeVector.type = type.childTypes) : n.HasRows type rows := by
  refine ⟨typed, count, slots, fun _ row hrow => bit?_present hb hrow, fun _ => ?_,
    fun null => absurd null some, ?_⟩
  · rw [hb, present_eq_none]
  · rintro c rfl i t
    rw [Column.derives_iff, ← children, List.getElem?_map]

theorem hasRows_nulls (rows : List Value) : (nulls rows.length).HasRows (.scalar .null) rows := by
  refine ⟨rfl, rfl, rfl, fun some => absurd rfl some, fun some => absurd rfl some,
    fun _ => ⟨rfl, fun row hrow => bit?_nulls hrow⟩, ?_⟩
  rintro c hc i t
  rw [Column.derives_iff, hc]
  simp [nulls, childTypes, memberTypes]

/-- A null value is a missing row in vectors of every type. -/
theorem HasRows.bit?_null {n : NativeVector} {type : LogicalType} {rows : List Value}
    (h : n.HasRows type rows) {row : Nat} (hrow : row < rows.length) (null : rows[row] = .null) :
    n.bit? row = some false := by
  by_cases nothing : type = .scalar .null
  · exact (h.nothing nothing).2 row hrow
  · rw [h.valid nothing row hrow, null]
    rfl

theorem Encodes.hasRows {n : NativeVector} {type : LogicalType} {rows : List Value}
    (h : n.Encodes type rows) : n.HasRows type rows := by
  cases type with
  | list _ | array _ _ | struct _ | map _ _ | union _ => exact h.1
  | _ => exact h

theorem EncodeAll.types {members : List (String × LogicalType)} {vectors : List NativeVector}
    {cells : List (List Value)} (h : EncodeAll members vectors cells) :
    vectors.map NativeVector.type = members.map Prod.snd := by
  induction members generalizing vectors cells with
  | nil =>
    cases vectors with
    | nil => rfl
    | cons v vectors => exact h.elim
  | cons m members ih =>
    cases vectors with
    | nil => exact h.elim
    | cons v vectors => rw [List.map_cons, List.map_cons, h.1.hasRows.typed, ih h.2]

/-- A null cell is a missing row of its member. -/
theorem EncodeAll.bit?_null {members : List (String × LogicalType)} {vectors : List NativeVector}
    {cells : List (List Value)} (h : EncodeAll members vectors cells) {row : Nat}
    (hrow : row < cells.length) {j : Nat} {v : NativeVector} (hj : vectors[j]? = some v)
    (null : cells[row][j]?.getD .null = .null) : v.bit? row = some false := by
  induction members generalizing vectors cells j with
  | nil =>
    cases vectors with
    | nil => simp at hj
    | cons v vectors => exact h.elim
  | cons m members ih =>
    cases vectors with
    | nil => exact h.elim
    | cons first vectors =>
      cases j with
      | zero =>
        obtain rfl : first = v := by simpa using hj
        apply h.1.hasRows.bit?_null (by rwa [List.length_map])
        rw [List.getElem_map, List.headD_eq_head?_getD, List.head?_eq_getElem?]
        exact null
      | succ j =>
        apply ih h.2 (by rwa [List.length_map]) (by simpa using hj)
        rw [List.getElem_map, List.getElem?_tail]
        exact null

end NativeVector

namespace LogicalType

/-- Where all rows are written, every value that is there is. -/
theorem mapPresent_eq_ok {α : Type} {f : Value → Result α} {rows : List Value}
    {cells : List (Option α)} (h : mapPresent f rows = .ok cells) :
    cells = rows.map (stored f) ∧ ∀ v ∈ rows, v.isNull = false → ∃ a, f v = .ok a := by
  have there : ∀ v ∈ rows, v.isNull = false → ∃ a, f v = .ok a := by
    intro v hv present
    obtain ⟨cell, hc⟩ := Result.ok_of_mapM h v hv
    rw [if_neg (by rw [present]; exact Bool.false_ne_true)] at hc
    obtain ⟨a, ha, -⟩ := Result.map_eq_ok.mp hc
    exact ⟨a, ha⟩
  rw [mapPresent_ok there] at h
  exact ⟨(Except.ok.inj h).symm, there⟩

/-- The parts of rows that are written are those that `part` finds. -/
theorem parts_of_mapPresent {α : Type} {f : Value → Result (List α)} (part : Value → List α)
    {rows : List Value} {cells : List (Option (List α))} (h : mapPresent f rows = .ok cells)
    (missing : part .null = []) (found : ∀ v parts, f v = .ok parts → parts = part v) :
    cells.map (·.getD []) = rows.map part := by
  obtain ⟨rfl, there⟩ := mapPresent_eq_ok h
  rw [List.map_map]
  apply List.map_congr_left
  intro v hv
  cases present : v.isNull with
  | true =>
    cases v <;> first | exact missing.symm | contradiction
  | false =>
    obtain ⟨parts, hp⟩ := there v hv present
    simp [stored_of_ok present hp, found v parts hp]

theorem itemsOf_eq {type : LogicalType} {v : Value} {items : List Value}
    (h : itemsOf type v = .ok items) : items = elements v := by
  unfold itemsOf at h
  split at h
  · next hi =>
    cases h
    rw [elements, hi]
    rfl
  · cases h

theorem entriesOf_eq {type : LogicalType} {v : Value} {pairs : List (Value × Value)}
    (h : entriesOf type v = .ok pairs) : pairs = entries v := by
  unfold entriesOf at h
  split at h
  · next hi =>
    cases h
    rw [entries, hi]
    rfl
  · cases h

theorem arrayElements_of_ok {type : LogicalType} {size : Nat} {v : Value} {items : List Value}
    (h : arrayItemsOf type size v = .ok items) :
    items = arrayElements size v ∧ items.length = size := by
  unfold arrayItemsOf at h
  split at h
  · cases h
    exact ⟨rfl, List.length_replicate⟩
  · next items' =>
    split at h
    · next count =>
      cases h
      exact ⟨rfl, count⟩
    · cases h
  · cases h

theorem memberCells_of_ok {type : LogicalType} {count : Nat} {v : Value} {cells : List Value}
    (h : memberValuesOf type count v = .ok cells) : cells = memberCells count v := by
  unfold memberValuesOf at h
  split at h
  · cases h
    rfl
  · split at h
    · cases h
      rfl
    · cases h
  · cases h

theorem idxOf_of_idxOf? {names : List String} {name : String} {tag : Nat}
    (h : names.idxOf? name = some tag) : names.idxOf name = tag ∧ tag < names.length := by
  refine ⟨?_, (List.idxOf?_eq_some_iff.mp h).1⟩
  rw [List.idxOf_eq_getD_idxOf?, h, Option.getD_some]

/-- A UNION row that is written names one of the alternatives. -/
theorem alternativeCells_of_ok {type : LogicalType} {names : List String} {v : Value}
    {cells : List Value} (h : alternativeValuesOf type names v = .ok cells) :
    cells = alternativeTag names v :: alternativeCells names v ∧ (v = .null ∨
      ∃ name x, v = .struct [(name, x)] ∧ names.idxOf name < names.length) := by
  unfold alternativeValuesOf at h
  split at h
  · cases h
    exact ⟨rfl, .inl rfl⟩
  · next name x =>
    split at h
    · next tag ht =>
      cases h
      obtain ⟨same, inside⟩ := idxOf_of_idxOf? ht
      refine ⟨?_, .inr ⟨name, x, rfl, same ▸ inside⟩⟩
      rw [alternativeTag, alternativeCells, same]
    · cases h
  · cases h

end LogicalType

namespace NativeVector

/-- Only values of well-formed types are taken. -/
theorem check_of_ofValues {type : LogicalType} {rows : List Value} {n : NativeVector}
    (h : ofValues type rows = .ok n) : type.check = .ok () := by
  cases type <;> (rw [ofValues] at h; split at h)
  all_goals first | cases h | skip
  all_goals assumption

/-- A vector of slots has the rows that it is made from, and its bytes are counted exactly. -/
theorem ofSlotValues_hasRows {type : LogicalType} (slotted : type.isSlotted) {rows : List Value}
    {n : NativeVector} (h : ofSlotValues type rows = .ok n) : n.HasRows type rows ∧
      ∃ width, type.storage.slotWidth? = some width ∧ rows.length * width < sizeModulus := by
  obtain ⟨slots, hslots, h⟩ := Result.bind_eq_ok.mp h
  obtain ⟨rfl, there⟩ := mapPresent_eq_ok hslots
  obtain ⟨-, -, width, hw, room, -, rfl⟩ := ofSlots_eq_ok h
  rw [hw, Option.getD_some]
  have wide : ∀ slot ∈ (rows.map (stored type.slotOf)).map fun slot =>
      slot.getD (List.replicate width 0), slot.length = width := by
    intro slot hs
    obtain ⟨cell, hc, rfl⟩ := List.mem_map.mp hs
    obtain ⟨v, -, rfl⟩ := List.mem_map.mp hc
    cases hv : stored type.slotOf v with
    | none => exact List.length_replicate
    | some slot =>
      have same := slotOf_length (ok_of_stored hv)
      rw [hw, Option.some_inj] at same
      exact same.symm
  have size := length_flatten_uniform wide
  rw [List.length_map, List.length_map] at size
  refine ⟨.of_present rfl rfl ?_ rfl ?_ ?_, width, rfl, room⟩
  · rw [List.size_toArray, hw, Option.getD_some, size]
  · rintro rfl
    cases slotted
  · have leaf := leaf_of_slotted slotted
    cases type with
    | list _ | array _ _ | struct _ | map _ _ | union _ =>
      simp [LogicalType.kind, Kind.isNested] at leaf
    | _ => rfl

theorem ofPayloadValues_hasRows {kind : Kind} (string : kind.isStringLike) {rows : List Value}
    {n : NativeVector} (h : ofPayloadValues (.scalar kind) rows = .ok n) :
    n.HasRows (.scalar kind) rows := by
  obtain ⟨cells, hc, h⟩ := Result.bind_eq_ok.mp h
  obtain ⟨rfl, there⟩ := mapPresent_eq_ok hc
  obtain ⟨-, -, slots, heap, hs, rfl⟩ := ofPayloads_eq_ok h
  obtain ⟨count, wide, -⟩ := stringSlots_shape hs
  refine .of_present rfl (List.length_map _) ?_ (congrArg Bitmap.ofFlags (isSome_stored there)) ?_
    rfl
  · rw [List.size_toArray, length_flatten_uniform wide, count, List.length_map,
      slotWidth_of_stringLike string, Option.getD_some]
  · rintro ⟨⟩
    cases string

/-- Consecutive entries are spans of the parts that they are made for. -/
theorem spans_consecutive {α : Type} {n child : NativeVector} {part : Value → List α}
    {rows : List Value} (hd : n.data = ((consecutive 0 ((rows.map part).map List.length)).map
      ListEntry.toBytes).flatten.toArray)
    (hc : n.childRows = (rows.map part).flatten.length) (covered : child.rows = n.childRows) :
    n.Spans (rows.map fun v => (part v).length) child := by
  have lengths : (rows.map part).map List.length = rows.map fun v => (part v).length :=
    List.map_map
  rw [lengths] at hd
  rw [List.length_flatten, lengths] at hc
  refine ⟨hc, covered, fun row inside => entry?_consecutive hd inside, ?_⟩
  intro fits row hrow e he
  rw [hc] at fits
  have last := sum_take_add_le _ hrow
  have exact {k : Nat} (hk : k < sizeModulus) : (Word.wrap .u64 (k : Int)).val = k := by
    have same := Word.wrap_u64_toNat hk
    have lower := (Word.wrap .u64 (k : Int)).holds.1
    simp only [IntKind.min] at lower
    omega
  rw [entry?_consecutive hd hrow, Option.some_inj] at he
  subst he
  exact ⟨exact (by omega), exact (by omega)⟩

section Nested

variable {rows : List Value} {n : NativeVector}

/-- The vector of lists has the elements of all rows in its child. -/
theorem ofValues_list_eq_ok {child : LogicalType} (h : ofValues (.list child) rows = .ok n) :
    ∃ vector, ofValues child (rows.map elements).flatten = .ok vector ∧
      n = ⟨.list child, rows.length, ((consecutive 0 ((rows.map elements).map List.length)).map
        ListEntry.toBytes).flatten.toArray, present rows, #[], [vector], vector.rows⟩ := by
  rw [ofValues] at h
  split at h
  · cases h
  obtain ⟨cells, hcells, h⟩ := Result.bind_eq_ok.mp h
  obtain ⟨vector, hvector, h⟩ := Result.bind_eq_ok.mp h
  rw [parts_of_mapPresent elements hcells rfl fun v items => itemsOf_eq] at hvector h
  obtain ⟨-, -, -, rfl⟩ := ofListParts_eq_ok h
  refine ⟨vector, hvector, ?_⟩
  rw [length_consecutive, List.length_map, List.length_map]

theorem encodes_list {child : LogicalType}
    (ih : ∀ rows n, ofValues child rows = .ok n → n.Encodes child rows)
    (h : ofValues (.list child) rows = .ok n) : n.Encodes (.list child) rows := by
  obtain ⟨vector, hvector, rfl⟩ := ofValues_list_eq_ok h
  have tree := ih _ _ hvector
  refine ⟨.of_present rfl rfl ?_ rfl (by simp) ?_, vector, rfl,
    spans_consecutive rfl tree.hasRows.count rfl, tree⟩
  · rw [size_entries, length_consecutive, List.length_map, List.length_map]
    rfl
  · rw [List.map_singleton, tree.hasRows.typed]
    rfl

theorem ofValues_array_eq_ok {child : LogicalType} {size : Nat}
    (h : ofValues (.array child size) rows = .ok n) :
    ∃ vector, ofValues child (rows.map (arrayElements size)).flatten = .ok vector ∧
      (rows.map (arrayElements size)).flatten.length = rows.length * size ∧
      n = ⟨.array child size, rows.length, #[], present rows, #[], [vector], 0⟩ := by
  rw [ofValues] at h
  split at h
  · cases h
  obtain ⟨items, hitems, h⟩ := Result.bind_eq_ok.mp h
  obtain ⟨vector, hvector, h⟩ := Result.bind_eq_ok.mp h
  have sizes : ∀ part ∈ rows.map (arrayElements size), part.length = size := by
    intro part hp
    obtain ⟨v, hv, rfl⟩ := List.mem_map.mp hp
    obtain ⟨part, found⟩ := Result.ok_of_mapM hitems v hv
    obtain ⟨rfl, count⟩ := arrayElements_of_ok found
    exact count
  have parts : items = rows.map (arrayElements size) :=
    Result.eq_map_of_mapM hitems fun v part found => (arrayElements_of_ok found).1
  rw [parts] at hvector
  obtain ⟨-, -, rfl⟩ := ofArrayParts_eq_ok h
  refine ⟨vector, hvector, ?_, rfl⟩
  rw [length_flatten_uniform sizes, List.length_map]

theorem encodes_array {child : LogicalType} {size : Nat}
    (ih : ∀ rows n, ofValues child rows = .ok n → n.Encodes child rows)
    (h : ofValues (.array child size) rows = .ok n) : n.Encodes (.array child size) rows := by
  obtain ⟨vector, hvector, total, rfl⟩ := ofValues_array_eq_ok h
  have tree := ih _ _ hvector
  refine ⟨.of_present rfl rfl rfl rfl (by simp) ?_, vector, rfl, ?_, tree⟩
  · rw [List.map_singleton, tree.hasRows.typed]
    rfl
  · rw [tree.hasRows.count, total]

/-- The entry of a map as a struct. -/
def entryStruct (entry : Value × Value) : Value := .struct [("key", entry.1), ("value", entry.2)]

/-- No entry is missing. -/
theorem present_entries (pairs : List (Value × Value)) : present (pairs.map entryStruct) = none := by
  rw [present_eq_none]
  intro v hv
  obtain ⟨entry, -, rfl⟩ := List.mem_map.mp hv
  rfl

/-- The vector of maps has the entries of all rows in its child, keys and values apart. -/
theorem ofValues_map_eq_ok {key content : LogicalType}
    (h : ofValues (.map key content) rows = .ok n) : ∃ keys contents,
      ofValues key ((rows.map entries).flatten.map Prod.fst) = .ok keys ∧
      ofValues content ((rows.map entries).flatten.map Prod.snd) = .ok contents ∧
      n = ⟨.map key content, rows.length, ((consecutive 0 ((rows.map entries).map List.length)).map
        ListEntry.toBytes).flatten.toArray, present rows, #[], [⟨.entry key content,
          (rows.map entries).flatten.length, #[], none, #[], [keys, contents], 0⟩],
        (rows.map entries).flatten.length⟩ := by
  rw [ofValues] at h
  split at h
  · cases h
  obtain ⟨cells, hcells, h⟩ := Result.bind_eq_ok.mp h
  rw [parts_of_mapPresent entries hcells rfl fun v pairs => entriesOf_eq] at h
  obtain ⟨keys, hkeys, h⟩ := Result.bind_eq_ok.mp h
  obtain ⟨contents, hcontents, h⟩ := Result.bind_eq_ok.mp h
  obtain ⟨pairs, hpairs, h⟩ := Result.bind_eq_ok.mp h
  obtain ⟨-, -, rfl⟩ := ofStructParts_eq_ok hpairs
  obtain ⟨-, -, -, rfl⟩ := ofListParts_eq_ok h
  refine ⟨keys, contents, hkeys, hcontents, ?_⟩
  rw [length_consecutive, List.length_map, List.length_map]

theorem encodes_map {key content : LogicalType}
    (ihk : ∀ rows n, ofValues key rows = .ok n → n.Encodes key rows)
    (ihw : ∀ rows n, ofValues content rows = .ok n → n.Encodes content rows)
    (h : ofValues (.map key content) rows = .ok n) : n.Encodes (.map key content) rows := by
  obtain ⟨keys, contents, hkeys, hcontents, rfl⟩ := ofValues_map_eq_ok h
  have keyTree := ihk _ _ hkeys
  have contentTree := ihw _ _ hcontents
  have there := present_entries (rows.map entries).flatten
  refine ⟨.of_present rfl rfl ?_ rfl (by simp) rfl, _, keys, contents, rfl, rfl,
    spans_consecutive rfl rfl rfl, .of_present rfl (List.length_map _).symm ?_ there.symm
      (by simp [entry]) ?_, keyTree, contentTree⟩
  · rw [size_entries, length_consecutive, List.length_map, List.length_map]
    rfl
  · rfl
  · rw [List.map_cons, List.map_singleton, keyTree.hasRows.typed, contentTree.hasRows.typed]
    rfl

theorem encodeAll_columns {members : List (String × LogicalType)}
    (ih : ∀ m ∈ members, ∀ rows n, ofValues m.2 rows = .ok n → n.Encodes m.2 rows)
    {cells : List (List Value)} {vectors : List NativeVector}
    (h : ofColumns members cells = .ok vectors) : EncodeAll members vectors cells := by
  induction members generalizing cells vectors with
  | nil =>
    cases h
    trivial
  | cons m rest ihRest =>
    obtain ⟨first, others⟩ := List.forall_mem_cons.mp ih
    rw [ofColumns] at h
    obtain ⟨vector, hv, h⟩ := Result.bind_eq_ok.mp h
    obtain ⟨vectors, hvs, h⟩ := Result.bind_eq_ok.mp h
    cases h
    exact ⟨first _ _ hv, ihRest others hvs⟩

theorem ofValues_struct_eq_ok {members : List (String × LogicalType)}
    (h : ofValues (.struct members) rows = .ok n) :
    ∃ vectors, ofColumns members (rows.map (memberCells members.length)) = .ok vectors ∧
      n = ⟨.struct members, rows.length, #[], present rows, #[], vectors, 0⟩ := by
  rw [ofValues] at h
  split at h
  · cases h
  obtain ⟨cells, hcells, h⟩ := Result.bind_eq_ok.mp h
  obtain ⟨vectors, hvectors, h⟩ := Result.bind_eq_ok.mp h
  have parts : cells = rows.map (memberCells members.length) :=
    Result.eq_map_of_mapM hcells fun v part => memberCells_of_ok
  rw [parts] at hvectors
  obtain ⟨-, -, rfl⟩ := ofStructParts_eq_ok h
  exact ⟨vectors, hvectors, rfl⟩

theorem encodes_struct {members : List (String × LogicalType)}
    (ih : ∀ m ∈ members, ∀ rows n, ofValues m.2 rows = .ok n → n.Encodes m.2 rows)
    (h : ofValues (.struct members) rows = .ok n) : n.Encodes (.struct members) rows := by
  obtain ⟨vectors, hvectors, rfl⟩ := ofValues_struct_eq_ok h
  have trees := encodeAll_columns ih hvectors
  exact ⟨.of_present rfl rfl rfl rfl (by simp) trees.types, trees⟩

/-- The tags of rows that name alternatives choose those. -/
theorem chooses_tags {alternatives : List (String × LogicalType)} (few : alternatives.length ≤ 255)
    {names : List String} (hn : names.length = alternatives.length) {tags : NativeVector}
    {vectors : List NativeVector} (named : ∀ v ∈ rows, v = .null ∨
      ∃ name x, v = .struct [(name, x)] ∧ names.idxOf name < names.length)
    (htags : ofSlotValues (.scalar (.int .u8)) (rows.map (alternativeTag names)) = .ok tags)
    (trees : EncodeAll alternatives vectors (rows.map (alternativeCells names))) :
    Chooses tags vectors rows := by
  have count : names.length = vectors.length := by
    have same := congrArg List.length trees.types
    rw [List.length_map, List.length_map] at same
    rw [hn, same]
  have slots : ∀ tag ∈ rows.map (alternativeTag names),
      tag = .null ∨ (scalar (.int .u8)).HasSlot tag := by
    intro tag ht
    obtain ⟨v, -, rfl⟩ := List.mem_map.mp ht
    exact alternativeTag_hasSlot names v
  obtain ⟨tagRows, _, ⟨⟩, fits⟩ := ofSlotValues_hasRows rfl htags
  obtain ⟨tags', htags', holds⟩ := ofSlotValues_holds rfl rfl rfl slots fits
  obtain rfl : tags = tags' := Except.ok.inj (htags.symm.trans htags')
  have absent (row : Nat) (hrow : row < rows.length) (j : Nat) (v : NativeVector)
      (hj : vectors[j]? = some v) (null : (alternativeCells names rows[row])[j]?.getD .null = .null) :
      v.bit? row = some false := by
    refine trees.bit?_null (by rwa [List.length_map]) hj ?_
    rwa [List.getElem_map]
  constructor
  · intro row hrow present
    rcases named _ (List.getElem_mem hrow) with missing | ⟨name, x, hv, inside⟩
    · rw [missing] at present
      contradiction
    · have number : (Word.wrap .u8 (names.idxOf name : Int)).val = names.idxOf name := by
        apply Word.wrap_val_of_holds
        simp only [IntKind.Holds, IntKind.min, IntKind.max]
        omega
      have inside' : row < (rows.map (alternativeTag names)).length := by rwa [List.length_map]
      have bit := tagRows.valid (by simp) row inside'
      have read := holds.reads row inside'
      rw [List.getElem_map, hv, alternativeTag] at bit read
      have tag := tagAt_of_read read
      rw [number, Int.toNat_natCast] at tag
      refine ⟨names.idxOf name, count ▸ inside, bit, tag, ?_⟩
      intro j v hj other
      apply absent row hrow j v hj
      rw [hv, alternativeCells, List.getElem?_set_ne (Ne.symm other), List.getElem?_replicate]
      split <;> rfl
  · intro row hrow missing v hv
    obtain ⟨j, hj⟩ := List.getElem?_of_mem hv
    apply absent row hrow j v hj
    have null : rows[row] = .null := by
      cases hr : rows[row] <;> first | rfl | (rw [hr] at missing; contradiction)
    rw [null, alternativeCells, List.getElem?_replicate]
    · split <;> rfl
    · simp

theorem encodes_union {alternatives : List (String × LogicalType)}
    (ih : ∀ m ∈ alternatives, ∀ rows n, ofValues m.2 rows = .ok n → n.Encodes m.2 rows)
    (h : ofValues (.union alternatives) rows = .ok n) : n.Encodes (.union alternatives) rows := by
  rw [ofValues] at h
  split at h
  · cases h
  next valid =>
  have few := length_of_check_union valid
  obtain ⟨cells, hcells, h⟩ := Result.bind_eq_ok.mp h
  obtain ⟨tags, htags, h⟩ := Result.bind_eq_ok.mp h
  obtain ⟨vectors, hvectors, h⟩ := Result.bind_eq_ok.mp h
  let names := alternatives.map Prod.fst
  have parts : cells = rows.map fun v => alternativeTag names v :: alternativeCells names v :=
    Result.eq_map_of_mapM hcells fun v part found => (alternativeCells_of_ok found).1
  have named : ∀ v ∈ rows, v = .null ∨
      ∃ name x, v = .struct [(name, x)] ∧ names.idxOf name < names.length := by
    intro v hv
    obtain ⟨part, found⟩ := Result.ok_of_mapM hcells v hv
    exact (alternativeCells_of_ok found).2
  rw [parts, List.map_map] at htags hvectors
  have trees := encodeAll_columns ih hvectors
  obtain ⟨tagRows, -⟩ := ofSlotValues_hasRows rfl htags
  obtain ⟨-, -, rfl⟩ := ofStructParts_eq_ok h
  refine ⟨.of_present rfl rfl rfl rfl (by simp) ?_, tags, vectors, rfl, tagRows, trees,
    chooses_tags few (List.length_map _) named htags trees⟩
  rw [List.map_cons, tagRows.typed, trees.types]
  rfl

end Nested

theorem encodes_scalar {kind : Kind} {rows : List Value} {n : NativeVector}
    (h : ofValues (.scalar kind) rows = .ok n) : n.Encodes (.scalar kind) rows := by
  suffices n.HasRows (.scalar kind) rows by
    cases kind <;> exact this
  rw [ofValues] at h
  split at h
  · cases h
  next valid =>
  by_cases null : kind = .null
  · subst null
    cases h
    exact hasRows_nulls rows
  · rw [if_neg null] at h
    by_cases string : kind.isStringLike
    · rw [if_pos string] at h
      exact ofPayloadValues_hasRows string h
    · rw [if_neg string] at h
      have leaf := check_scalar_nested valid
      have slotted : (LogicalType.scalar kind).isSlotted := by
        simp [isSlotted, LogicalType.kind] at leaf ⊢
        simp [leaf, string, null]
      exact (ofSlotValues_hasRows slotted h).1

/-- Nothing is valid in a column of nulls. -/
def flagOf (type : LogicalType) (v : Value) : Bool := decide (type ≠ .scalar .null) && !v.isNull

theorem HasRows.bits {type : LogicalType} {rows : List Value} {n : NativeVector}
    (h : n.HasRows type rows) :
    n.type = type ∧ n.rows = rows.length ∧ ∀ (row : Nat) (h : row < rows.length),
      n.bit? row = some (flagOf type rows[row]) := by
  refine ⟨h.typed, h.count, fun row hrow => ?_⟩
  by_cases null : type = .scalar .null
  · rw [(h.nothing null).2 row hrow, flagOf]
    simp [null]
  · rw [h.valid null row hrow, flagOf]
    simp [null]

/-- A vector that is made from values has their type, a row for each of them and a bit for each row. -/
theorem bits_of_ofValues {type : LogicalType} {rows : List Value} {n : NativeVector}
    (h : ofValues type rows = .ok n) :
    n.type = type ∧ n.rows = rows.length ∧ ∀ (row : Nat) (h : row < rows.length),
      n.bit? row = some (flagOf type rows[row]) := by
  have nested (some : type ≠ .scalar .null) (typed : n.type = type) (count : n.rows = rows.length)
      (hb : n.bitmap = present rows) : n.type = type ∧ n.rows = rows.length ∧
        ∀ (row : Nat) (h : row < rows.length), n.bit? row = .some (flagOf type rows[row]) := by
    refine ⟨typed, count, fun row hrow => ?_⟩
    rw [bit?_present hb hrow, flagOf]
    simp [some]
  cases type with
  | scalar kind => exact (encodes_scalar h).hasRows.bits
  | decimal width scale =>
    rw [ofValues] at h
    split at h
    · cases h
    · exact (ofSlotValues_hasRows rfl h).1.bits
  | enum dictionary =>
    rw [ofValues] at h
    split at h
    · cases h
    · exact (ofSlotValues_hasRows rfl h).1.bits
  | list child =>
    obtain ⟨vector, -, rfl⟩ := ofValues_list_eq_ok h
    exact nested (by simp) rfl rfl rfl
  | array child size =>
    obtain ⟨vector, -, -, rfl⟩ := ofValues_array_eq_ok h
    exact nested (by simp) rfl rfl rfl
  | struct members =>
    obtain ⟨vectors, -, rfl⟩ := ofValues_struct_eq_ok h
    exact nested (by simp) rfl rfl rfl
  | map key content =>
    obtain ⟨keys, contents, -, -, rfl⟩ := ofValues_map_eq_ok h
    exact nested (by simp) rfl rfl rfl
  | union alternatives =>
    rw [ofValues] at h
    split at h
    · cases h
    obtain ⟨cells, -, h⟩ := Result.bind_eq_ok.mp h
    obtain ⟨tags, -, h⟩ := Result.bind_eq_ok.mp h
    obtain ⟨vectors, -, h⟩ := Result.bind_eq_ok.mp h
    obtain ⟨-, -, rfl⟩ := ofStructParts_eq_ok h
    exact nested (by simp) rfl rfl rfl

/-- Values are written as well-formed trees. Whatever the type and the rows, if they are written then
every node of the vector has one row for each of its values, valid exactly where the value is there
and without a bitmap exactly where all are (a vector of nulls has a bitmap and no valid row), and the
bytes of as many slots; entries of a LIST or MAP follow one another from 0 to the end of a child that
has no other rows; the child of an ARRAY has its size of elements for each row; members have the rows
of their parent; a UNION row that is there has a valid tag that names an alternative, and no other
alternative has a value in it; and every child has the type that a column derives for it. -/
theorem ofValues_encodes {type : LogicalType} {rows : List Value} {n : NativeVector}
    (h : ofValues type rows = .ok n) : n.Encodes type rows := by
  induction type using induction_on_members generalizing rows n with
  | scalar kind => exact encodes_scalar h
  | decimal width scale =>
    rw [ofValues] at h
    split at h
    · cases h
    · exact (ofSlotValues_hasRows rfl h).1
  | enum dictionary =>
    rw [ofValues] at h
    split at h
    · cases h
    · exact (ofSlotValues_hasRows rfl h).1
  | list child ih => exact encodes_list (fun _ _ => ih) h
  | array child size ih => exact encodes_array (fun _ _ => ih) h
  | struct members ih => exact encodes_struct (fun m hm _ _ => ih m hm) h
  | map key content ihk ihw => exact encodes_map (fun _ _ => ihk) (fun _ _ => ihw) h
  | union alternatives ih => exact encodes_union (fun m hm _ _ => ih m hm) h

/-- A list of an ARRAY value and a null, a missing list and an empty one, in a UNION with text. -/
theorem ofValues_encodes_union_of_lists :
    let type : LogicalType :=
      .union [("text", .scalar .varchar), ("items", .list (.array (.scalar .boolean) 2))]
    let rows : List Value := [.struct [("items", .list [.list [.boolean true, .null], .null])], .null,
      .struct [("items", .list [])], .struct [("text", .null)]]
    ∃ n, ofValues type rows = .ok n ∧ n.Encodes type rows := by
  dsimp only
  exact ⟨_, rfl, ofValues_encodes rfl⟩

end NativeVector
end TypedColumns
