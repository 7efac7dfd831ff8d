import TypedColumns.Proofs.Binding
import TypedColumns.Proofs.BoxedReading
import TypedColumns.Proofs.PlanShape

/-!
A read depends on nothing but the content that its row reaches: the row's validity, the slot of a
valid row, and the rows of children that a valid row selects. Whatever else the memory holds makes
no difference, neither to a value nor to an error.
-/
namespace TypedColumns

namespace NativeVector

/-- The row is valid in both vectors or in none, and `same` holds of what it has in them if it is. -/
def SameRow (v w : NativeVector) (row : Nat) (same : Prop) : Prop :=
  v.bit? row = w.bit? row ∧ (v.bit? row = some true → same)

/-- `same` holds of the children at a position. -/
def SameChild (v w : NativeVector) (position : Nat) (same : NativeVector → NativeVector → Prop) :
    Prop :=
  ∀ c d, v.children[position]? = some c → w.children[position]? = some d → same c d

/-- The row has the same entry, into children of equally many rows, and `same` holds of each child
row that the entry spans. -/
def SameEntry (v w : NativeVector) (row : Nat) (same : Nat → Prop) : Prop :=
  v.childRows = w.childRows ∧ v.entry? row = w.entry? row ∧
    ∀ rows, v.entryRows row = .ok rows → ∀ j ∈ rows, same j

mutual

/-- What a valid row reaches is the same in both vectors. -/
def SameContent : LogicalType → (v w : NativeVector) → (row : Nat) → Prop
  | .list child, v, w, row => v.SameEntry w row fun j =>
      v.SameChild w 0 fun c d => c.SameRow d j (SameContent child c d j)
  | .array child size, v, w, row => ∀ j ∈ List.range' (row * size) size,
      v.SameChild w 0 fun c d => c.SameRow d j (SameContent child c d j)
  | .struct members, v, w, row => ∀ i same, (sameContents members)[i]? = some same →
      v.SameChild w i fun c d => c.SameRow d row (same c d row)
  | .map key content, v, w, row => v.SameEntry w row fun j =>
      v.SameChild w 0 fun entries entries' =>
        (entries.SameChild entries' 0 fun c d => c.SameRow d j (SameContent key c d j)) ∧
        entries.SameChild entries' 1 fun c d => c.SameRow d j (SameContent content c d j)
  | .union alternatives, v, w, row => v.SameChild w 0 fun tags tags' =>
      tags.SameRow tags' row (tags.slot? 1 row = tags'.slot? 1 row) ∧
        ∀ tag, tags.tagAt row = .ok tag → ∀ same, (sameContents alternatives)[tag]? = some same →
          v.SameChild w (tag + 1) fun c d => c.SameRow d row (same c d row)
  | type, v, w, row => v.content? type.storage row = w.content? type.storage row

def sameContents : List (String × LogicalType) → List (NativeVector → NativeVector → Nat → Prop)
  | [] => []
  | (_, type) :: rest => SameContent type :: sameContents rest

end

/-- The row is missing in both vectors, or what it reaches is the same. -/
def SameAt (type : LogicalType) (v w : NativeVector) (row : Nat) : Prop :=
  v.SameRow w row (SameContent type v w row)

theorem sameContents_eq (members : List (String × LogicalType)) :
    sameContents members = members.map fun m => SameContent m.2 := by
  induction members with
  | nil => rfl
  | cons m rest ih => rw [sameContents, ih]; rfl

theorem sameContent_leaf {type : LogicalType} (leaf : type.kind.isNested = false)
    {v w : NativeVector} {row : Nat} (h : SameContent type v w row) :
    v.content? type.storage row = w.content? type.storage row := by
  cases type with
  | list _ | array _ _ | struct _ | map _ _ | union _ =>
    simp [LogicalType.kind, Kind.isNested] at leaf
  | _ => exact h

end NativeVector

open NativeVector

/-- Bound to two views of one column and row count, the readers agree on every row that reaches the
same content in both. -/
def Reading.Local {α : Type} (type : LogicalType) (reading : Reading α) : Prop :=
  ∀ view other : ColumnView, view.column.type = type → other.column = view.column →
    other.rows = view.rows → ∀ read read', reading.on view = .ok read →
      reading.on other = .ok read' → ∀ row < view.rows,
        SameContent type view.native other.native row → read view row = read' other row

namespace Converter

variable {c : Target} {plan p q : Converter c} {type : LogicalType} {view other : ColumnView}

theorem checkSource_congr (plan : Converter c) (hc : other.column = view.column) :
    plan.checkSource view = plan.checkSource other := by
  unfold checkSource ColumnView.kind
  rw [hc]

section Same

variable (reads : plan.reading.Local type) (ht : view.column.type = type)
  (hc : other.column = view.column) (hr : other.rows = view.rows)
  (hp : plan.prepare view = .ok p) (hq : plan.prepare other = .ok q) {row : Nat}
  (same : row < view.rows → SameAt type view.native other.native row)
include reads ht hc hr hp hq same

theorem same_tryConvert : p.tryConvert view row = q.tryConvert other row := by
  obtain ⟨read, bound, rfl⟩ := prepare_eq_ok hp
  obtain ⟨read', bound', rfl⟩ := prepare_eq_ok hq
  have valid : view.isValid row = other.isValid row := by
    unfold ColumnView.isValid ColumnView.checkIndex
    rw [hr]
    by_cases inside : row < view.rows
    · rw [(same inside).1]
    · simp only [inside, if_false, Result.error_bind]
  rw [tryConvert_withReader, tryConvert_withReader, checkSource_congr plan hc, valid]
  cases plan.checkSource other with
  | error e => rfl
  | ok _ =>
    cases hv : other.isValid row with
    | error e => rfl
    | ok present =>
      cases present with
      | false => rfl
      | true =>
        obtain ⟨inside, hb⟩ := ColumnView.isValid_eq_ok hv
        rw [hr] at inside
        obtain ⟨bit, content⟩ := same inside
        have agree := reads view other ht hc hr read read' bound bound' row inside
          (content (bit.trans hb))
        simp only [Result.ok_bind, if_true, agree]

theorem same_convert (require : Bool) : p.convert view row require = q.convert other row require := by
  have tried := same_tryConvert reads ht hc hr hp hq same
  obtain ⟨read, -, rfl⟩ := prepare_eq_ok hp
  obtain ⟨read', -, rfl⟩ := prepare_eq_ok hq
  unfold convert
  rw [tried]
  rfl

end Same
end Converter

namespace Binder

/-- The converters bound to one member read the same where the member's row does. -/
theorem same_member {members : List (String × LogicalType)} {plans : List (Converter Target.value)}
    {view other : ColumnView} {index : Nat}
    {bound bound' : List (Converter Target.value × ColumnView)}
    (hc : other.column = view.column) (hr : other.rows = view.rows)
    (ht : view.column.type.childTypes.drop index = members.map Prod.snd)
    (sources : List.Forall₂ (fun m plan => plan.Source m.2) members plans)
    (reads : ∀ m plan, (m, plan) ∈ members.zip plans → plan.reading.Local m.2)
    (h : Binder.members view index plans = .ok bound)
    (h' : Binder.members other index plans = .ok bound') {row i : Nat}
    (same : ∀ same, (sameContents members)[i]? = some same →
      view.native.SameChild other.native (index + i) fun c d => c.SameRow d row (same c d row)) :
    bound[i]?.map (fun b => b.1.convert b.2 row false) =
      bound'[i]?.map fun b => b.1.convert b.2 row false := by
  obtain ⟨length, at'⟩ := members_eq_ok h
  obtain ⟨length', at''⟩ := members_eq_ok h'
  by_cases inside : i < plans.length
  · have hb : bound[i]? = some bound[i] := List.getElem?_eq_getElem (length ▸ inside)
    have hb' : bound'[i]? = some bound'[i] := List.getElem?_eq_getElem (length' ▸ inside)
    obtain ⟨plan, hp, hm, prepared⟩ := at' i _ hb
    obtain ⟨plan', hp', hm', prepared'⟩ := at'' i _ hb'
    obtain rfl : plan = plan' := Option.some.inj (hp.symm.trans hp')
    obtain ⟨m, hi, -, hz⟩ := part_of_plan sources hp
    have opens := ColumnView.opens_of_step (s := .member (index + i)) hm
    have opens' := ColumnView.opens_of_step (s := .member (index + i)) hm'
    have declared : view.column.type.childTypes[index + i]? = some m.2 := by
      rw [← List.getElem?_drop, ht, List.getElem?_map, hi]
      rfl
    have type : bound[i].2.column.type = m.2 := opens.column_type declared
    have rows : bound'[i].2.rows = bound[i].2.rows := by
      rw [opens'.rows, opens.rows]
      exact hr
    have content : SameAt m.2 bound[i].2.native bound'[i].2.native row :=
      same _ (by rw [sameContents_eq, List.getElem?_map, hi]; rfl) _ _ opens.native opens'.native
    rw [hb, hb', Option.map_some, Option.map_some,
      Converter.same_convert (reads m plan hz) type
        (ColumnView.column_of_step (s := .member (index + i)) hc hm hm') rows prepared prepared'
        (fun _ => content) false]
  · have hb : bound[i]? = none := List.getElem?_eq_none (by omega)
    have hb' : bound'[i]? = none := List.getElem?_eq_none (by omega)
    rw [hb, hb']

theorem same_entry {α : Type} {view other : ColumnView} {row : Nat} {same : Nat → Prop}
    (h : view.native.SameEntry other.native row same) {f g : Nat → Result α}
    (items : ∀ j, same j → f j = g j) :
    mapChildren view row none view.native.childRows f =
      mapChildren other row none other.native.childRows g := by
  obtain ⟨childRows, entry, reached⟩ := h
  have rows : other.native.entryRows row = view.native.entryRows row := by
    unfold NativeVector.entryRows
    rw [childRows, entry]
  rw [mapChildren_entry, mapChildren_entry, rows]
  cases he : view.native.entryRows row with
  | error e => rfl
  | ok js => exact Result.mapM_congr fun j hj => items j (reached js he j hj)

/-- The elements of a row, by plans prepared for the elements of two views. -/
theorem same_elements {c : Target} {element p q : Converter c} {type : LogicalType}
    (reads : element.reading.Local type) {view other children children' : ColumnView} {s : ViewStep}
    (hc : other.column = view.column) (ht : view.column.type.childTypes[s.position]? = some type)
    (rows : view.stepRows s = other.stepRows s) (hs : view.step s = .ok children)
    (hs' : other.step s = .ok children') (prepared : element.prepare children = .ok p)
    (prepared' : element.prepare children' = .ok q) {j : Nat}
    (same : view.native.SameChild other.native s.position fun c d => SameAt type c d j) :
    p.convert children j true = q.convert children' j true := by
  have opens := ColumnView.opens_of_step hs
  have opens' := ColumnView.opens_of_step hs'
  have child : children.column.type = type := opens.column_type ht
  exact Converter.same_convert reads child (ColumnView.column_of_step hc hs hs')
    (by rw [opens'.rows, opens.rows, rows]) prepared prepared'
    (fun _ => same _ _ opens.native opens'.native) true

end Binder

theorem Reader.Decodes.reads_local {α : Type} {type : LogicalType} {read : Reader α}
    (leaf : type.kind.isNested = false) (decodes : read.Decodes type) :
    (Reading.closed read).Local type := by
  obtain ⟨decode, hd⟩ := decodes
  rintro view other rfl hc - _ _ ⟨⟩ ⟨⟩ row - content
  obtain ⟨reads, -⟩ := hd view rfl rfl
  obtain ⟨reads', -⟩ := hd other (by rw [hc]; rfl) (by rw [hc]; rfl)
  rw [reads row, reads' row, hc, sameContent_leaf leaf content]

namespace Binder

variable {c k v : Target} {α : Type}

/-- A row of a LIST reaches the elements in the span of its entry, a row of an ARRAY those at its
place. -/
theorem list_local {element : Converter c} {type child : LogicalType}
    (part : type.element? = some child) (reads : element.reading.Local child)
    (finish : List c.Host → α) :
    (Reading.unbound (list element type.size? finish)).Local type := by
  intro view other ht hc hr read read' bound bound' row inside same
  obtain ⟨children, conv, he, prepared, rfl⟩ := list_eq_ok bound
  obtain ⟨children', conv', he', prepared', rfl⟩ := list_eq_ok bound'
  cases type with
  | list child =>
    cases part
    have elements : mapChildren view row none children.rows
          (fun j => conv.convert children j true) =
        mapChildren other row none children'.rows fun j => conv'.convert children' j true := by
      rw [(ColumnView.opens_of_step (s := .list) he).rows,
        (ColumnView.opens_of_step (s := .list) he').rows]
      apply same_entry same
      intro j sameChild
      exact same_elements (s := .list) reads hc (by rw [ht]; rfl) same.1 he he' prepared prepared'
        sameChild
    exact congrArg (· >>= fun items => .ok (finish items)) elements
  | array child size =>
    cases part
    have sameRows : view.stepRows .array = other.stepRows .array := by
      simp only [ColumnView.stepRows, hc, hr]
    have elements : mapChildren view row (some size) children.rows
          (fun j => conv.convert children j true) =
        mapChildren other row (some size) children'.rows
          fun j => conv'.convert children' j true := by
      obtain ⟨count, small⟩ := ColumnView.arrayChildren_rows ht he
      obtain ⟨count', -⟩ := ColumnView.arrayChildren_rows (by rw [hc]; exact ht) he'
      rw [count, count', hr, mapChildren_array view inside small,
        mapChildren_array other inside small]
      apply Result.mapM_congr
      intro j hj
      exact same_elements (s := .array) reads hc (by rw [ht]; rfl) sameRows he he' prepared
        prepared' (same j hj)
    exact congrArg (· >>= fun items => .ok (finish items)) elements
  | _ => cases part

theorem struct_local {members : List (String × LogicalType)} {plans : List (Converter Target.value)}
    (names : List String) (sources : List.Forall₂ (fun m plan => plan.Source m.2) members plans)
    (reads : ∀ m plan, (m, plan) ∈ members.zip plans → plan.reading.Local m.2) :
    (Reading.unbound (struct names plans)).Local (.struct members) := by
  intro view other ht hc hr read read' bound bound' row inside content
  obtain ⟨members, hm, rfl⟩ := struct_eq_ok bound
  obtain ⟨members', hm', rfl⟩ := struct_eq_ok bound'
  have values : members.map (fun b => b.1.convert b.2 row false) =
      members'.map fun b => b.1.convert b.2 row false := by
    apply List.ext_getElem?
    intro i
    rw [List.getElem?_map, List.getElem?_map]
    apply same_member hc hr (by rw [ht]; rfl) sources reads hm hm'
    rw [Nat.zero_add]
    exact content i
  rw [readMembers_eq, readMembers_eq, values]

theorem map_local {keys : Converter k} {contents : Converter v} {key content : LogicalType}
    (keyReads : keys.reading.Local key) (contentReads : contents.reading.Local content)
    (finish : List (k.Host × v.Host) → α) :
    (Reading.unbound (map keys contents finish)).Local (.map key content) := by
  intro view other ht hc hr read read' bound bound' row inside same
  obtain ⟨entries, keyView, contentView, keys, contents, he, hk, hw, keysPrepared,
    contentsPrepared, rfl⟩ := map_eq_ok bound
  obtain ⟨entries', keyView', contentView', keys', contents', he', hk', hw', keysPrepared',
    contentsPrepared', rfl⟩ := map_eq_ok bound'
  have opens := ColumnView.opens_of_step (s := .list) he
  have opens' := ColumnView.opens_of_step (s := .list) he'
  have entryColumn := ColumnView.column_of_step (s := .list) hc he he'
  have entryType := ColumnView.entries_type ht he
  have rows : keyView.rows = view.native.childRows := by
    rw [(ColumnView.opens_of_step (s := .member 0) hk).rows]
    exact opens.rows
  have rows' : keyView'.rows = other.native.childRows := by
    rw [(ColumnView.opens_of_step (s := .member 0) hk').rows]
    exact opens'.rows
  have entryRows (i : Nat) : entries.stepRows (.member i) = entries'.stepRows (.member i) := by
    simp only [ColumnView.stepRows]
    rw [opens.rows, opens'.rows]
    exact same.1
  have pairs : mapChildren view row none keyView.rows (fun j => do
        return (← keys.convert keyView j true, ← contents.convert contentView j true)) =
      mapChildren other row none keyView'.rows fun j => do
        return (← keys'.convert keyView' j true, ← contents'.convert contentView' j true) := by
    rw [rows, rows']
    apply same_entry same
    intro j sameEntry
    obtain ⟨sameKey, sameValue⟩ := sameEntry _ _ opens.native opens'.native
    rw [same_elements (s := .member 0) keyReads entryColumn (by rw [entryType]; rfl)
        (entryRows 0) hk hk' keysPrepared keysPrepared' sameKey,
      same_elements (s := .member 1) contentReads entryColumn (by rw [entryType]; rfl)
        (entryRows 1) hw hw' contentsPrepared contentsPrepared' sameValue]
  exact congrArg (· >>= fun pairs => .ok (finish pairs)) pairs

/-- The tag of a row is read alike from two views of the tags, as what the slot holds. -/
theorem same_tag {tags tags' : ColumnView} {row : Nat}
    (type : tags.column.type = .scalar (.int .u8)) (hc : tags'.column = tags.column)
    (hr : tags'.rows = tags.rows) (inside : row < tags.rows)
    (same : tags.native.SameRow tags'.native row
      (tags.native.slot? 1 row = tags'.native.slot? 1 row)) :
    LogicalType.tagPlan.convert tags row true = LogicalType.tagPlan.convert tags' row true ∧
      tags.native.tagAt row =
        (LogicalType.tagPlan.convert tags' row true).map fun n => n.val.toNat := by
  have reads : LogicalType.tagPlan.reading.Local (.scalar (.int .u8)) :=
    LogicalType.tag_decodes.reads_local rfl
  have prepared (v : ColumnView) : LogicalType.tagPlan.prepare v = .ok LogicalType.tagPlan := rfl
  have alike : LogicalType.tagPlan.convert tags row true =
      LogicalType.tagPlan.convert tags' row true :=
    Converter.same_convert reads type hc hr (prepared tags) (prepared tags') (fun _ => same) true
  exact ⟨alike, alike ▸ (Converter.Computes.convert_tag tags type inside).symm⟩

/-- A row of a UNION reaches its tag and the alternative that the tag selects. -/
theorem union_local {alternatives : List (String × LogicalType)}
    {plans : List (Converter Target.value)}
    (sources : List.Forall₂ (fun m plan => plan.Source m.2) alternatives plans)
    (reads : ∀ m plan, (m, plan) ∈ alternatives.zip plans → plan.reading.Local m.2) :
    (Reading.unbound (union LogicalType.tagPlan plans)).Local (.union alternatives) := by
  intro view other ht hc hr read read' bound bound' row inside same
  obtain ⟨tags, members, hg, hm, rfl⟩ := union_eq_ok bound
  obtain ⟨tags', members', hg', hm', rfl⟩ := union_eq_ok bound'
  have opens := ColumnView.opens_of_step (s := .member 0) hg
  have opens' := ColumnView.opens_of_step (s := .member 0) hg'
  have type : tags.column.type = .scalar (.int .u8) := opens.column_type (by rw [ht]; rfl)
  have tagRows : tags.rows = view.rows := opens.rows
  have tagRows' : tags'.rows = other.rows := opens'.rows
  obtain ⟨sameTag, selected⟩ := same _ _ opens.native opens'.native
  obtain ⟨tag, tagAt⟩ := same_tag type (ColumnView.column_of_step (s := .member 0) hc hg hg')
    (by rw [tagRows, tagRows', hr]) (tagRows ▸ inside) sameTag
  simp only [readAlternative]
  rw [tag]
  cases hn : LogicalType.tagPlan.convert tags' row true with
  | error e => rfl
  | ok n =>
    rw [hn] at tagAt
    have member : members[n.val.toNat]?.map (fun b => b.1.convert b.2 row false) =
        members'[n.val.toNat]?.map fun b => b.1.convert b.2 row false := by
      apply same_member hc hr (by rw [ht]; rfl) sources reads hm hm'
      rw [Nat.add_comm]
      exact selected _ tagAt
    have length : members.length = members'.length :=
      (members_eq_ok hm).1.trans (members_eq_ok hm').1.symm
    simp only [Result.ok_bind, length]
    cases hb : members[n.val.toNat]? with
    | none =>
      cases hb' : members'[n.val.toNat]? with
      | none => rfl
      | some b' => rw [hb, hb'] at member; cases member
    | some b =>
      cases hb' : members'[n.val.toNat]? with
      | none => rw [hb, hb'] at member; cases member
      | some b' =>
        rw [hb, hb'] at member
        exact Option.some.inj member

end Binder

theorem Reading.Shape.reads_local {type : LogicalType} {α : Type} {reading : Reading α}
    (shape : reading.Shape type) : reading.Local type := by
  induction shape with
  | slot leaf decodes => exact decodes.reads_local leaf
  | elements part source shape ih => exact Binder.list_local part ih _
  | struct sources shapes ih => exact Binder.struct_local _ sources ih
  | map keySource keyShape contentSource contentShape ihKeys ihContents =>
    exact Binder.map_local ihKeys ihContents _
  | union sources shapes ih => exact Binder.union_local sources ih
  | mapped f shape ih =>
    intro view other ht hc hr read read' bound bound' row inside content
    rw [Reading.on_map] at bound bound'
    obtain ⟨inner, made, rfl⟩ := Result.map_eq_ok.mp bound
    obtain ⟨inner', made', rfl⟩ := Result.map_eq_ok.mp bound'
    unfold Reader.map
    rw [ih view other ht hc hr inner inner' made made' row inside content]

/-- Two vectors of one type and row count that both accept the plan, whose rows are valid in the same
places and reach the same content from the valid ones, are read alike by every converter that their
column can be resolved to: the same results and the same errors at every index. Slots and entries of
missing rows, rows of children that no valid row selects, and bitmap bits that no row has may all
differ. -/
theorem Converter.reads_reachable_content {c : Column} {t : Target} {plan p q : Converter t}
    {view other : ColumnView} (resolved : c.Resolves plan) (hv : view.column = c)
    (ho : other.column = c) (rows : other.rows = view.rows) (hp : plan.prepare view = .ok p)
    (hq : plan.prepare other = .ok q)
    (same : ∀ row < view.rows, SameAt c.type view.native other.native row) (row : Nat) :
    p.tryConvert view row = q.tryConvert other row ∧
      ∀ require, p.convert view row require = q.convert other row require := by
  have reads : plan.reading.Local c.type := resolved.shaped.shape.reads_local
  have type : view.column.type = c.type := congrArg Column.type hv
  have column : other.column = view.column := ho.trans hv.symm
  constructor
  · exact same_tryConvert reads type column rows hp hq (same row)
  · exact same_convert reads type column rows hp hq (same row)

/-- Two LIST vectors with one valid row. They differ in the entry of the missing row, in the bits past
the rows, in the child row that no entry spans and in whether the child has a bitmap. -/
theorem Converter.reads_reachable_content_missing_row :
    let native (entry : ListEntry) (bits : BitVec 64) (spare : UInt8) (childBits : Option Bitmap) :
        NativeVector :=
      ⟨.list (.scalar .boolean), 2, (ListEntry.toBytes ⟨0, .wrap .u64 1⟩ ++ entry.toBytes).toArray,
        some #[bits], #[], [⟨.scalar .boolean, 2, #[1, spare], childBits, #[], [], 0⟩], 2⟩
    let column : Column := ⟨.list (.scalar .boolean), rfl⟩
    let view : ColumnView := ⟨column, 2, native ⟨.wrap .u64 7, .wrap .u64 9⟩ 1 0 none, []⟩
    let other : ColumnView := ⟨column, 2, native ⟨0, 0⟩ 13 5 (some #[BitVec.allOnes 64]), []⟩
    ∃ plan p q : Converter (Target.list .bool), column.Resolves plan ∧ plan.prepare view = .ok p ∧
      plan.prepare other = .ok q ∧
      (∀ row < 2, SameAt column.type view.native other.native row) ∧
      ∀ row, p.tryConvert view row = q.tryConvert other row := by
  intro native column view other
  have same : ∀ row < 2, SameAt column.type view.native other.native row := by
    intro row hrow
    match row with
    | 0 =>
      refine ⟨by decide, fun _ => ⟨rfl, by decide, ?_⟩⟩
      rintro rows hrows j hj c d ⟨⟩ ⟨⟩
      have entry : view.native.entry? 0 = some ⟨0, .wrap .u64 1⟩ := by decide
      have first : view.native.entryRows 0 = .ok [0] := by
        unfold NativeVector.entryRows
        rw [entry]
        rfl
      obtain rfl := Except.ok.inj (first.symm.trans hrows)
      obtain rfl := List.mem_singleton.mp hj
      refine ⟨by decide, fun _ => ?_⟩
      show NativeVector.content? _ .boolean 0 = NativeVector.content? _ .boolean 0
      decide
    | 1 =>
      refine ⟨by decide, fun valid => ?_⟩
      exact absurd valid (by decide)
  obtain ⟨plan, resolved, p, hp, q, hq⟩ : ∃ plan, column.resolve (.list .bool) = .ok plan ∧
      ∃ p, plan.prepare view = .ok p ∧ ∃ q, plan.prepare other = .ok q :=
    ⟨_, rfl, _, rfl, _, rfl⟩
  have alike (row : Nat) : p.tryConvert view row = q.tryConvert other row :=
    (reads_reachable_content (.typed resolved) (show view.column = column from rfl)
      (show other.column = column from rfl) rfl hp hq same row).1
  exact ⟨plan, p, q, .typed resolved, hp, hq, same, alike⟩

end TypedColumns
