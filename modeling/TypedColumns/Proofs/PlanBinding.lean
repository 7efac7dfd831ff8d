import TypedColumns.Proofs.BoxedReading
import TypedColumns.Proofs.MemoryContract

/-!
When plans can be bound. Whatever a plan reads its column as, it binds to a view exactly if each
child below has the rows that the rows above it need.
-/
namespace TypedColumns

open NativeVector

theorem NativeVector.Sound.hasTypes {members : List (String × LogicalType)}
    {vectors : List NativeVector} (sound : ∀ v ∈ vectors, v.Sound)
    (types : vectors.map NativeVector.type = members.map Prod.snd)
    (each : ∀ m ∈ members, ∀ {v : NativeVector}, v.Sound → v.type = m.2 → v.HasType m.2) :
    HaveTypes members vectors := by
  induction members generalizing vectors with
  | nil =>
    obtain rfl := List.map_eq_nil_iff.mp types
    trivial
  | cons m members ih =>
    obtain ⟨v, vectors, rfl, first, others⟩ := List.map_eq_cons_iff.mp types
    exact ⟨each m List.mem_cons_self (sound v List.mem_cons_self) first,
      ih (fun w hw => sound w (List.mem_cons_of_mem _ hw)) others
        fun n hn => each n (List.mem_cons_of_mem _ hn)⟩

theorem NativeVector.Sound.parts {v : NativeVector} (h : v.Sound) {type : LogicalType}
    (ht : v.type = type) :
    v.children.map NativeVector.type = type.childTypes ∧ ∀ c ∈ v.children, c.Sound := by
  obtain ⟨-, -, -, -, types, sound⟩ := h
  exact ⟨ht ▸ types, sound⟩

/-- A vector that keeps its contract has the children that its type declares, at every level. -/
theorem NativeVector.Sound.hasType {v : NativeVector} (h : v.Sound) {type : LogicalType}
    (ht : v.type = type) : v.HasType type := by
  induction type using LogicalType.induction_on_members generalizing v with
  | scalar kind | decimal width scale | enum dictionary => exact ht
  | list child ih | array child size ih =>
    obtain ⟨types, sound⟩ := h.parts ht
    obtain ⟨c, hv, hc⟩ := List.map_eq_singleton_iff.mp types
    exact ⟨ht, c, hv, ih (sound c (by simp [hv])) hc⟩
  | struct members ih =>
    obtain ⟨types, sound⟩ := h.parts ht
    exact ⟨ht, Sound.hasTypes sound types fun m hm _ => ih m hm⟩
  | map key content ihk ihv =>
    obtain ⟨types, sound⟩ := h.parts ht
    obtain ⟨entries, hv, he⟩ := List.map_eq_singleton_iff.mp types
    -- The entries are a STRUCT of the keys and the values.
    obtain ⟨types, sound⟩ := (sound entries (by simp [hv])).parts he
    obtain ⟨k, rest, hchildren, hk, others⟩ := List.map_eq_cons_iff.mp types
    obtain ⟨w, rfl, hw⟩ := List.map_eq_singleton_iff.mp others
    exact ⟨ht, entries, k, w, hv, he, hchildren, ihk (sound k (by simp [hchildren])) hk,
      ihv (sound w (by simp [hchildren])) hw⟩
  | union alternatives ih =>
    obtain ⟨types, sound⟩ := h.parts ht
    obtain ⟨tags, vectors, hv, htags, others⟩ := List.map_eq_cons_iff.mp types
    rw [hv] at sound
    exact ⟨ht, tags, vectors, hv, htags,
      Sound.hasTypes (fun w hw => sound w (List.mem_cons_of_mem _ hw)) others fun m hm _ => ih m hm⟩

/-- The reading binds to those views of `type` whose children have the rows that are needed. -/
def Reading.BindsCovered {α : Type} (type : LogicalType) (reading : Reading α) : Prop :=
  ∀ view : ColumnView, view.column.type = type → view.native.HasType type →
    ((reading.on view).isOk ↔ view.native.Covers type view.rows)

namespace Converter

variable {c : Target} {plan : Converter c} {type : LogicalType}

theorem isOk_prepare (source : plan.Source type) (h : plan.reading.BindsCovered type)
    (view : ColumnView) (hc : view.column.type = type) (ht : view.native.HasType type) :
    (plan.prepare view).isOk ↔ view.native.Covers type view.rows := by
  rw [prepare_eq (checkSource_of_eq source.kind source.storage hc), Result.isOk_map]
  exact h view hc ht

/-- A plan on the first `rows` rows of a child. -/
theorem isOk_prepare_child (source : plan.Source type) (h : plan.reading.BindsCovered type)
    {v : NativeVector} (ht : v.HasType type) {column : Column} (hc : column.type = type)
    (rows : Nat) (path : List ViewStep) :
    (ColumnView.firstRows v column rows path >>= plan.prepare).isOk ↔
      rows ≤ v.rows ∧ v.Covers type rows := by
  by_cases hrows : rows ≤ v.rows
  · rw [ColumnView.firstRows_of_le hrows, Result.ok_bind, and_iff_right hrows]
    exact isOk_prepare source h ⟨column, rows, v, path⟩ hc ht
  · rw [ColumnView.firstRows_of_lt (Nat.lt_of_not_le hrows)]
    exact iff_of_false Bool.false_ne_true fun both => hrows both.1

end Converter

namespace Binder

variable {c k w : Target} {α : Type} {view : ColumnView}

theorem isOk_list (element : Converter c) (size? : Option Nat) (finish : List c.Host → α) :
    (list element size? finish view).isOk = (elements view size? >>= element.prepare).isOk := by
  unfold list
  cases elements view size? with
  | error e => rfl
  | ok children => exact Result.isOk_bind_ok _ _

theorem list_bindsCovered {type child : LogicalType} (part : type.element? = some child)
    {element : Converter c} (source : element.Source child)
    (h : element.reading.BindsCovered child) (finish : List c.Host → α) :
    (Reading.unbound (list element type.size? finish)).BindsCovered type := by
  intro view hc ht
  rw [Reading.on, isOk_list]
  cases type with
  | list child =>
    cases part
    obtain ⟨htype, v, hv, hchild⟩ := ht
    obtain ⟨column, hcolumn, rows⟩ := ColumnView.listChildren_list hc htype hv
    change (view.listChildren >>= element.prepare).isOk ↔ _
    rw [rows, Converter.isOk_prepare_child source h hchild hcolumn]
    simp [Covers, hv]
  | array child size =>
    cases part
    obtain ⟨htype, v, hv, hchild⟩ := ht
    obtain ⟨column, hcolumn, rows⟩ := ColumnView.arrayChildren_array hc htype hv
    change (view.arrayChildren >>= element.prepare).isOk ↔ _
    rw [rows]
    by_cases small : view.rows * size < sizeModulus
    · rw [if_neg (Nat.not_le.mpr small), Converter.isOk_prepare_child source h hchild hcolumn]
      simp [Covers, hv, small]
    · rw [if_pos (Nat.not_lt.mp small)]
      exact iff_of_false Bool.false_ne_true fun cov => small cov.1
  | _ => cases part

/-- Members from `index` on. -/
theorem members_bindsCovered {declared : List (String × LogicalType)}
    {plans : List (Converter Target.value)}
    (sources : List.Forall₂ (fun m plan => plan.Source m.2) declared plans)
    (h : ∀ m plan, (m, plan) ∈ declared.zip plans → plan.reading.BindsCovered m.2)
    (hk : view.column.kind = .struct ∨ view.column.kind = .union)
    (hn : view.native.kind = .struct ∨ view.native.kind = .union)
    {vectors : List NativeVector} {index : Nat} (ht : HaveTypes declared vectors)
    (hc : view.column.type.memberTypes.drop index = declared.map Prod.snd)
    (hv : view.native.children.drop index = vectors) :
    (members view index plans).isOk ↔ CoverAll declared vectors view.rows := by
  induction sources generalizing vectors index with
  | nil =>
    cases vectors with
    | nil => exact iff_of_true rfl trivial
    | cons v vectors => exact ht.elim
  | @cons m plan declared plans source others ih =>
    cases vectors with
    | nil => exact ht.elim
    | cons v vectors =>
      obtain ⟨first, rest⟩ := ht
      obtain ⟨⟨column, hcolumn, member⟩, types, later⟩ :=
        ColumnView.member_of_drop view hk hn hc hv
      have here := Converter.isOk_prepare_child source (h m plan List.mem_cons_self) first hcolumn
        view.rows (view.path ++ [.member index])
      have there := ih (fun n q hq => h n q (List.mem_cons_of_mem _ hq)) rest types later
      rw [CoverAll, ← here, ← there, ← member, members]
      cases view.member index with
      | error e => simp
      | ok opened =>
        simp only [Result.ok_bind]
        cases plan.prepare opened with
        | error e => simp
        | ok conv => simp

theorem map_bindsCovered {key content : LogicalType} {keys : Converter k} {contents : Converter w}
    (keySource : keys.Source key) (hk : keys.reading.BindsCovered key)
    (contentSource : contents.Source content) (hw : contents.reading.BindsCovered content)
    (finish : List (k.Host × w.Host) → α) :
    (Reading.unbound (map keys contents finish)).BindsCovered (.map key content) := by
  intro view hc ht
  obtain ⟨htype, entries, first, second, hv, hentry, hchildren, typedKeys, typedContents⟩ := ht
  obtain ⟨column, hcolumn, rows⟩ := ColumnView.listChildren_map hc htype hv
  obtain ⟨⟨keyColumn, hkc, keyRows⟩, contentColumn, hwc, contentRows⟩ :=
    ColumnView.member_entry view.native.childRows (view.path ++ [.list]) hcolumn hentry hchildren
  have keyBinds := Converter.isOk_prepare_child keySource hk typedKeys hkc view.native.childRows
    (view.path ++ [.list] ++ [.member 0])
  have contentBinds := Converter.isOk_prepare_child contentSource hw typedContents hwc
    view.native.childRows (view.path ++ [.list] ++ [.member 1])
  have covers : view.native.Covers (.map key content) view.rows ↔
      view.native.childRows ≤ entries.rows ∧
        (view.native.childRows ≤ first.rows ∧ first.Covers key view.native.childRows) ∧
        view.native.childRows ≤ second.rows ∧ second.Covers content view.native.childRows := by
    simp [Covers, hv, hchildren]
  rw [covers, ← keyBinds, ← contentBinds, ← keyRows, ← contentRows, Reading.on, map, rows]
  by_cases enough : view.native.childRows ≤ entries.rows
  · rw [ColumnView.firstRows_of_le enough, Result.ok_bind, and_iff_right enough]
    generalize ColumnView.member _ 0 = keyView, ColumnView.member _ 1 = contentView
    cases keyView with
    | error e => simp
    | ok keyView =>
      cases contentView with
      | error e => simp
      | ok contentView =>
        simp only [Result.ok_bind]
        cases keys.prepare keyView <;> cases contents.prepare contentView <;> simp
  · rw [ColumnView.firstRows_of_lt (Nat.lt_of_not_le enough)]
    exact iff_of_false Bool.false_ne_true fun all => enough all.1

theorem struct_bindsCovered {declared : List (String × LogicalType)} (names : List String)
    {plans : List (Converter Target.value)}
    (sources : List.Forall₂ (fun m plan => plan.Source m.2) declared plans)
    (h : ∀ m plan, (m, plan) ∈ declared.zip plans → plan.reading.BindsCovered m.2) :
    (Reading.unbound (struct names plans)).BindsCovered (.struct declared) := by
  intro view hc ht
  have kind : view.column.kind = .struct := by rw [Column.kind, hc]; rfl
  have native : view.native.kind = .struct := by rw [NativeVector.kind, ht.1]; rfl
  have types : view.column.type.memberTypes.drop 0 = declared.map Prod.snd := by rw [hc]; rfl
  rw [Reading.on, struct, Covers,
    ← members_bindsCovered sources h (.inl kind) (.inl native) ht.2 types rfl]
  simp

theorem union_bindsCovered {alternatives : List (String × LogicalType)}
    {plans : List (Converter Target.value)}
    (sources : List.Forall₂ (fun m plan => plan.Source m.2) alternatives plans)
    (h : ∀ m plan, (m, plan) ∈ alternatives.zip plans → plan.reading.BindsCovered m.2) :
    (Reading.unbound (union LogicalType.tagPlan plans)).BindsCovered (.union alternatives) := by
  intro view hc ht
  obtain ⟨htype, tags, vectors, hv, htag, htypes⟩ := ht
  have kind : view.column.kind = .union := by rw [Column.kind, hc]; rfl
  have native : view.native.kind = .union := by rw [NativeVector.kind, htype]; rfl
  have tagType : view.column.type.memberTypes[0]? = some (.scalar (.int .u8)) := by rw [hc]; rfl
  have tagVector : view.native.children[0]? = some tags := by rw [hv]; rfl
  have types : view.column.type.memberTypes.drop 1 = alternatives.map Prod.snd := by rw [hc]; rfl
  have later : view.native.children.drop 1 = vectors := by rw [hv]; rfl
  obtain ⟨column, -, tagRows⟩ :=
    ColumnView.member_eq view (.inr kind) (.inr native) tagType tagVector
  have others := members_bindsCovered sources h (.inr kind) (.inr native) htypes types later
  have covers : view.native.Covers (.union alternatives) view.rows ↔
      view.rows ≤ tags.rows ∧ CoverAll alternatives vectors view.rows := by
    simp [Covers, hv]
  rw [covers, ← others, Reading.on, union, tagRows]
  by_cases enough : view.rows ≤ tags.rows
  · rw [ColumnView.firstRows_of_le enough, Result.ok_bind, and_iff_right enough]
    cases members view 1 plans with
    | error e => simp
    | ok bound => exact iff_of_true rfl rfl
  · rw [ColumnView.firstRows_of_lt (Nat.lt_of_not_le enough)]
    exact iff_of_false Bool.false_ne_true fun both => enough both.1

end Binder

/-- By the parts of its type, a plan binds where all children have enough rows. -/
theorem Reading.Shape.bindsCovered {type : LogicalType} {α : Type} {reading : Reading α}
    (shape : reading.Shape type) : reading.BindsCovered type := by
  induction shape with
  | slot leaf decodes =>
    intro view hc ht
    exact iff_of_true rfl (covers_leaf leaf view.native view.rows)
  | elements part source shape ih => exact Binder.list_bindsCovered part source ih _
  | struct sources shapes ih => exact Binder.struct_bindsCovered _ sources ih
  | map keySource keyShape contentSource contentShape ihKeys ihContents =>
    exact Binder.map_bindsCovered keySource ihKeys contentSource ihContents _
  | union sources shapes ih => exact Binder.union_bindsCovered sources ih
  | mapped f shape ih =>
    intro view hc ht
    rw [Reading.on_map, Result.isOk_map]
    exact ih view hc ht

/-- A plan can be prepared for a view that keeps its contract exactly if each child below has the
rows that the rows above it need. -/
theorem Converter.Shaped.isOk_prepare {c : Target} {plan : Converter c} {view : ColumnView}
    (h : plan.Shaped view.column.type) (sound : view.Sound) :
    (plan.prepare view).isOk ↔ view.native.Covers view.column.type view.rows :=
  Converter.isOk_prepare h.source h.shape.bindsCovered view rfl (sound.native.hasType sound.type)

end TypedColumns
