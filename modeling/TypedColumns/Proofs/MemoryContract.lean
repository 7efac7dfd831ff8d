import TypedColumns.Proofs.Binding
import TypedColumns.Proofs.PlanShape

/-!
Reads stay inside the memory of the vectors. A vector owes its readers memory for all of its rows;
a converter then loads nothing else, whatever vector it was prepared for and whatever vector of its
source it is used with.
-/
namespace TypedColumns

open Result (FailsOnly)

/-- The contract of a vector: a slot of the storage's width for every row, a bitmap word for every 64
rows unless there is no bitmap, the payloads that the string slots of valid rows refer to, and
children of the declared types that keep the contract too. Row counts are 64-bit numbers. -/
inductive NativeVector.Sound : NativeVector → Prop where
  | intro {v : NativeVector} (rows : v.rows < sizeModulus)
      (slots : ∀ width, v.type.storage.slotWidth? = some width → width * v.rows ≤ v.data.size)
      (words : ∀ bitmap, v.bitmap = some bitmap → Bitmap.wordCount v.rows ≤ bitmap.size)
      (payloads : v.type.storage.isStringLike = true → ∀ row < v.rows, v.bit? row = some true →
        ∃ payload, v.payload? row = some payload)
      (types : v.children.map NativeVector.type = v.type.childTypes)
      (children : ∀ c ∈ v.children, c.Sound) : v.Sound

/-- A view of the first rows of a vector that keeps the contract and has the column's type. -/
structure ColumnView.Sound (view : ColumnView) : Prop where
  native : view.native.Sound
  type : view.native.type = view.column.type
  covered : view.rows ≤ view.native.rows

namespace NativeVector.Sound

variable {v : NativeVector} {row : Nat}

theorem slot_readable (h : v.Sound) {width : Nat} (hw : v.type.storage.slotWidth? = some width)
    (hr : row < v.rows) : ∃ bytes, v.slot? width row = some bytes := by
  obtain ⟨-, slots, -, -, -, -⟩ := h
  have inside : width * row + width ≤ v.data.size := by
    calc width * row + width = width * (row + 1) := (Nat.mul_succ width row).symm
      _ ≤ width * v.rows := Nat.mul_le_mul_left width hr
      _ ≤ v.data.size := slots width hw
  exact ⟨_, if_pos inside⟩

theorem entry_readable (h : v.Sound) (hw : v.type.storage.slotWidth? = some 16)
    (hr : row < v.rows) : ∃ entry, v.entry? row = some entry := by
  obtain ⟨bytes, hb⟩ := h.slot_readable hw hr
  refine ⟨.ofBytes bytes, ?_⟩
  unfold entry?
  rw [hb]
  rfl

theorem bit_readable (h : v.Sound) (hr : row < v.rows) : ∃ valid, v.bit? row = some valid := by
  obtain ⟨-, -, words, -, -, -⟩ := h
  unfold bit? Bitmap.rowBit?
  cases hb : v.bitmap with
  | none => exact ⟨true, rfl⟩
  | some bitmap =>
    have inside : row / 64 < bitmap.size := by
      have := words bitmap hb
      unfold Bitmap.wordCount at this
      omega
    exact ⟨bitmap[row / 64].getLsbD (row % 64), by simp [Bitmap.bit?, inside]⟩

theorem content_readable (h : v.Sound) (hr : row < v.rows) (hb : v.bit? row = some true) :
    ∃ bytes, v.content? v.type.storage row = some bytes := by
  unfold content?
  by_cases hs : v.type.storage.isStringLike = true
  · obtain ⟨-, -, -, payloads, -, -⟩ := h
    rw [if_pos hs]
    exact payloads hs row hr hb
  · rw [if_neg hs]
    cases hw : v.type.storage.slotWidth? with
    | some width => exact h.slot_readable hw hr
    | none => exact ⟨_, if_pos (by simp)⟩

end NativeVector.Sound

namespace ColumnView.Sound

variable {view child : ColumnView} {s : ViewStep} {row : Nat}

/-- The views that a step opens keep the contract. -/
theorem step (h : view.Sound) (hs : view.step s = .ok child) : child.Sound := by
  have opens := opens_of_step hs
  obtain ⟨-, -, -, -, types, children⟩ := h.native
  refine ⟨children _ (List.mem_of_getElem? opens.native), ?_, opens.covered⟩
  have declared : (view.native.children.map NativeVector.type)[s.position]? =
      some child.column.type := by
    rw [types, h.type, opens.type]
  rw [List.getElem?_map, opens.native] at declared
  exact Option.some.inj declared

theorem elements (h : view.Sound) {size? : Option Nat}
    (hc : Binder.elements view size? = .ok child) : child.Sound := by
  cases size? with
  | none => exact h.step (s := .list) hc
  | some size => exact h.step (s := .array) hc

theorem member (h : view.Sound) {index : Nat} (hc : view.member index = .ok child) : child.Sound :=
  h.step (s := .member index) hc

/-- A view made of a vector that keeps the contract. -/
theorem ofNative {native : NativeVector} {rows : Nat} (h : native.Sound)
    (hv : ColumnView.ofNative native rows = .ok view) : view.Sound := by
  obtain ⟨column, hc, hv⟩ := Result.bind_eq_ok.mp hv
  obtain ⟨covered, rfl⟩ := firstRows_inv hv
  exact ⟨h, (Column.type_of_ofType hc).symm, covered⟩

theorem withColumn {native : NativeVector} {column : Column} {rows : Nat} (h : native.Sound)
    (hv : ColumnView.withColumn native column rows = .ok view) : view.Sound := by
  unfold ColumnView.withColumn at hv
  split at hv
  · next type =>
    obtain ⟨covered, rfl⟩ := firstRows_inv hv
    exact ⟨h, type, covered⟩
  · cases hv

end ColumnView.Sound

/-- The reader loads nothing outside the memory of a view of columns like `type`. -/
def Reader.Bounded {α : Type} (type : LogicalType) (read : Reader α) : Prop :=
  ∀ view : ColumnView, view.Sound → view.column.kind = type.kind →
    view.column.storage = type.storage → ∀ row < view.rows, view.native.bit? row = some true →
      FailsOnly (· ≠ .unreadable) (read view row)

theorem Reader.Decodes.bounded {α : Type} {type : LogicalType} {read : Reader α}
    (h : read.Decodes type) : read.Bounded type := by
  obtain ⟨decode, hd⟩ := h
  intro view sound hk hs row hr hb
  obtain ⟨reads, domain⟩ := hd view hk hs
  obtain ⟨bytes, content⟩ :=
    sound.native.content_readable (Nat.lt_of_lt_of_le hr sound.covered) hb
  have storage : view.native.type.storage = type.storage := by
    rw [sound.type]
    exact hs
  rw [storage] at content
  rw [reads row, content]
  refine (domain bytes).mono ?_
  rintro _ ⟨fault, rfl⟩
  nofun

namespace Converter

variable {c : Target} {plan : Converter c} {type : LogicalType} {read : Reader c.Host}

/-- A converter with such a reader loads nothing outside the memory of any view: it refuses a view
of another kind or storage and rows that the view does not have. -/
theorem tryConvert_bounded (source : plan.Source type) (bounded : read.Bounded type)
    {view : ColumnView} (sound : view.Sound) (row : Nat) :
    FailsOnly (· ≠ .unreadable) ((plan.withReader read).tryConvert view row) := by
  apply tryConvert_failsOnly
  · unfold checkSource
    split
    · exact .ok ()
    · exact .error nofun
  · intro _
    nofun
  · intro hr hb
    obtain ⟨valid, hv⟩ := sound.native.bit_readable (Nat.lt_of_lt_of_le hr sound.covered)
    rw [hb] at hv
    contradiction
  · intro checked hr hb
    obtain ⟨hk, hs⟩ := checkSource_eq_ok checked
    exact bounded view sound (hk.trans source.kind) (hs.trans source.storage) row hr hb

theorem convert_bounded (source : plan.Source type) (bounded : read.Bounded type)
    {view : ColumnView} (sound : view.Sound) (row : Nat) (require : Bool) :
    FailsOnly (· ≠ .unreadable) ((plan.withReader read).convert view row require) :=
  convert_failsOnly (tryConvert_bounded source bounded sound row) nofun require

end Converter

/-- Whatever view the reading is bound to, the reader that it gets loads nothing outside memory. -/
def Reading.Bounded {α : Type} (type : LogicalType) (reading : Reading α) : Prop :=
  ∀ view : ColumnView, view.Sound → ∀ read, reading.on view = .ok read → read.Bounded type

/-- A plan prepared for a view reads every view inside memory. -/
theorem Converter.convert_prepared {c : Target} {plan conv : Converter c} {type : LogicalType}
    (source : plan.Source type) (bounded : plan.reading.Bounded type) {view other : ColumnView}
    (sound : view.Sound) (prepared : plan.prepare view = .ok conv) (soundOther : other.Sound)
    (row : Nat) (require : Bool) :
    FailsOnly (· ≠ .unreadable) (conv.convert other row require) := by
  obtain ⟨read, bound, rfl⟩ := prepare_eq_ok prepared
  exact convert_bounded source (bounded view sound read bound) soundOther row require

/-- The converters bound to the members of a STRUCT or UNION. -/
theorem Binder.members_bounded {members : List (String × LogicalType)}
    {plans : List (Converter Target.value)} {view : ColumnView} {index : Nat}
    {bound : List (Converter Target.value × ColumnView)} (sound : view.Sound)
    (sources : List.Forall₂ (fun m plan => plan.Source m.2) members plans)
    (shapes : ∀ m plan, (m, plan) ∈ members.zip plans → plan.reading.Bounded m.2)
    (h : Binder.members view index plans = .ok bound) :
    ∀ b ∈ bound, ∀ row, FailsOnly (· ≠ .unreadable) (b.1.convert b.2 row false) := by
  intro b hb row
  obtain ⟨i, hi⟩ := List.getElem?_of_mem hb
  obtain ⟨-, at'⟩ := members_eq_ok h
  obtain ⟨plan, hp, hm, prepared⟩ := at' i b hi
  obtain ⟨m, -, source, hz⟩ := part_of_plan sources hp
  exact Converter.convert_prepared source (shapes m plan hz) (sound.member hm) prepared
    (sound.member hm) row false

theorem Binder.entryOf_bounded {view : ColumnView} (sound : view.Sound) {size? : Option Nat}
    (hw : size? = none → view.column.storage.slotWidth? = some 16) {row : Nat}
    (hr : row < view.rows) : FailsOnly (· ≠ .unreadable) (entryOf view row size?) := by
  cases size? with
  | some size =>
    simp only [entryOf]
    split_ifs
    · exact .ok _
    · exact .error nofun
  | none =>
    have width : view.native.type.storage.slotWidth? = some 16 := by
      rw [sound.type]
      exact hw rfl
    obtain ⟨entry, he⟩ :=
      sound.native.entry_readable width (Nat.lt_of_lt_of_le hr sound.covered)
    simp only [entryOf, ColumnView.entryAt, he]
    exact .ok _

namespace Binder

variable {c k v : Target} {α : Type}

theorem list_bounded {element : Converter c} {type child : LogicalType}
    (part : type.element? = some child) (source : element.Source child)
    (bounded : element.reading.Bounded child) (finish : List c.Host → α) :
    (Reading.unbound (list element type.size? finish)).Bounded type := by
  intro view sound read bound other soundOther _ hs row hr _
  obtain ⟨children, conv, hc, prepared, rfl⟩ := list_eq_ok bound
  have width : type.size? = none → other.column.storage.slotWidth? = some 16 := by
    intro hn
    rw [hs]
    exact LogicalType.slotWidth_of_entries part hn
  have items : FailsOnly (· ≠ .unreadable) (mapChildren other row type.size? children.rows
      fun j => conv.convert children j true) :=
    mapChildren_failsOnly (entryOf_bounded soundOther width hr) (fun _ _ => nofun) fun j _ =>
      Converter.convert_prepared source bounded (sound.elements hc) prepared (sound.elements hc) j
        true
  exact items.bind fun _ _ => .ok _

theorem struct_bounded {members : List (String × LogicalType)}
    {plans : List (Converter Target.value)}
    (names : List String) (sources : List.Forall₂ (fun m plan => plan.Source m.2) members plans)
    (bounded : ∀ m plan, (m, plan) ∈ members.zip plans → plan.reading.Bounded m.2) :
    (Reading.unbound (struct names plans)).Bounded (.struct members) := by
  intro view sound read bound other _ _ _ row _ _
  obtain ⟨members, hm, rfl⟩ := struct_eq_ok bound
  have values := FailsOnly.mapM fun b hb => members_bounded sound sources bounded hm b hb row
  exact values.bind fun _ _ => .ok _

theorem map_bounded {keys : Converter k} {contents : Converter v} {key content : LogicalType}
    (keySource : keys.Source key) (keyBounded : keys.reading.Bounded key)
    (contentSource : contents.Source content) (contentBounded : contents.reading.Bounded content)
    (finish : List (k.Host × v.Host) → α) :
    (Reading.unbound (map keys contents finish)).Bounded (.map key content) := by
  intro view sound read bound other soundOther _ hs row hr _
  obtain ⟨entries, keyView, contentView, keys, contents, he, hk, hw, keysPrepared,
    contentsPrepared, rfl⟩ := map_eq_ok bound
  have soundEntries := sound.step (s := .list) he
  have entry : FailsOnly (· ≠ .unreadable) (entryOf other row none) :=
    entryOf_bounded soundOther (fun _ => by rw [hs]; rfl) hr
  have key (j : Nat) : FailsOnly (· ≠ .unreadable) (keys.convert keyView j true) :=
    Converter.convert_prepared keySource keyBounded (soundEntries.member hk) keysPrepared
      (soundEntries.member hk) j true
  have content (j : Nat) : FailsOnly (· ≠ .unreadable) (contents.convert contentView j true) :=
    Converter.convert_prepared contentSource contentBounded (soundEntries.member hw)
      contentsPrepared (soundEntries.member hw) j true
  apply (mapChildren_failsOnly entry (fun _ _ => nofun) fun j _ =>
    (key j).bind fun a _ => (content j).bind fun b _ => .ok (a, b)).bind
  intro pairs _
  exact .ok _

theorem union_bounded {alternatives : List (String × LogicalType)}
    {plans : List (Converter Target.value)}
    (sources : List.Forall₂ (fun m plan => plan.Source m.2) alternatives plans)
    (bounded : ∀ m plan, (m, plan) ∈ alternatives.zip plans → plan.reading.Bounded m.2) :
    (Reading.unbound (union LogicalType.tagPlan plans)).Bounded (.union alternatives) := by
  intro view sound read bound other _ _ _ row _ _
  obtain ⟨tags, members, ht, hm, rfl⟩ := union_eq_ok bound
  apply (Converter.convert_bounded LogicalType.tagPlan_source LogicalType.tag_decodes.bounded
    (sound.member ht) row true).bind
  intro n _
  split
  · next plan member hb =>
    exact members_bounded sound sources bounded hm _ (List.mem_of_getElem? hb) row
  · exact .error nofun

end Binder

theorem Reading.Shape.bounded {type : LogicalType} {α : Type} {reading : Reading α}
    (shape : reading.Shape type) : reading.Bounded type := by
  induction shape with
  | slot leaf decodes =>
    rintro view sound _ ⟨⟩
    exact decodes.bounded
  | elements part source shape ih => exact Binder.list_bounded part source ih _
  | struct sources shapes ih => exact Binder.struct_bounded _ sources ih
  | map keySource keyShape contentSource contentShape ihKeys ihContents =>
    exact Binder.map_bounded keySource ihKeys contentSource ihContents _
  | union sources shapes ih => exact Binder.union_bounded sources ih
  | mapped f shape ih =>
    intro view sound read bound other soundOther hk hs row hr hb
    rw [Reading.on_map] at bound
    obtain ⟨inner, inside, rfl⟩ := Result.map_eq_ok.mp bound
    exact (ih view sound inner inside other soundOther hk hs row hr hb).bind fun _ _ => .ok _

/-- The span of an entry with its end computed in 64 bits, where an overflow is an entry outside the
child rows. -/
def ListEntry.checkedSpan (entry : ListEntry) (row childRows : Nat) : Result (Nat × Nat) :=
  let outside := .error (.native (.spanOutOfRange row entry.offset.val.toNat
    entry.length.val.toNat childRows))
  match entry.end? with
  | some stop =>
    if stop.val.toNat ≤ childRows then .ok (entry.offset.val.toNat, stop.val.toNat) else outside
  | none => outside

theorem Binder.childSpan_entry {view : ColumnView} {row childRows : Nat} {entry : ListEntry}
    (he : view.entryAt row = .ok entry) (hc : childRows < sizeModulus) :
    childSpan view row none childRows = entry.checkedSpan row childRows := by
  have low := entry.offset.holds.1
  have low' := entry.length.holds.1
  unfold childSpan entryOf ListEntry.checkedSpan ListEntry.end? Word.ofInt?
  rw [he]
  simp only [Result.map_ok, Result.ok_bind]
  simp only [IntKind.min] at low low'
  have sum : (entry.offset.val + entry.length.val).toNat =
      entry.offset.val.toNat + entry.length.val.toNat := Int.toNat_add low low'
  by_cases fits : IntKind.u64.Holds (entry.offset.val + entry.length.val)
  · simp only [fits, dif_pos, sum]
  · have far : ¬ entry.offset.val.toNat + entry.length.val.toNat ≤ childRows := by
      simp only [IntKind.Holds, IntKind.min, IntKind.max, not_and, Int.not_le] at fits
      simp only [sizeModulus] at hc
      omega
    simp only [fits, far, dif_neg, not_false_eq_true, if_false]

theorem Binder.childSpan_array (view : ColumnView) {row rows size : Nat} (hr : row < rows)
    (hs : rows * size < sizeModulus) :
    row * size + size ≤ rows * size ∧
      childSpan view row (some size) (rows * size) = .ok (row * size, row * size + size) := by
  obtain ⟨entry, last⟩ := entryOf_array view hr hs
  refine ⟨last, ?_⟩
  unfold childSpan
  simp only [entry, Result.ok_bind, last, if_true]

namespace ColumnView

/-- The arithmetic on the rows of a view is that of natural numbers, or an overflow is noticed. The
elements of an ARRAY were counted without overflow, so no row has a first or last element past the
64-bit numbers; entries end where a checked 64-bit sum says so. -/
structure ExactRows (view : ColumnView) : Prop where
  array : ∀ child size, view.column.type = .array child size →
    ∃ children, view.arrayChildren = .ok children ∧ children.rows < sizeModulus ∧
      ∀ row < view.rows, row * size + size ≤ children.rows ∧
        Binder.childSpan view row (some size) children.rows =
          .ok (row * size, row * size + size)
  entries : view.column.kind = .list ∨ view.column.kind = .map →
    ∃ children, view.listChildren = .ok children ∧ children.rows < sizeModulus ∧
      ∀ row entry, view.entryAt row = .ok entry →
        Binder.childSpan view row none children.rows = entry.checkedSpan row children.rows

variable {view child : ColumnView} {s : ViewStep}

theorem rows_lt_of_sound (h : view.Sound) : view.rows < sizeModulus := by
  obtain ⟨rows, -, -, -, -, -⟩ := h.native
  exact Nat.lt_of_le_of_lt h.covered rows

theorem exactRows_of_children (h : view.Sound)
    (array : view.column.kind = .array → ∃ children, view.arrayChildren = .ok children)
    (entries : view.column.kind = .list ∨ view.column.kind = .map →
      ∃ children, view.listChildren = .ok children) : view.ExactRows := by
  constructor
  · intro part size type
    obtain ⟨children, hc⟩ := array (congrArg LogicalType.kind type)
    obtain ⟨count, small⟩ := arrayChildren_rows type hc
    refine ⟨children, hc, by rwa [count], ?_⟩
    rw [count]
    intro row hr
    exact Binder.childSpan_array view hr small
  · intro kind
    obtain ⟨children, hc⟩ := entries kind
    have small := rows_lt_of_sound (h.step (s := .list) hc)
    exact ⟨children, hc, small, fun row entry he => Binder.childSpan_entry he small⟩

theorem exactRows_of_elements (h : view.Sound) {part : LogicalType}
    (hp : view.column.type.element? = some part)
    (hc : Binder.elements view view.column.type.size? = .ok child) : view.ExactRows := by
  cases ht : view.column.type with
  | list c =>
    have hk : view.column.kind = .list := congrArg LogicalType.kind ht
    rw [ht] at hc
    exact exactRows_of_children h (by simp [hk]) fun _ => ⟨child, hc⟩
  | array c size =>
    have hk : view.column.kind = .array := congrArg LogicalType.kind ht
    rw [ht] at hc
    exact exactRows_of_children h (fun _ => ⟨child, hc⟩) (by simp [hk])
  | _ => rw [ht] at hp; cases hp

theorem exactRows_of_simple (h : view.Sound) (kind : view.column.kind ∉ [.list, .array, .map]) :
    view.ExactRows := by
  apply exactRows_of_children h
  · intro hk
    simp [hk] at kind
  · rintro (hk | hk) <;> simp [hk] at kind

theorem listChildren_kind (h : view.Sound) (hc : view.listChildren = .ok child) :
    view.column.kind = .list ∨ view.column.kind = .map := by
  have same : view.native.kind = view.column.kind := congrArg LogicalType.kind h.type
  rw [← same]
  obtain ⟨found, hn, -⟩ := Result.bind_eq_ok.mp hc
  unfold NativeVector.listChild at hn
  split at hn
  · next hk _ => exact .inl hk
  · next hk _ => exact .inr hk
  · cases hn

theorem arrayChildren_kind (hc : view.arrayChildren = .ok child) : view.column.kind = .array := by
  obtain ⟨part, size, type, -⟩ := arrayChildren_eq_ok hc
  rw [Column.kind, type]
  rfl

theorem member_kind {index : Nat} (hc : view.member index = .ok child) :
    view.column.kind = .struct ∨ view.column.kind = .union := by
  obtain ⟨column, hm, -⟩ := Result.bind_eq_ok.mp hc
  exact (Column.member_eq_ok hm).1

/-- The only step from a LIST or ARRAY is to its elements. -/
theorem step_elements (h : view.Sound) {part : LogicalType}
    (hp : view.column.type.element? = some part) (hs : view.step s = .ok child) :
    Binder.elements view view.column.type.size? = .ok child := by
  cases ht : view.column.type with
  | list c =>
    have hk : view.column.kind = .list := congrArg LogicalType.kind ht
    cases s with
    | list => exact hs
    | array => simp [arrayChildren_kind hs] at hk
    | member index => rcases member_kind hs with other | other <;> simp [other] at hk
  | array c size =>
    have hk : view.column.kind = .array := congrArg LogicalType.kind ht
    cases s with
    | list => rcases listChildren_kind h hs with other | other <;> simp [other] at hk
    | array => exact hs
    | member index => rcases member_kind hs with other | other <;> simp [other] at hk
  | _ => rw [ht] at hp; cases hp

/-- The only step from a MAP is to its entries. -/
theorem step_map (hk : view.column.kind = .map) (hs : view.step s = .ok child) :
    view.listChildren = .ok child := by
  cases s with
  | list => exact hs
  | array => simp [arrayChildren_kind hs] at hk
  | member index => rcases member_kind hs with other | other <;> simp [other] at hk

theorem step_members (h : view.Sound) (hk : view.column.kind = .struct ∨ view.column.kind = .union)
    (hs : view.step s = .ok child) : ∃ index, view.member index = .ok child := by
  cases s with
  | list => rcases listChildren_kind h hs with other | other <;> simp [other] at hk
  | array => simp [arrayChildren_kind hs] at hk
  | member index => exact ⟨index, hs⟩

/-- The steps from the entries of a MAP are to the keys and to the values. -/
theorem step_entry (h : view.Sound) {key content : LogicalType}
    (ht : view.column.type = .entry key content) (hs : view.step s = .ok child) :
    (view.member 0 = .ok child ∧ child.column.type = key) ∨
      (view.member 1 = .ok child ∧ child.column.type = content) := by
  have hk : view.column.kind = .struct := congrArg LogicalType.kind ht
  obtain ⟨index, hi⟩ := step_members h (.inl hk) hs
  have opens := opens_of_step (s := .member index) hi
  cases index with
  | zero => exact .inl ⟨hi, opens.column_type (by rw [ht]; rfl)⟩
  | succ index =>
    cases index with
    | zero => exact .inr ⟨hi, opens.column_type (by rw [ht]; rfl)⟩
    | succ index =>
      have declared := opens.type
      rw [ht] at declared
      cases declared

theorem step_leaf (h : view.Sound) (leaf : view.column.kind.isNested = false) :
    view.step s ≠ .ok child := by
  intro hs
  cases s with
  | list => rcases listChildren_kind h hs with hk | hk <;> simp [hk, Kind.isNested] at leaf
  | array => simp [arrayChildren_kind hs, Kind.isNested] at leaf
  | member index => rcases member_kind hs with hk | hk <;> simp [hk, Kind.isNested] at leaf

theorem exactRows_of_leaf (h : view.Sound) (leaf : view.column.kind.isNested = false)
    {path : List ViewStep} {other : ColumnView} (hf : view.follow path = .ok other) :
    other.ExactRows := by
  cases path with
  | nil =>
    cases hf
    apply exactRows_of_simple h
    intro hk
    simp only [List.mem_cons, List.not_mem_nil, or_false] at hk
    rcases hk with hk | hk | hk <;> simp [hk, Kind.isNested] at leaf
  | cons s path =>
    obtain ⟨child, hs, -⟩ := Result.bind_eq_ok.mp hf
    exact absurd hs (step_leaf h leaf)

end ColumnView

/-- Once bound to a view of the type, rows are counted exactly in it and in every view below it. -/
def Reading.Exact {α : Type} (type : LogicalType) (reading : Reading α) : Prop :=
  ∀ view : ColumnView, view.Sound → view.column.type = type → ∀ read, reading.on view = .ok read →
    ∀ path other, view.follow path = .ok other → other.ExactRows

theorem Converter.exact_prepared {c : Target} {plan conv : Converter c} {type : LogicalType}
    (exact : plan.reading.Exact type) {view : ColumnView} (sound : view.Sound)
    (ht : view.column.type = type) (prepared : plan.prepare view = .ok conv)
    {path : List ViewStep} {other : ColumnView} (hf : view.follow path = .ok other) :
    other.ExactRows := by
  obtain ⟨read, bound, -⟩ := prepare_eq_ok prepared
  exact exact view sound ht read bound path other hf

theorem Binder.members_exact {members : List (String × LogicalType)}
    {plans : List (Converter Target.value)} {view : ColumnView} {index : Nat}
    {bound : List (Converter Target.value × ColumnView)} (sound : view.Sound)
    (sources : List.Forall₂ (fun m plan => plan.Source m.2) members plans)
    (shapes : ∀ m plan, (m, plan) ∈ members.zip plans → plan.reading.Exact m.2)
    (ht : view.column.type.childTypes.drop index = members.map Prod.snd)
    (h : Binder.members view index plans = .ok bound) {i : Nat} {child : ColumnView}
    (hm : view.member (index + i) = .ok child) {path : List ViewStep} {other : ColumnView}
    (hf : child.follow path = .ok other) : other.ExactRows := by
  have declared := (ColumnView.opens_of_step (s := .member (index + i)) hm).type
  change view.column.type.childTypes[index + i]? = _ at declared
  rw [← List.getElem?_drop, ht, List.getElem?_map, Option.map_eq_some_iff] at declared
  obtain ⟨m, hi, type⟩ := declared
  obtain ⟨length, at'⟩ := members_eq_ok h
  have inside : i < bound.length := by
    rw [length, ← sources.length_eq]
    exact (List.getElem?_eq_some_iff.mp hi).1
  obtain ⟨plan, hp, hview, prepared⟩ := at' i bound[i] (List.getElem?_eq_getElem inside)
  obtain ⟨m', hi', -, hz⟩ := part_of_plan sources hp
  obtain rfl : m = m' := Option.some.inj (hi.symm.trans hi')
  obtain rfl : bound[i].2 = child := Except.ok.inj (hview.symm.trans hm)
  exact Converter.exact_prepared (shapes m plan hz) (sound.member hm) type.symm prepared hf

namespace Binder

variable {c k v : Target} {α : Type}

theorem list_exact {element : Converter c} {type child : LogicalType}
    (part : type.element? = some child) (exact : element.reading.Exact child)
    (finish : List c.Host → α) :
    (Reading.unbound (list element type.size? finish)).Exact type := by
  rintro view sound rfl read bound path other hf
  obtain ⟨children, conv, hc, prepared, rfl⟩ := list_eq_ok bound
  cases path with
  | nil =>
    cases hf
    exact ColumnView.exactRows_of_elements sound part hc
  | cons s path =>
    obtain ⟨child, hs, hf⟩ := Result.bind_eq_ok.mp hf
    rw [ColumnView.step_elements sound part hs] at hc
    cases hc
    have type := ColumnView.elements_type part (ColumnView.step_elements sound part hs)
    exact Converter.exact_prepared exact (sound.step hs) type prepared hf

theorem struct_exact {members : List (String × LogicalType)} {plans : List (Converter Target.value)}
    (names : List String) (sources : List.Forall₂ (fun m plan => plan.Source m.2) members plans)
    (exact : ∀ m plan, (m, plan) ∈ members.zip plans → plan.reading.Exact m.2) :
    (Reading.unbound (struct names plans)).Exact (.struct members) := by
  intro view sound type read bound path other hf
  have hk : view.column.kind = .struct := congrArg LogicalType.kind type
  obtain ⟨bound, hm, rfl⟩ := struct_eq_ok bound
  cases path with
  | nil =>
    cases hf
    exact ColumnView.exactRows_of_simple sound (by simp [hk])
  | cons s path =>
    obtain ⟨child, hs, hf⟩ := Result.bind_eq_ok.mp hf
    obtain ⟨index, hi⟩ := ColumnView.step_members sound (.inl hk) hs
    rw [← Nat.zero_add index] at hi
    exact members_exact sound sources exact (by rw [type]; rfl) hm hi hf

/-- Below the entries of a MAP there are its keys and its values. -/
theorem entries_exact {entries keyView contentView other : ColumnView} {keys keyConv : Converter k}
    {contents contentConv : Converter v} {key content : LogicalType} (sound : entries.Sound)
    (type : entries.column.type = .entry key content) (keyExact : keys.reading.Exact key)
    (contentExact : contents.reading.Exact content) (hk : entries.member 0 = .ok keyView)
    (hw : entries.member 1 = .ok contentView) (keyPrepared : keys.prepare keyView = .ok keyConv)
    (contentPrepared : contents.prepare contentView = .ok contentConv) {path : List ViewStep}
    (hf : entries.follow path = .ok other) : other.ExactRows := by
  have kind : entries.column.kind = .struct := congrArg LogicalType.kind type
  cases path with
  | nil =>
    cases hf
    exact ColumnView.exactRows_of_simple sound (by simp [kind])
  | cons s path =>
    obtain ⟨member, hs, hf⟩ := Result.bind_eq_ok.mp hf
    rcases ColumnView.step_entry sound type hs with ⟨hi, declared⟩ | ⟨hi, declared⟩
    · obtain rfl : member = keyView := Except.ok.inj (hi.symm.trans hk)
      exact Converter.exact_prepared keyExact (sound.member hi) declared keyPrepared hf
    · obtain rfl : member = contentView := Except.ok.inj (hi.symm.trans hw)
      exact Converter.exact_prepared contentExact (sound.member hi) declared contentPrepared hf

theorem map_exact {keys : Converter k} {contents : Converter v} {key content : LogicalType}
    (keyExact : keys.reading.Exact key) (contentExact : contents.reading.Exact content)
    (finish : List (k.Host × v.Host) → α) :
    (Reading.unbound (map keys contents finish)).Exact (.map key content) := by
  intro view sound type read bound path other hf
  have hk : view.column.kind = .map := congrArg LogicalType.kind type
  obtain ⟨entries, keyView, contentView, keyConv, contentConv, he, hkey, hcontent, keyPrepared,
    contentPrepared, rfl⟩ := map_eq_ok bound
  cases path with
  | nil =>
    cases hf
    apply ColumnView.exactRows_of_children sound
    · intro other
      simp [other] at hk
    · exact fun _ => ⟨entries, he⟩
  | cons s path =>
    obtain ⟨child, hs, hf⟩ := Result.bind_eq_ok.mp hf
    obtain rfl : child = entries := Except.ok.inj ((ColumnView.step_map hk hs).symm.trans he)
    exact entries_exact (sound.step hs) (ColumnView.entries_type type he) keyExact contentExact
      hkey hcontent keyPrepared contentPrepared hf

theorem union_exact {alternatives : List (String × LogicalType)}
    {plans : List (Converter Target.value)}
    (sources : List.Forall₂ (fun m plan => plan.Source m.2) alternatives plans)
    (exact : ∀ m plan, (m, plan) ∈ alternatives.zip plans → plan.reading.Exact m.2) :
    (Reading.unbound (union LogicalType.tagPlan plans)).Exact (.union alternatives) := by
  intro view sound type read bound path other hf
  have hk : view.column.kind = .union := congrArg LogicalType.kind type
  obtain ⟨tags, bound, ht, hm, rfl⟩ := union_eq_ok bound
  cases path with
  | nil =>
    cases hf
    exact ColumnView.exactRows_of_simple sound (by simp [hk])
  | cons s path =>
    obtain ⟨child, hs, hf⟩ := Result.bind_eq_ok.mp hf
    obtain ⟨index, hi⟩ := ColumnView.step_members sound (.inr hk) hs
    cases index with
    | zero =>
      have tag : child.column.type = .scalar (.int .u8) :=
        (ColumnView.opens_of_step (s := .member 0) hi).column_type (by rw [type]; rfl)
      have leaf : child.column.kind.isNested = false := by
        rw [Column.kind, tag]
        rfl
      exact ColumnView.exactRows_of_leaf (sound.member hi) leaf hf
    | succ index =>
      rw [Nat.add_comm] at hi
      exact members_exact sound sources exact (by rw [type]; rfl) hm hi hf

end Binder

theorem Reading.Shape.exact {type : LogicalType} {α : Type} {reading : Reading α}
    (shape : reading.Shape type) : reading.Exact type := by
  induction shape with
  | slot leaf decodes =>
    rintro view sound rfl read - path other hf
    exact ColumnView.exactRows_of_leaf sound leaf hf
  | elements part source shape ih => exact Binder.list_exact part ih _
  | struct sources shapes ih => exact Binder.struct_exact _ sources ih
  | map keySource keyShape contentSource contentShape ihKeys ihContents =>
    exact Binder.map_exact ihKeys ihContents _
  | union sources shapes ih => exact Binder.union_exact sources ih
  | mapped f shape ih =>
    intro view sound type read bound path other hf
    rw [Reading.on_map] at bound
    obtain ⟨inner, inside, rfl⟩ := Result.map_eq_ok.mp bound
    exact ih view sound type inner inside path other hf

/-- A converter that was resolved for any column and target and prepared for some view loads no slot,
bitmap word or child element outside the memory of a vector, whatever view it is used with, that
view or another one, of whatever column. On the view that it was prepared for, when that has the
plan's column, the rows of children are counted exactly at every level, or an overflow is noticed. -/
theorem Converter.reads_in_bounds {c : Column} {t : Target} {plan conv : Converter t}
    {view : ColumnView} (resolved : c.Resolves plan) (sound : view.Sound)
    (prepared : plan.prepare view = .ok conv) :
    (∀ other : ColumnView, other.Sound → ∀ row, conv.tryConvert other row ≠ .error .unreadable ∧
      ∀ require, conv.convert other row require ≠ .error .unreadable) ∧
    (view.column = c → ∀ path inner, view.follow path = .ok inner → inner.ExactRows) := by
  obtain ⟨source, shape⟩ := resolved.shaped
  constructor
  · intro other soundOther row
    obtain ⟨read, bound, rfl⟩ := prepare_eq_ok prepared
    have bounded := shape.bounded view sound read bound
    constructor
    · intro he
      exact tryConvert_bounded source bounded soundOther row _ he rfl
    · intro require he
      exact convert_bounded source bounded soundOther row require _ he rfl
  · rintro rfl path inner hf
    exact exact_prepared shape.exact sound rfl prepared hf

/-- A plan prepared for a LIST whose row has both elements of the child, and used with a LIST whose
entry goes past it. -/
theorem Converter.reads_in_bounds_foreign_entry :
    let child : NativeVector := ⟨.scalar .boolean, 2, #[1, 0], none, #[], [], 0⟩
    let native (entry : ListEntry) : NativeVector :=
      ⟨.list (.scalar .boolean), 1, entry.toBytes.toArray, none, #[], [child], 2⟩
    let column : Column := ⟨.list (.scalar .boolean), rfl⟩
    let view : ColumnView := ⟨column, 1, native ⟨0, .wrap .u64 2⟩, []⟩
    let other : ColumnView := ⟨column, 1, native ⟨.wrap .u64 1, .wrap .u64 5⟩, []⟩
    ∃ plan conv : Converter (Target.list .bool), column.Resolves plan ∧ view.Sound ∧ other.Sound ∧
      plan.prepare view = .ok conv ∧ conv.tryConvert other 0 ≠ .error .unreadable ∧
      view.ExactRows := by
  intro child native column view other
  have soundChild : child.Sound := by
    refine .intro (by decide) ?_ nofun nofun rfl nofun
    rintro width ⟨⟩
    decide
  have soundNative (entry : ListEntry) : (native entry).Sound := by
    refine .intro (show 1 < sizeModulus by decide) ?_ nofun nofun rfl ?_
    · rintro width ⟨⟩
      simp [native, ListEntry.toBytes, IntKind.bytes]
    · intro c hc
      obtain rfl := List.mem_singleton.mp hc
      exact soundChild
  have sound (entry : ListEntry) : ColumnView.Sound ⟨column, 1, native entry, []⟩ :=
    ⟨soundNative entry, rfl, Nat.le_refl 1⟩
  obtain ⟨plan, hp, conv, hc⟩ : ∃ plan, column.resolve (.list .bool) = .ok plan ∧
      ∃ conv, plan.prepare view = .ok conv := ⟨_, rfl, _, rfl⟩
  obtain ⟨inside, exact⟩ := reads_in_bounds (.typed hp) (sound _) hc
  exact ⟨plan, conv, .typed hp, sound _, sound _, hc, (inside other (sound _) 0).1,
    exact rfl [] view rfl⟩

end TypedColumns
