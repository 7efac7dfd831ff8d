import TypedColumns.Proofs.Results
import TypedColumns.Proofs.Types
import TypedColumns.Resolve

/-!
What binding a plan and reading with it come down to: the child views that binding opens, the
converters that it prepares for them, and the errors that the steps of a read can end with.
-/
namespace TypedColumns

open Result (FailsOnly)

/-- Faults that vectors of the right types can have: children with too few rows, entries outside
them, and tags that name no alternative. -/
inductive NativeFault.OfData : NativeFault → Prop where
  | tooFewRows (kind : Kind) (rows requested : Nat) : OfData (.tooFewRows kind rows requested)
  | arrayOverflow (rows size : Nat) : OfData (.arrayOverflow rows size)
  | spanOutOfRange (row offset length childRows : Nat) :
      OfData (.spanOutOfRange row offset length childRows)
  | unionTag (tag row alternatives : Nat) : OfData (.unionTag tag row alternatives)

/-- The types of the child vectors. -/
def LogicalType.childTypes : LogicalType → List LogicalType
  | list child | array child _ => [child]
  | map key value => [entry key value]
  | type => type.memberTypes

theorem LogicalType.childTypes_element {type child : LogicalType}
    (part : type.element? = some child) : type.childTypes = [child] := by
  cases type with
  | list _ | array _ _ => cases part; rfl
  | _ => cases part

namespace Column

variable {c d : Column}

theorem child_type (h : c.child = .ok d) : c.type.childTypes[0]? = some d.type := by
  obtain ⟨type, valid⟩ := c
  cases type with
  | list _ | array _ _ | map _ _ => cases h; rfl
  | _ => cases h

theorem child_element {child : LogicalType} (part : c.type.element? = some child) :
    ∃ d, c.child = .ok d ∧ d.type = child := by
  obtain ⟨type, valid⟩ := c
  cases type with
  | list _ | array _ _ => cases part; exact ⟨_, rfl, rfl⟩
  | _ => cases part

theorem child_map {key content : LogicalType} (h : c.type = .map key content) :
    ∃ d, c.child = .ok d ∧ d.type = .entry key content := by
  obtain ⟨type, valid⟩ := c
  cases h
  exact ⟨_, rfl, rfl⟩

theorem childTypes_members (h : c.kind = .struct ∨ c.kind = .union) :
    c.type.childTypes = c.type.memberTypes := by
  obtain ⟨type, valid⟩ := c
  cases type with
  | list _ | array _ _ | map _ _ => simp [kind, LogicalType.kind] at h
  | _ => rfl

theorem getElem?_members (c : Column) (index : Nat) :
    c.members[index]?.map Column.type = c.type.memberTypes[index]? := by
  rw [← List.getElem?_map]
  simp [members]

theorem member_eq_ok {index : Nat} (h : c.member index = .ok d) :
    (c.kind = .struct ∨ c.kind = .union) ∧ c.members[index]? = some d := by
  unfold member at h
  split at h
  · next hk =>
    split at h
    · next hm => cases h; exact ⟨.inl hk, hm⟩
    · cases h
  · next hk =>
    split at h
    · next hm => cases h; exact ⟨.inr hk, hm⟩
    · cases h
  · cases h

theorem member_type {index : Nat} (h : c.member index = .ok d) :
    c.type.childTypes[index]? = some d.type := by
  obtain ⟨hk, hm⟩ := member_eq_ok h
  rw [childTypes_members hk, ← getElem?_members, hm]
  rfl

theorem member_ok (hk : c.kind = .struct ∨ c.kind = .union) {index : Nat} {type : LogicalType}
    (h : c.type.memberTypes[index]? = some type) : ∃ d, c.member index = .ok d ∧ d.type = type := by
  rw [← getElem?_members, Option.map_eq_some_iff] at h
  obtain ⟨d, hd, rfl⟩ := h
  refine ⟨d, ?_, rfl⟩
  unfold member
  rcases hk with hk | hk <;> simp only [hk, hd]

end Column

/-- Position of the child vector that a step goes to. -/
def ViewStep.position : ViewStep → Nat
  | list | array => 0
  | member index => index

namespace ColumnView

variable {view child : ColumnView} {s : ViewStep}

/-- Rows of the view that a step opens. -/
def stepRows (view : ColumnView) : ViewStep → Nat
  | .list => view.native.childRows
  | .array => view.rows * view.column.arraySize?.getD 0
  | .member _ => view.rows

/-- What is known of the view that a step has opened. -/
structure Opens (view : ColumnView) (s : ViewStep) (child : ColumnView) : Prop where
  native : view.native.children[s.position]? = some child.native
  type : view.column.type.childTypes[s.position]? = some child.column.type
  rows : child.rows = view.stepRows s
  covered : child.rows ≤ child.native.rows

/-- The opened view has the declared type. -/
theorem Opens.column_type (h : view.Opens s child) {type : LogicalType}
    (declared : view.column.type.childTypes[s.position]? = some type) : child.column.type = type :=
  Option.some.inj (h.type.symm.trans declared)

theorem firstRows_inv {native : NativeVector} {column : Column} {rows : Nat}
    {path : List ViewStep} (h : firstRows native column rows path = .ok view) :
    rows ≤ native.rows ∧ view = ⟨column, rows, native, path⟩ := by
  unfold firstRows at h
  split at h
  · cases h
  · next hr => cases h; exact ⟨Nat.le_of_not_lt hr, rfl⟩

theorem listChild_eq_ok {v c : NativeVector} {rows : Nat} (h : v.listChild = .ok (c, rows)) :
    v.children[0]? = some c ∧ rows = v.childRows := by
  unfold NativeVector.listChild at h
  split at h
  · next hc => cases h; simp [hc]
  · next hc => cases h; simp [hc]
  · cases h

theorem arrayChild_eq_ok {v c : NativeVector} (h : v.arrayChild = .ok c) :
    v.children[0]? = some c := by
  unfold NativeVector.arrayChild at h
  split at h
  · next hc => cases h; simp [hc]
  · cases h

theorem nativeMember_eq_ok {v c : NativeVector} {index : Nat} (h : v.member index = .ok c) :
    v.children[index]? = some c := by
  unfold NativeVector.member at h
  split at h
  · split at h
    · next hc => cases h; exact hc
    · cases h
  · split at h
    · next hc => cases h; exact hc
    · cases h
  · cases h

theorem arrayChildren_eq_ok (h : view.arrayChildren = .ok child) :
    ∃ part size, view.column.type = .array part size ∧ view.rows * size < sizeModulus := by
  unfold arrayChildren Column.arraySize? at h
  split at h
  · cases h
  · next size hs =>
    split at hs
    · next part size' ht =>
      cases hs
      split at h
      · cases h
      · next small => exact ⟨part, size, ht, Nat.lt_of_not_le small⟩
    · cases hs

theorem opens_of_step (h : view.step s = .ok child) : view.Opens s child := by
  cases s with
  | list =>
    obtain ⟨⟨native, rows⟩, hn, h⟩ := Result.bind_eq_ok.mp h
    obtain ⟨column, hc, h⟩ := Result.bind_eq_ok.mp h
    obtain ⟨hrows, rfl⟩ := firstRows_inv h
    obtain ⟨hv, rfl⟩ := listChild_eq_ok hn
    exact ⟨hv, Column.child_type hc, rfl, hrows⟩
  | array =>
    change view.arrayChildren = .ok child at h
    unfold arrayChildren at h
    split at h
    · cases h
    · next size hs =>
      split at h
      · cases h
      · obtain ⟨native, hn, h⟩ := Result.bind_eq_ok.mp h
        obtain ⟨column, hc, h⟩ := Result.bind_eq_ok.mp h
        obtain ⟨hrows, rfl⟩ := firstRows_inv h
        exact ⟨arrayChild_eq_ok hn, Column.child_type hc, by simp [stepRows, hs], hrows⟩
  | member index =>
    obtain ⟨column, hc, h⟩ := Result.bind_eq_ok.mp h
    obtain ⟨native, hn, h⟩ := Result.bind_eq_ok.mp h
    obtain ⟨hrows, rfl⟩ := firstRows_inv h
    exact ⟨nativeMember_eq_ok hn, Column.member_type hc, rfl, hrows⟩

theorem elements_type {part : LogicalType} (hp : view.column.type.element? = some part)
    {size? : Option Nat} (h : Binder.elements view size? = .ok child) :
    child.column.type = part := by
  have declared : view.column.type.childTypes[0]? = some part := by
    rw [LogicalType.childTypes_element hp]
    rfl
  cases size? with
  | none => exact (opens_of_step (s := .list) h).column_type declared
  | some size => exact (opens_of_step (s := .array) h).column_type declared

theorem entries_type {key content : LogicalType} (ht : view.column.type = .map key content)
    (h : view.listChildren = .ok child) : child.column.type = .entry key content :=
  (opens_of_step (s := .list) h).column_type (by rw [ht]; rfl)

/-- A step opens views of one column on views of one column. -/
theorem column_of_step {other child' : ColumnView} (hc : other.column = view.column)
    (hs : view.step s = .ok child) (hs' : other.step s = .ok child') :
    child'.column = child.column := by
  have declared := (opens_of_step hs).type
  rw [← hc] at declared
  exact Column.ext ((opens_of_step hs').column_type declared)

/-- The elements of an ARRAY were counted in 64 bits. -/
theorem arrayChildren_rows {part : LogicalType} {size : Nat}
    (ht : view.column.type = .array part size) (h : view.arrayChildren = .ok child) :
    child.rows = view.rows * size ∧ view.rows * size < sizeModulus := by
  obtain ⟨part', size', ht', small⟩ := arrayChildren_eq_ok h
  obtain ⟨-, rfl⟩ := LogicalType.array.inj (ht.symm.trans ht')
  refine ⟨?_, small⟩
  rw [(opens_of_step (s := .array) h).rows]
  simp [stepRows, Column.arraySize?, ht]

section Opening

variable {P : Error → Prop} (data : ∀ fault, NativeFault.OfData fault → P (.native fault))
include data

theorem firstRows_failsOnly (native : NativeVector) (column : Column) (rows : Nat)
    (path : List ViewStep) : FailsOnly P (firstRows native column rows path) := by
  unfold firstRows
  split
  · exact .error (data _ (.tooFewRows _ _ _))
  · exact .ok _

theorem listChildren_failsOnly (declared : ∃ d, view.column.child = .ok d)
    (native : FailsOnly P view.native.listChild) : FailsOnly P view.listChildren := by
  obtain ⟨d, hd⟩ := declared
  unfold listChildren
  apply native.bind
  rintro ⟨child, rows⟩ -
  simp only [hd, Result.ok_bind]
  exact firstRows_failsOnly data _ _ _ _

theorem arrayChildren_failsOnly {size : Nat} (hs : view.column.arraySize? = some size)
    (declared : ∃ d, view.column.child = .ok d) (native : FailsOnly P view.native.arrayChild) :
    FailsOnly P view.arrayChildren := by
  obtain ⟨d, hd⟩ := declared
  unfold arrayChildren
  rw [hs]
  simp only
  split
  · exact .error (data _ (.arrayOverflow _ _))
  · apply native.bind
    intro child _
    rw [hd, Result.ok_bind]
    exact firstRows_failsOnly data _ _ _ _

theorem member_failsOnly {index : Nat} (declared : ∃ d, view.column.member index = .ok d)
    (native : FailsOnly P (view.native.member index)) : FailsOnly P (view.member index) := by
  obtain ⟨d, hd⟩ := declared
  unfold member
  rw [hd, Result.ok_bind]
  apply native.bind
  intro child _
  exact firstRows_failsOnly data _ _ _ _

end Opening

theorem unreadable_of_loaded {α : Type} {x : Option α} {e : Error} (h : loaded x = .error e) :
    e = .unreadable := by
  cases x with
  | none => cases h; rfl
  | some a => cases h

theorem isValid_eq_ok {row : Nat} {valid : Bool}
    (h : view.isValid row = .ok valid) :
    row < view.rows ∧ view.native.bit? row = some valid := by
  obtain ⟨_, hi, h⟩ := Result.bind_eq_ok.mp h
  unfold checkIndex at hi
  split at hi
  · next hr =>
    refine ⟨hr, ?_⟩
    cases hb : view.native.bit? row with
    | none => rw [hb] at h; cases h
    | some b => rw [hb] at h; cases h; rfl
  · cases hi

theorem isValid_inside {row : Nat} (inside : row < view.rows) :
    view.isValid row = loaded (view.native.bit? row) := by
  rw [isValid, checkIndex, if_pos inside, Result.ok_bind]

theorem isValid_of_bit {row : Nat} (inside : row < view.rows) {valid : Bool}
    (bit : view.native.bit? row = some valid) : view.isValid row = .ok valid := by
  rw [isValid_inside inside, bit]
  rfl

theorem isValid_eq_error {row : Nat} {e : Error}
    (h : view.isValid row = .error e) :
    (view.rows ≤ row ∧ e = .indexOutOfRange row view.rows) ∨
      (row < view.rows ∧ view.native.bit? row = none ∧ e = .unreadable) := by
  unfold isValid checkIndex at h
  split at h
  · next hr =>
    cases hb : view.native.bit? row with
    | none => rw [hb] at h; cases h; exact .inr ⟨hr, rfl, rfl⟩
    | some b => rw [hb] at h; cases h
  · next hr => cases h; exact .inl ⟨Nat.le_of_not_lt hr, rfl⟩

end ColumnView

/-- The reader of a view, made for it unless it is closed. -/
def Reading.on {α : Type} (reading : Reading α) (view : ColumnView) : Result (Reader α) :=
  match reading with
  | .closed read => .ok read
  | .unbound bind => bind view

theorem Reading.on_map {α β : Type} (reading : Reading α) (f : α → Result β) (view : ColumnView) :
    (reading.map f).on view = (reading.on view).map (Reader.map f) := by
  cases reading <;> rfl

namespace Converter

variable {α : Type} {plan conv : Converter α} {view : ColumnView} {P : Error → Prop}

/-- The plan with a reader made for a view. -/
def withReader (plan : Converter α) (read : Reader α) : Converter α :=
  { plan with reading := .closed read }

theorem checkSource_eq_ok (h : plan.checkSource view = .ok ()) :
    view.column.kind = plan.kind ∧ view.column.storage = plan.storage := by
  unfold checkSource at h
  split at h
  · next source => exact source
  · cases h

theorem prepare_eq (hs : plan.checkSource view = .ok ()) :
    plan.prepare view = (plan.reading.on view).map plan.withReader := by
  obtain ⟨target, kind, storage, policy, reading⟩ := plan
  cases reading with
  | closed read => rfl
  | unbound bind =>
    simp only [prepare, isBound, bindTo, hs, Reading.on]
    cases bind view <;> rfl

theorem prepare_eq_ok (h : plan.prepare view = .ok conv) :
    ∃ read, plan.reading.on view = .ok read ∧ conv = plan.withReader read := by
  obtain ⟨target, kind, storage, policy, reading⟩ := plan
  cases reading with
  | closed read => cases h; exact ⟨read, rfl, rfl⟩
  | unbound bind =>
    simp only [prepare, isBound, bindTo] at h
    obtain ⟨_, -, h⟩ := Result.bind_eq_ok.mp h
    obtain ⟨read, hb, h⟩ := Result.bind_eq_ok.mp h
    cases h
    exact ⟨read, hb, rfl⟩

theorem tryConvert_withReader (plan : Converter α) (read : Reader α) (view : ColumnView)
    (row : Nat) : (plan.withReader read).tryConvert view row = (do
      plan.checkSource view
      if ← view.isValid row then (read view row).map some else .ok none) := rfl

/-- A row that holds a value is read. -/
theorem tryConvert_valid (source : plan.checkSource view = .ok ()) (read : Reader α) {row : Nat}
    (valid : view.isValid row = .ok true) :
    (plan.withReader read).tryConvert view row = (read view row).map some := by
  rw [tryConvert_withReader, source, valid]
  rfl

theorem convert_valid {c : Target} {plan : Converter c} (source : plan.checkSource view = .ok ())
    (read : Reader c.Host) {row : Nat} (valid : view.isValid row = .ok true) (require : Bool) :
    (plan.withReader read).convert view row require = read view row := by
  rw [convert, tryConvert_valid source read valid]
  cases read view row <;> rfl

/-- The errors of a read: those of the source check, of the row, of the memory, and of the reader
for a row that holds a value. -/
theorem tryConvert_failsOnly {read : Reader α} {row : Nat}
    (source : FailsOnly P (plan.checkSource view))
    (outside : view.rows ≤ row → P (.indexOutOfRange row view.rows))
    (memory : row < view.rows → view.native.bit? row = none → P .unreadable)
    (reads : plan.checkSource view = .ok () → row < view.rows → view.native.bit? row = some true →
      FailsOnly P (read view row)) :
    FailsOnly P ((plan.withReader read).tryConvert view row) := by
  apply source.bind
  intro _ hs
  apply FailsOnly.bind
  · intro e he
    rcases ColumnView.isValid_eq_error he with ⟨hr, rfl⟩ | ⟨hr, hb, rfl⟩
    · exact outside hr
    · exact memory hr hb
  · intro valid hv
    obtain ⟨hr, hb⟩ := ColumnView.isValid_eq_ok hv
    cases valid with
    | false => exact .ok none
    | true => exact (reads hs hr hb).map some

theorem convert_failsOnly {c : Target} {conv : Converter c} {row : Nat}
    (h : FailsOnly P (conv.tryConvert view row)) (null : P (.nullViolation row conv.target))
    (require : Bool) :
    FailsOnly P (conv.convert view row require) := by
  apply h.bind
  intro x _
  cases x with
  | some x => exact .ok x
  | none =>
    simp only
    split
    · exact .error null
    · exact .ok _

end Converter

namespace Binder

variable {c k v : Target} {α : Type} {view : ColumnView} {P : Error → Prop}

/-- A bound row of a LIST or ARRAY. -/
def readElements (element : Converter c) (children : ColumnView) (size? : Option Nat)
    (finish : List c.Host → α) : Reader α := fun view row => do
  let items ← mapChildren view row size? children.rows fun child =>
    element.convert children child true
  return finish items

theorem list_eq_ok {element : Converter c} {size? : Option Nat} {finish : List c.Host → α}
    {read : Reader α} (h : list element size? finish view = .ok read) :
    ∃ children conv, elements view size? = .ok children ∧ element.prepare children = .ok conv ∧
      read = readElements conv children size? finish := by
  obtain ⟨children, hc, h⟩ := Result.bind_eq_ok.mp h
  obtain ⟨conv, hp, h⟩ := Result.bind_eq_ok.mp h
  cases h
  exact ⟨children, conv, hc, hp, rfl⟩

/-- A bound row of a MAP. -/
def readPairs (keys : Converter k) (keyView : ColumnView) (contents : Converter v)
    (contentView : ColumnView) (finish : List (k.Host × v.Host) → α) : Reader α :=
  fun view row => do
    let pairs ← mapChildren view row none keyView.rows fun entry => do
      let a ← keys.convert keyView entry true
      let b ← contents.convert contentView entry true
      return (a, b)
    return finish pairs

theorem map_eq_ok {keys : Converter k} {contents : Converter v}
    {finish : List (k.Host × v.Host) → α} {read : Reader α}
    (h : map keys contents finish view = .ok read) :
    ∃ entries keyView contentView keyConv contentConv, view.listChildren = .ok entries ∧
      entries.member 0 = .ok keyView ∧ entries.member 1 = .ok contentView ∧
      keys.prepare keyView = .ok keyConv ∧ contents.prepare contentView = .ok contentConv ∧
      read = readPairs keyConv keyView contentConv contentView finish := by
  obtain ⟨entries, he, h⟩ := Result.bind_eq_ok.mp h
  obtain ⟨keyView, hk, h⟩ := Result.bind_eq_ok.mp h
  obtain ⟨contentView, hw, h⟩ := Result.bind_eq_ok.mp h
  obtain ⟨keyConv, hkp, h⟩ := Result.bind_eq_ok.mp h
  obtain ⟨contentConv, hwp, h⟩ := Result.bind_eq_ok.mp h
  cases h
  exact ⟨entries, keyView, contentView, keyConv, contentConv, he, hk, hw, hkp, hwp, rfl⟩

/-- Member `i` of the bound ones is that of plan `i`. -/
theorem members_eq_ok {index : Nat} {plans : List (Converter c)}
    {bound : List (Converter c × ColumnView)} (h : members view index plans = .ok bound) :
    bound.length = plans.length ∧ ∀ i b, bound[i]? = some b → ∃ plan, plans[i]? = some plan ∧
      view.member (index + i) = .ok b.2 ∧ plan.prepare b.2 = .ok b.1 := by
  induction plans generalizing index bound with
  | nil => cases h; simp
  | cons plan rest ih =>
    obtain ⟨member, hm, h⟩ := Result.bind_eq_ok.mp h
    obtain ⟨conv, hp, h⟩ := Result.bind_eq_ok.mp h
    obtain ⟨others, ho, h⟩ := Result.bind_eq_ok.mp h
    cases h
    obtain ⟨length, at'⟩ := ih ho
    refine ⟨congrArg Nat.succ length, ?_⟩
    intro i b hb
    cases i with
    | zero =>
      cases hb
      exact ⟨plan, rfl, hm, hp⟩
    | succ i =>
      obtain ⟨other, hother, hview, hprep⟩ := at' i b hb
      exact ⟨other, hother, by rwa [Nat.add_right_comm] at hview, hprep⟩

/-- A plan of a list of plans, with the part of the type that it is for. -/
theorem part_of_plan {β : Type} {R : β → Converter c → Prop} {parts : List β}
    {plans : List (Converter c)} (h : List.Forall₂ R parts plans) {i : Nat} {plan : Converter c}
    (hp : plans[i]? = some plan) :
    ∃ part, parts[i]? = some part ∧ R part plan ∧ (part, plan) ∈ parts.zip plans := by
  obtain ⟨length, related⟩ := List.forall₂_iff_zip.mp h
  have inside : i < parts.length := by
    rw [length]
    exact (List.getElem?_eq_some_iff.mp hp).1
  have hz : (parts.zip plans)[i]? = some (parts[i], plan) :=
    List.getElem?_zip_eq_some.mpr ⟨List.getElem?_eq_getElem inside, hp⟩
  have hm := List.mem_of_getElem? hz
  exact ⟨parts[i], List.getElem?_eq_getElem inside, related hm, hm⟩

theorem members_failsOnly {index : Nat} {plans : List (Converter c)}
    (h : ∀ i plan, plans[i]? = some plan → FailsOnly P (view.member (index + i)) ∧
      ∀ member, view.member (index + i) = .ok member → FailsOnly P (plan.prepare member)) :
    FailsOnly P (members view index plans) := by
  induction plans generalizing index with
  | nil => exact .ok []
  | cons plan rest ih =>
    obtain ⟨opens, prepares⟩ := h 0 plan rfl
    apply opens.bind
    intro member hm
    apply (prepares member hm).bind
    intro conv _
    apply FailsOnly.bind
    · apply ih
      intro i other ho
      have later := h (i + 1) other ho
      rwa [← Nat.add_assoc, Nat.add_right_comm] at later
    · intro others _
      exact .ok _

/-- A bound row of a STRUCT. -/
def readMembers (names : List String) (bound : List (Converter Target.value × ColumnView)) :
    Reader (List (String × Value)) := fun _ row => do
  let values ← bound.mapM fun (plan, member) => plan.convert member row false
  return names.zip values

theorem readMembers_eq (names : List String) (bound : List (Converter Target.value × ColumnView))
    (view : ColumnView) (row : Nat) : readMembers names bound view row = (do
      let values ← (bound.map fun b => b.1.convert b.2 row false).mapM id
      return names.zip values) := by
  rw [List.mapM_map]
  rfl

theorem struct_eq_ok {names : List String} {plans : List (Converter Target.value)}
    {read : Reader (List (String × Value))} (h : struct names plans view = .ok read) :
    ∃ bound, members view 0 plans = .ok bound ∧ read = readMembers names bound := by
  obtain ⟨bound, hb, h⟩ := Result.bind_eq_ok.mp h
  cases h
  exact ⟨bound, hb, rfl⟩

/-- A bound row of a UNION. -/
def readAlternative (tag : Converter (Target.int .u8)) (tags : ColumnView)
    (bound : List (Converter Target.value × ColumnView)) : Reader Value := fun _ row => do
  let n ← tag.convert tags row true
  match bound[n.val.toNat]? with
  | some (plan, member) => plan.convert member row false
  | none => .error (.native (.unionTag n.val.toNat row bound.length))

theorem union_eq_ok {plans : List (Converter Target.value)} {read : Reader Value}
    (h : union LogicalType.tagPlan plans view = .ok read) :
    ∃ tags bound, view.member 0 = .ok tags ∧ members view 1 plans = .ok bound ∧
      read = readAlternative LogicalType.tagPlan tags bound := by
  obtain ⟨tags, ht, h⟩ := Result.bind_eq_ok.mp h
  obtain ⟨bound, hb, h⟩ := Result.bind_eq_ok.mp h
  cases h
  exact ⟨tags, bound, ht, hb, rfl⟩

/-- The rows of an ARRAY whose child rows 64 bits count have their child rows one after another. -/
theorem entryOf_array (view : ColumnView) {row rows size : Nat} (hr : row < rows)
    (room : rows * size < sizeModulus) :
    entryOf view row (some size) = .ok (row * size, size) ∧ row * size + size ≤ rows * size := by
  have last : row * size + size ≤ rows * size := by
    calc row * size + size = (row + 1) * size := (Nat.succ_mul row size).symm
      _ ≤ rows * size := Nat.mul_le_mul_right size hr
  exact ⟨if_pos (by omega), last⟩

/-- What happens to the child rows of a row is that they are read, or that the row's entry is not
readable or goes past them. -/
theorem mapChildren_failsOnly {size? : Option Nat} {row childRows : Nat} {f : Nat → Result α}
    (entry : FailsOnly P (entryOf view row size?))
    (data : ∀ fault, NativeFault.OfData fault → P (.native fault))
    (h : ∀ j < childRows, FailsOnly P (f j)) :
    FailsOnly P (mapChildren view row size? childRows f) := by
  apply FailsOnly.bind
  · apply entry.bind
    rintro ⟨offset, length⟩ -
    simp only
    split
    · exact .ok _
    · exact .error (data _ (.spanOutOfRange _ _ _ _))
  · rintro ⟨start, stop⟩ hs
    obtain ⟨⟨offset, length⟩, -, hs⟩ := Result.bind_eq_ok.mp hs
    simp only at hs
    split at hs
    · next inside =>
      cases hs
      apply FailsOnly.mapM
      intro j hj
      rw [List.mem_range'_1] at hj
      exact h j (by omega)
    · cases hs

end Binder
end TypedColumns
