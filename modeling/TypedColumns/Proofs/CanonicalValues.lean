import TypedColumns.Native.Encode
import TypedColumns.Proofs.BoxedReading

/-!
Canonical values of a type: those that its rows stand for. A UNION value names the alternative that
it is of; reading gives the chosen value without the name, so the values that are read back are the
canonical ones with every UNION value replaced by what it chooses.
-/
namespace TypedColumns

namespace LogicalType

/-- Some row of a column of the type reads as the value. -/
def Readable (type : LogicalType) (x : Value) : Prop :=
  ∃ (view : ColumnView) (plan : Converter Target.value) (row : Nat), view.column.type = type ∧
    view.column.resolveBoxed = .ok plan ∧ view.isValid row = .ok true ∧
    plan.convert view row true = .ok x

mutual

/-- Null is a value of every type. The name in a UNION value is that of an alternative, and the
first one of the name decides. -/
def Canonical : LogicalType → Value → Prop
  | .scalar .null, v => v = .null
  | .list child, v => v = .null ∨ ∃ items, v = .list items ∧ ∀ item ∈ items, Canonical child item
  | .array child size, v => v = .null ∨ ∃ items, v = .list items ∧ items.length = size ∧
      ∀ item ∈ items, Canonical child item
  | .struct members, v => v = .null ∨ ∃ values, v = .struct values ∧
      CanonicalMembers members values
  | .map key content, v => v = .null ∨ ∃ entries, v = .map entries ∧
      ∀ entry ∈ entries, Canonical key entry.1 ∧ Canonical content entry.2
  | .union alternatives, v => v = .null ∨ ∃ name x, v = .struct [(name, x)] ∧
      CanonicalChoice alternatives name x
  | type, v => v = .null ∨ Readable type v

def CanonicalMembers : List (String × LogicalType) → List (String × Value) → Prop
  | [], [] => True
  | (name, type) :: rest, (name', v) :: values =>
    name' = name ∧ Canonical type v ∧ CanonicalMembers rest values
  | _, _ => False

def CanonicalChoice : List (String × LogicalType) → (name : String) → Value → Prop
  | [], _, _ => False
  | (name', type) :: rest, name, x =>
    if name' = name then Canonical type x else CanonicalChoice rest name x

end

mutual

/-- The value with every UNION value in it replaced by the value that it chooses. -/
def chosen : LogicalType → Value → Value
  | .list child, .list items => .list (items.map (chosen child))
  | .array child _, .list items => .list (items.map (chosen child))
  | .struct members, .struct values => .struct (chosenMembers members values)
  | .map key content, .map entries =>
    .map (entries.map fun entry => (chosen key entry.1, chosen content entry.2))
  | .union alternatives, .struct [(name, x)] => chosenAlternative alternatives name x
  | _, v => v

def chosenMembers : List (String × LogicalType) → List (String × Value) → List (String × Value)
  | (_, type) :: rest, (name, v) :: values => (name, chosen type v) :: chosenMembers rest values
  | _, values => values

def chosenAlternative : List (String × LogicalType) → (name : String) → Value → Value
  | [], _, x => x
  | (name', type) :: rest, name, x =>
    if name' = name then chosen type x else chosenAlternative rest name x

end

mutual

/-- There is no UNION in the type. -/
def isUnionFree : LogicalType → Bool
  | .list child | .array child _ => child.isUnionFree
  | .struct members => areUnionFree members
  | .map key content => key.isUnionFree && content.isUnionFree
  | .union _ => false
  | _ => true

def areUnionFree : List (String × LogicalType) → Bool
  | [] => true
  | (_, type) :: rest => type.isUnionFree && areUnionFree rest

end

/-- The elements that a LIST row has in the child. -/
def elements (v : Value) : List Value := v.items?.getD []

/-- The elements that an ARRAY row has in the child, missing ones for a missing row. -/
def arrayElements (size : Nat) : Value → List Value
  | .list items => items
  | _ => List.replicate size .null

def entries (v : Value) : List (Value × Value) := v.entries?.getD []

/-- The values that a STRUCT row has in the members. -/
def memberCells (count : Nat) : Value → List Value
  | .struct values => values.map Prod.snd
  | _ => List.replicate count .null

/-- The values that a UNION row has in the alternatives, all missing but the chosen one. -/
def alternativeCells (names : List String) : Value → List Value
  | .struct [(name, x)] => (List.replicate names.length .null).set (names.idxOf name) x
  | _ => List.replicate names.length .null

def alternativeTag (names : List String) : Value → Value
  | .struct [(name, _)] => .int .u8 (.wrap .u8 (names.idxOf name))
  | _ => .null

mutual

/-- The column has room for the rows: no payload has 4 GiB, and what the vectors below hold is
counted in 64 bits. -/
def Fits : LogicalType → (rows : List Value) → Prop
  | .list child, rows => (rows.map elements).flatten.length < sizeModulus ∧
      Fits child (rows.map elements).flatten
  | .array child size, rows => rows.length * size < sizeModulus ∧
      Fits child (rows.map (arrayElements size)).flatten
  | .struct members, rows => FitAll members (rows.map (memberCells members.length))
  | .map key content, rows => (rows.map entries).flatten.length < sizeModulus ∧
      Fits key ((rows.map entries).flatten.map Prod.fst) ∧
      Fits content ((rows.map entries).flatten.map Prod.snd)
  | .union alternatives, rows => rows.length < sizeModulus ∧
      FitAll alternatives (rows.map (alternativeCells (alternatives.map Prod.fst)))
  | type, rows => rows.length * type.storage.slotWidth?.getD 0 < sizeModulus ∧
      ∀ v ∈ rows, ∀ payload, type.payloadOf v = .ok payload → payload.length < 0x100000000

/-- For the members, whose values stand in one row of cells after another. -/
def FitAll : List (String × LogicalType) → (cells : List (List Value)) → Prop
  | [], _ => True
  | (_, type) :: rest, cells =>
    Fits type (cells.map fun row => row.headD .null) ∧ FitAll rest (cells.map List.tail)

end

theorem canonical_null (type : LogicalType) : Canonical type .null := by
  cases type with
  | scalar kind => cases kind <;> first | exact rfl | exact .inl rfl
  | _ => exact .inl rfl

theorem isUnionFree_of_mem {members : List (String × LogicalType)} (h : areUnionFree members)
    {m : String × LogicalType} (hm : m ∈ members) : m.2.isUnionFree := by
  induction members with
  | nil => simp at hm
  | cons first rest ih =>
    simp only [areUnionFree, Bool.and_eq_true] at h
    rcases List.mem_cons.mp hm with rfl | hm
    · exact h.1
    · exact ih h.2 hm

theorem chosenMembers_eq_self {members : List (String × LogicalType)}
    (h : ∀ m ∈ members, ∀ v, chosen m.2 v = v) (values : List (String × Value)) :
    chosenMembers members values = values := by
  induction members generalizing values with
  | nil => rfl
  | cons first rest ih =>
    cases values with
    | nil => rfl
    | cons value values =>
      rw [chosenMembers, h first List.mem_cons_self,
        ih fun m hm => h m (List.mem_cons_of_mem _ hm)]

/-- Where there is no UNION nothing is chosen. -/
theorem chosen_eq_self {type : LogicalType} (free : type.isUnionFree) (v : Value) :
    chosen type v = v := by
  induction type using induction_on_members generalizing v with
  | list child ih =>
    cases v with
    | list items => rw [chosen, List.map_congr_left (fun item _ => ih free item), List.map_id']
    | _ => rfl
  | array child size ih =>
    cases v with
    | list items => rw [chosen, List.map_congr_left (fun item _ => ih free item), List.map_id']
    | _ => rfl
  | struct members ih =>
    cases v with
    | struct values =>
      rw [chosen, chosenMembers_eq_self fun m hm => ih m hm (isUnionFree_of_mem free hm)]
    | _ => rfl
  | map key content ihk ihw =>
    simp only [isUnionFree, Bool.and_eq_true] at free
    cases v with
    | map entries =>
      rw [chosen, List.map_congr_left (fun entry _ => congrArg₂ Prod.mk (ihk free.1 entry.1)
        (ihw free.2 entry.2)), List.map_id']
    | _ => rfl
  | union alternatives ih => simp [isUnionFree] at free
  | _ => cases v <;> rfl

section Leaf

variable {type : LogicalType} (leaf : type.kind.isNested = false)
include leaf

theorem readable_of_canonical {v : Value} (h : Canonical type v) : v = .null ∨ Readable type v := by
  cases type with
  | scalar kind => cases kind <;> first | exact h | exact .inl h
  | decimal width scale => exact h
  | enum dictionary => exact h
  | _ => simp [kind, Kind.isNested] at leaf

theorem chosen_leaf (v : Value) : chosen type v = v := by
  cases type with
  | list _ | array _ _ | struct _ | map _ _ | union _ => simp [kind, Kind.isNested] at leaf
  | _ => cases v <;> rfl

theorem map_chosen_leaf (rows : List Value) : rows.map (chosen type) = rows := by
  rw [funext (chosen_leaf leaf), List.map_id']

theorem fits_leaf {rows : List Value} (h : Fits type rows) :
    rows.length * type.storage.slotWidth?.getD 0 < sizeModulus ∧
      ∀ v ∈ rows, ∀ payload, type.payloadOf v = .ok payload → payload.length < 0x100000000 := by
  cases type with
  | list _ | array _ _ | struct _ | map _ _ | union _ => simp [kind, Kind.isNested] at leaf
  | _ => exact h

theorem leafAt_of_readable (valid : type.check = .ok ()) {x : Value} (h : Readable type x) :
    ∃ (v : NativeVector) (row : Nat), v.leafAt type row = .ok x := by
  obtain ⟨view, plan, row, hc, hp, hv, hx⟩ := h
  obtain ⟨read, hr⟩ := boxed?_isSome valid leaf
  obtain ⟨hrow, hbit⟩ := ColumnView.isValid_eq_ok hv
  unfold Column.resolveBoxed at hp
  rw [hc, boxedPlan_leaf leaf hr] at hp
  cases hp
  refine ⟨view.native, row, ?_⟩
  rw [Converter.convert_boxed _ rfl rfl rfl rfl hc hrow, NativeVector.whenPresent, hbit] at hx
  rw [← Reader.boxed?_eq_leafAt hr hc row]
  exact hx

/-- A canonical value that is not null has been read somewhere. -/
theorem leafAt_of_canonical (valid : type.check = .ok ()) {x : Value} (h : Canonical type x) :
    x = .null ∨ ∃ (v : NativeVector) (row : Nat), v.leafAt type row = .ok x := by
  rcases readable_of_canonical leaf h with missing | readable
  · exact .inl missing
  · exact .inr (leafAt_of_readable leaf valid readable)

end Leaf

/-- One canonical value for each member. -/
def CanonicalCells (members : List (String × LogicalType)) (cells : List Value) : Prop :=
  List.Forall₂ (fun m x => Canonical m.2 x) members cells

def chosenCells (members : List (String × LogicalType)) (cells : List Value) : List Value :=
  List.zipWith (fun m x => chosen m.2 x) members cells

section Cells

variable {members : List (String × LogicalType)}

/-- The cell of the first member, and those of the others. -/
theorem CanonicalCells.split {m : String × LogicalType} {cells : List Value}
    (h : CanonicalCells (m :: members) cells) :
    ∃ x others, cells = x :: others ∧ Canonical m.2 x ∧ CanonicalCells members others ∧
      chosenCells (m :: members) cells = chosen m.2 x :: chosenCells members others := by
  cases h with
  | cons hx others => exact ⟨_, _, rfl, hx, others, rfl⟩

theorem canonicalCells_missing (members : List (String × LogicalType)) :
    CanonicalCells members (List.replicate members.length .null) := by
  induction members with
  | nil => exact .nil
  | cons m rest ih => exact .cons (canonical_null m.2) ih

theorem canonicalCells_set {tag : Nat} {m : String × LogicalType} (hm : members[tag]? = some m)
    {x : Value} (hx : Canonical m.2 x) :
    CanonicalCells members ((List.replicate members.length .null).set tag x) := by
  induction members generalizing tag with
  | nil => simp at hm
  | cons first rest ih =>
    cases tag with
    | zero =>
      obtain rfl : first = m := by simpa using hm
      exact .cons hx (canonicalCells_missing rest)
    | succ tag => exact .cons (canonical_null first.2) (ih (by simpa using hm))

theorem CanonicalMembers.cells {values : List (String × Value)} (h : CanonicalMembers members values) :
    CanonicalCells members (values.map Prod.snd) := by
  induction members generalizing values with
  | nil =>
    cases values with
    | nil => exact .nil
    | cons v values => exact h.elim
  | cons m rest ih =>
    cases values with
    | nil => exact h.elim
    | cons v values => exact .cons h.2.1 (ih h.2.2)

theorem CanonicalMembers.chosen {values : List (String × Value)}
    (h : CanonicalMembers members values) : chosenMembers members values =
      (members.map Prod.fst).zip (chosenCells members (values.map Prod.snd)) := by
  induction members generalizing values with
  | nil =>
    cases values with
    | nil => rfl
    | cons v values => exact h.elim
  | cons m rest ih =>
    cases values with
    | nil => exact h.elim
    | cons v values =>
      obtain ⟨hn, -, hr⟩ := h
      rw [chosenMembers, ih hr, hn]
      rfl

theorem canonicalCells_struct {v : Value} (h : Canonical (.struct members) v) :
    CanonicalCells members (memberCells members.length v) := by
  rcases h with rfl | ⟨values, rfl, hv⟩
  · exact canonicalCells_missing members
  · exact hv.cells

theorem chosen_struct {v : Value} (h : Canonical (.struct members) v) (present : v.isNull = false) :
    chosen (.struct members) v = .struct ((members.map Prod.fst).zip
      (chosenCells members (memberCells members.length v))) := by
  rcases h with rfl | ⟨values, rfl, hv⟩
  · contradiction
  · exact congrArg Value.struct hv.chosen

/-- The first alternative of the name is the one that counts. -/
theorem CanonicalChoice.first {name : String} {x : Value} (h : CanonicalChoice members name x) :
    ∃ tag m, members[tag]? = some m ∧ (members.map Prod.fst).idxOf name = tag ∧
      (members.map Prod.fst).idxOf? name = some tag ∧ Canonical m.2 x ∧
      chosenAlternative members name x = LogicalType.chosen m.2 x := by
  induction members with
  | nil => exact h.elim
  | cons first rest ih =>
    rw [CanonicalChoice] at h
    by_cases same : first.1 = name
    · rw [if_pos same] at h
      refine ⟨0, first, rfl, ?_, ?_, h, ?_⟩
      · rw [List.map_cons, same, List.idxOf_cons_self]
      · rw [List.map_cons, List.idxOf?_cons, same, if_pos (beq_self_eq_true name)]
      · rw [chosenAlternative, if_pos same]
    · rw [if_neg same] at h
      obtain ⟨tag, m, hm, hi, hi', hx, hc⟩ := ih h
      have different : (first.1 == name) = false := beq_false_of_ne same
      refine ⟨tag + 1, m, by rwa [List.getElem?_cons_succ], ?_, ?_, hx, ?_⟩
      · rw [List.map_cons, List.idxOf_cons, different, hi]
        rfl
      · rw [List.map_cons, List.idxOf?_cons, different, hi']
        rfl
      · rw [chosenAlternative, if_neg same, hc]

theorem canonicalCells_union {v : Value} (h : Canonical (.union members) v) :
    CanonicalCells members (alternativeCells (members.map Prod.fst) v) := by
  have count : (members.map Prod.fst).length = members.length := List.length_map _
  rcases h with rfl | ⟨name, x, rfl, hx⟩
  · rw [alternativeCells, count]
    · exact canonicalCells_missing members
    · nofun
  · obtain ⟨tag, m, hm, hi, -, hx, -⟩ := hx.first
    rw [alternativeCells, count, hi]
    exact canonicalCells_set hm hx

end Cells

end LogicalType
end TypedColumns
