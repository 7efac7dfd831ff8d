import TypedColumns.Reader.Leaf

/-!
Boxed values read off a tree of vectors in one recursion over the type, without plans and views. The
tree has to have the children that its type declares, and enough rows in each of them for every row
above to be read.
-/
namespace TypedColumns.NativeVector

mutual

/-- The vector has the given type and so have the children below it. -/
def HasType : LogicalType → NativeVector → Prop
  | .list child, v => v.type = .list child ∧ ∃ c, v.children = [c] ∧ HasType child c
  | .array child size, v => v.type = .array child size ∧ ∃ c, v.children = [c] ∧ HasType child c
  | .struct members, v => v.type = .struct members ∧ HaveTypes members v.children
  | .map key content, v => v.type = .map key content ∧
      ∃ entries k w, v.children = [entries] ∧ entries.type = .entry key content ∧
        entries.children = [k, w] ∧ HasType key k ∧ HasType content w
  | .union alternatives, v => v.type = .union alternatives ∧
      ∃ tags vectors, v.children = tags :: vectors ∧ tags.type = .scalar (.int .u8) ∧
        HaveTypes alternatives vectors
  | type, v => v.type = type

def HaveTypes : List (String × LogicalType) → List NativeVector → Prop
  | [], [] => True
  | (_, type) :: rest, v :: vectors => HasType type v ∧ HaveTypes rest vectors
  | _, _ => False

end

mutual

/-- Every child has the rows that `rows` rows of the vector need. -/
def Covers : LogicalType → NativeVector → (rows : Nat) → Prop
  | .list child, v, _ =>
    ∃ c, v.children = [c] ∧ v.childRows ≤ c.rows ∧ Covers child c v.childRows
  | .array child size, v, rows => rows * size < sizeModulus ∧
      ∃ c, v.children = [c] ∧ rows * size ≤ c.rows ∧ Covers child c (rows * size)
  | .struct members, v, rows => CoverAll members v.children rows
  | .map key content, v, _ =>
    ∃ entries k w, v.children = [entries] ∧ entries.children = [k, w] ∧
      v.childRows ≤ entries.rows ∧ (v.childRows ≤ k.rows ∧ Covers key k v.childRows) ∧
      v.childRows ≤ w.rows ∧ Covers content w v.childRows
  | .union alternatives, v, rows =>
    ∃ tags vectors, v.children = tags :: vectors ∧ rows ≤ tags.rows ∧
      CoverAll alternatives vectors rows
  | _, _, _ => True

def CoverAll : List (String × LogicalType) → List NativeVector → (rows : Nat) → Prop
  | [], [], _ => True
  | (_, type) :: rest, v :: vectors, rows =>
    (rows ≤ v.rows ∧ Covers type v rows) ∧ CoverAll rest vectors rows
  | _, _, _ => False

end

/-- What `read` gives, where the row holds a value, and `missing` elsewhere. -/
def whenPresent {α : Type} (v : NativeVector) (row : Nat) (read missing : Result α) : Result α := do
  if ← ColumnView.loaded (v.bit? row) then read else missing

/-- The child rows of a LIST or MAP row. -/
def entryRows (v : NativeVector) (row : Nat) : Result (List Nat) := do
  let entry ← ColumnView.loaded (v.entry? row)
  let offset := entry.offset.val.toNat
  let length := entry.length.val.toNat
  if offset + length ≤ v.childRows then .ok (List.range' offset length)
  else .error (.native (.spanOutOfRange row offset length v.childRows))

/-- The tag of a UNION row, which must not be missing. -/
def tagAt (tags : NativeVector) (row : Nat) : Result Nat :=
  tags.whenPresent row
    ((ColumnView.loaded (tags.slot? 1 row)).map fun bytes => (Word.ofBytes .u8 bytes).val.toNat)
    (.error (.nullViolation row (.int .u8)))

/-- The value in the slot of a row that holds one. -/
def leafAt (type : LogicalType) (v : NativeVector) (row : Nat) : Result Value := do
  let column ← Column.ofType type
  match Reader.boxed? type with
  | some read => read ⟨column, v.rows, v, []⟩ row
  | none => .error (column.mismatch (.target .value))

mutual

/-- The value of a row that holds one. -/
def readPresent : LogicalType → NativeVector → (row : Nat) → Result Value
  | .list child, v, row => match v.children with
    | [c] => do
      let items ← (← v.entryRows row).mapM fun j =>
        c.whenPresent j (readPresent child c j) (.ok .null)
      return .list items
    | _ => .error (.native (.noListChild v.kind))
  | .array child size, v, row => match v.children with
    | [c] => do
      let items ← (List.range' (row * size) size).mapM fun j =>
        c.whenPresent j (readPresent child c j) (.ok .null)
      return .list items
    | _ => .error (.native (.noArrayChild v.kind))
  | .struct members, v, row => do
    let values ← (readMembers members v.children row).mapM id
    return .struct ((members.map Prod.fst).zip values)
  | .map key content, v, row => match v.children.map NativeVector.children with
    | [[k, w]] => do
      let entries ← (← v.entryRows row).mapM fun j => do
        let a ← k.whenPresent j (readPresent key k j) (.ok .null)
        let b ← w.whenPresent j (readPresent content w j) (.ok .null)
        return (a, b)
      return .map entries
    | _ => .error (.native (.noListChild v.kind))
  | .union alternatives, v, row => match v.children with
    | tags :: vectors => do
      let tag ← tags.tagAt row
      match (readMembers alternatives vectors row)[tag]? with
      | some alternative => alternative
      | none => .error (.native (.unionTag tag row alternatives.length))
    | [] => .error (.native (.memberOutOfRange 0 0))
  | type, v, row => leafAt type v row

/-- What each of the members reads at a row. -/
def readMembers : List (String × LogicalType) → List NativeVector → (row : Nat) →
    List (Result Value)
  | (_, type) :: rest, v :: vectors, row =>
    v.whenPresent row (readPresent type v row) (.ok .null) :: readMembers rest vectors row
  | _, _, _ => []

end

/-- The value of a row, null where the row holds none. -/
def read (type : LogicalType) (v : NativeVector) (row : Nat) : Result Value :=
  v.whenPresent row (readPresent type v row) (.ok .null)

theorem HasType.type_eq {type : LogicalType} {v : NativeVector} (h : HasType type v) :
    v.type = type := by
  cases type with
  | list _ | array _ _ | struct _ | map _ _ | union _ => exact h.1
  | _ => exact h

section Leaf

variable {type : LogicalType} (leaf : type.kind.isNested = false)
include leaf

theorem hasType_leaf {v : NativeVector} (h : v.type = type) : v.HasType type := by
  cases type with
  | list _ | array _ _ | struct _ | map _ _ | union _ =>
    simp [LogicalType.kind, Kind.isNested] at leaf
  | _ => exact h

theorem covers_leaf (v : NativeVector) (rows : Nat) : v.Covers type rows := by
  cases type with
  | list _ | array _ _ | struct _ | map _ _ | union _ =>
    simp [LogicalType.kind, Kind.isNested] at leaf
  | _ => trivial

theorem readPresent_leaf (v : NativeVector) (row : Nat) :
    v.readPresent type row = v.leafAt type row := by
  cases type with
  | list _ | array _ _ | struct _ | map _ _ | union _ =>
    simp [LogicalType.kind, Kind.isNested] at leaf
  | _ => rfl

end Leaf

end TypedColumns.NativeVector
