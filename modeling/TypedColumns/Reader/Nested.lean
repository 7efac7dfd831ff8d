import TypedColumns.Converter

/-!
Binders of columns with children. Binding fetches the children once and prepares the plans of the
elements for them; a read then looks up the row's span or tag and converts what it selects.
-/
namespace TypedColumns.Binder

variable {c k v : Target}

/-- The vector of the elements, those of an ARRAY with `size?` elements a row. -/
def elements (view : ColumnView) : (size? : Option Nat) → Result ColumnView
  | some _ => view.arrayChildren
  | none => view.listChildren

/-- First child row of a row and the count of its child rows. The child rows in front of a row of an
ARRAY are counted in 64 bits. -/
def entryOf (view : ColumnView) (row : Nat) : (size? : Option Nat) → Result (Nat × Nat)
  | some size =>
    if row * size < sizeModulus then .ok (row * size, size)
    else .error (.panic (.sizeOverflow row size))
  | none => (view.entryAt row).map fun entry => (entry.offset.val.toNat, entry.length.val.toNat)

/-- First child row of a row and one past its last one. -/
def childSpan (view : ColumnView) (row : Nat) (size? : Option Nat) (childRows : Nat) :
    Result (Nat × Nat) := do
  let (offset, length) ← entryOf view row size?
  if offset + length ≤ childRows then .ok (offset, offset + length)
  else .error (.native (.spanOutOfRange row offset length childRows))

/-- Rows `start` to `stop`, one after the other up to the first error. -/
def mapSpan {α : Type} (f : Nat → Result α) (start stop : Nat) : Result (List α) :=
  (List.range' start (stop - start)).mapM f

/-- The child rows of a row through `f`. -/
def mapChildren {α : Type} (view : ColumnView) (row : Nat) (size? : Option Nat) (childRows : Nat)
    (f : Nat → Result α) : Result (List α) := do
  let (start, stop) ← childSpan view row size? childRows
  mapSpan f start stop

/-- A LIST, or an ARRAY of `size?` elements a row; `finish` makes the result of the elements. -/
def list {α : Type} (element : Converter c) (size? : Option Nat) (finish : List c.Host → α) :
    Binder α := fun view => do
  let children ← elements view size?
  let element ← element.prepare children
  return fun view row => do
    let items ← mapChildren view row size? children.rows fun child =>
      element.convert children child true
    return finish items

/-- The pairs of a MAP, each key before its value. -/
def map {α : Type} (key : Converter k) (content : Converter v)
    (finish : List (k.Host × v.Host) → α) : Binder α := fun view => do
  let entries ← view.listChildren
  let keys ← entries.member 0
  let contents ← entries.member 1
  let key ← key.prepare keys
  let content ← content.prepare contents
  return fun view row => do
    let pairs ← mapChildren view row none keys.rows fun entry => do
      let a ← key.convert keys entry true
      let b ← content.convert contents entry true
      return (a, b)
    return finish pairs

/-- Prepares each plan for a member vector, from member `index` on. -/
def members (view : ColumnView) : (index : Nat) → List (Converter c) →
    Result (List (Converter c × ColumnView))
  | _, [] => .ok []
  | index, plan :: rest => do
    let member ← view.member index
    let plan ← plan.prepare member
    let rest ← members view (index + 1) rest
    return (plan, member) :: rest

/-- The members of a STRUCT in declared order; a missing one reads as null. -/
def struct (names : List String) (plans : List (Converter Target.value)) :
    Binder (List (String × Value)) := fun view => do
  let bound ← members view 0 plans
  return fun _ row => do
    let values ← bound.mapM fun (plan, member) => plan.convert member row false
    return names.zip values

/-- The alternative of a UNION that the row's tag selects. -/
def union (tag : Converter (Target.int .u8)) (plans : List (Converter Target.value)) :
    Binder Value := fun view => do
    let tags ← view.member 0
    let bound ← members view 1 plans
    let tag ← tag.prepare tags
    return fun _ row => do
      let n ← tag.convert tags row true
      match bound[n.val.toNat]? with
      | some (plan, member) => plan.convert member row false
      | none => .error (.native (.unionTag n.val.toNat row bound.length))

end TypedColumns.Binder
