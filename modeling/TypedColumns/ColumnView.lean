import TypedColumns.Column
import TypedColumns.Native.Vector

/-!
A column over the first rows of a native vector. Rows and children are checked when a view is made;
loads of single slots check nothing but the memory.
-/
namespace TypedColumns

/-- One step from a vector to a child. -/
inductive ViewStep where
  | list | array | member (index : Nat)
deriving DecidableEq

structure ColumnView where
  column : Column
  rows : Nat
  native : NativeVector
  /-- Steps from the vector that the first view was made of. -/
  path : List ViewStep

namespace ColumnView

def kind (v : ColumnView) : Kind := v.column.kind

def isEmpty (v : ColumnView) : Bool := v.rows == 0

/-- There is no bitmap. -/
def allValid (v : ColumnView) : Bool := v.native.bitmap.isNone

/-- The first `rows` rows of a vector that is known to have the column's type. -/
def firstRows (native : NativeVector) (column : Column) (rows : Nat) (path : List ViewStep) :
    Result ColumnView :=
  if native.rows < rows then .error (.native (.tooFewRows column.kind native.rows rows))
  else .ok ⟨column, rows, native, path⟩

def ofNative (native : NativeVector) (rows : Nat) : Result ColumnView := do
  firstRows native (← Column.ofType native.type) rows []

def withColumn (native : NativeVector) (column : Column) (rows : Nat) : Result ColumnView :=
  if native.type = column.type then firstRows native column rows []
  else .error (.native (.unexpectedType native.type column.type))

def checkIndex (v : ColumnView) (row : Nat) : Result Unit :=
  if row < v.rows then .ok () else .error (.indexOutOfRange row v.rows)

/-- What a load found, or the error of a load outside the memory. -/
def loaded {α : Type} : Option α → Result α
  | some a => .ok a
  | none => .error .unreadable

/-- Row `row` holds a value. -/
def isValid (v : ColumnView) (row : Nat) : Result Bool := do
  v.checkIndex row
  loaded (v.native.bit? row)

def intAt (v : ColumnView) (k : IntKind) (row : Nat) : Result (Word k) :=
  (loaded (v.native.slot? k.bytes row)).map (Word.ofBytes k)

def floatAt (v : ColumnView) (f : FloatFormat) (row : Nat) : Result (Binary f) :=
  (loaded (v.native.slot? f.bytes row)).map (Binary.ofBytes f)

def intervalAt (v : ColumnView) (row : Nat) : Result Interval :=
  (loaded (v.native.slot? 16 row)).map fun bytes =>
    ⟨.ofBytes .i32 (bytes.take 4), .ofBytes .i32 ((bytes.drop 4).take 4),
      .ofBytes .i64 (bytes.drop 8)⟩

def entryAt (v : ColumnView) (row : Nat) : Result ListEntry := loaded (v.native.entry? row)

def payloadAt (v : ColumnView) (row : Nat) : Result (List UInt8) := loaded (v.native.payload? row)

/-- The elements of a LIST or the entries of a MAP. -/
def listChildren (v : ColumnView) : Result ColumnView := do
  let (child, rows) ← v.native.listChild
  firstRows child (← v.column.child) rows (v.path ++ [.list])

/-- The elements of an ARRAY, those of all rows; their count is checked in 64 bits. -/
def arrayChildren (v : ColumnView) : Result ColumnView :=
  match v.column.arraySize? with
  | none => .error (.argument (.noArrayChildren v.kind))
  | some size =>
    if sizeModulus ≤ v.rows * size then .error (.native (.arrayOverflow v.rows size))
    else do
      let child ← v.native.arrayChild
      firstRows child (← v.column.child) (v.rows * size) (v.path ++ [.array])

/-- A member of a STRUCT or UNION, with the rows of its parent. -/
def member (v : ColumnView) (index : Nat) : Result ColumnView := do
  let column ← v.column.member index
  firstRows (← v.native.member index) column v.rows (v.path ++ [.member index])

def step (v : ColumnView) : ViewStep → Result ColumnView
  | .list => v.listChildren
  | .array => v.arrayChildren
  | .member index => v.member index

def follow (v : ColumnView) : List ViewStep → Result ColumnView
  | [] => .ok v
  | step :: rest => do (← v.step step).follow rest

/-- Both views look at one native vector, when they come from the same first view. -/
def sameNative (v w : ColumnView) : Bool := v.path == w.path

def checkSpan (v : ColumnView) (kind : Kind) : Result Unit :=
  if v.kind = kind then .ok ()
  else .error (.typeMismatch v.kind v.column.storage (.span kind))

/-- The integers in the slots of all rows; those of missing rows are unspecified. -/
def intSpan (v : ColumnView) (k : IntKind) : Result (List (Word k)) := do
  v.checkSpan (.int k)
  (List.range v.rows).mapM (v.intAt k)

/-- The numbers in the slots of all rows; those of missing rows are unspecified. -/
def floatSpan (v : ColumnView) (f : FloatFormat) : Result (List (Binary f)) := do
  v.checkSpan (match f with | .single => .float | .double => .double)
  (List.range v.rows).mapM (v.floatAt f)

def describe (v : ColumnView) : String :=
  s!"Vector \x7b kind: {v.kind.tag}, storage: {v.column.storage.tag}, len: {v.rows}, " ++
    s!"all_valid: {v.allValid} \x7d"

end ColumnView
end TypedColumns
