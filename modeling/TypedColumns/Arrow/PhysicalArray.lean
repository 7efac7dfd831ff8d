import TypedColumns.Arrow.DataType

/-!
Arrow arrays in physical form, and their slices. A slice keeps the children of lists and maps whole
and moves into them by its offsets; the children of structs and fixed-size lists are sliced along.
-/
namespace TypedColumns.Arrow

/-- The content of an invalid cell means nothing. -/
structure Cell (α : Type) where
  content : α
  valid : Bool

structure MonthDayNano where
  months : Word .i32
  days : Word .i32
  nanos : Word .i64

inductive PhysicalArray where
  | null (rows : Nat)
  | boolean (cells : List (Cell Bool))
  | int (k : IntKind) (cells : List (Cell (Word k)))
  | float (f : FloatFormat) (cells : List (Cell (Binary f)))
  | utf8 (layout : Layout) (cells : List (Cell String))
  | binary (layout : Layout) (cells : List (Cell (List UInt8)))
  | fixedBinary (size : Nat) (cells : List (Cell (List UInt8)))
  | date32 (cells : List (Cell (Word .i32)))
  | date64 (cells : List (Cell (Word .i64)))
  | time32 (unit : TimeUnit) (cells : List (Cell (Word .i32)))
  | time64 (unit : TimeUnit) (cells : List (Cell (Word .i64)))
  | timestamp (unit : TimeUnit) (zone : Option String) (cells : List (Cell (Word .i64)))
  | monthDayNano (cells : List (Cell MonthDayNano))
  | decimal128 (precision : Nat) (scale : Int) (cells : List (Cell (Word .i128)))
  /-- Row `i` has the child's elements from offset `i` up to offset `i + 1`. -/
  | list (large : Bool) (name : String) (offsets : List Nat) (valid : List Bool)
    (child : PhysicalArray)
  | fixedList (name : String) (size : Nat) (valid : List Bool) (child : PhysicalArray)
  | struct (fields : List (String × PhysicalArray)) (valid : List Bool)
  | map (name keyName valueName : String) (offsets : List Nat) (valid : List Bool)
    (key value : PhysicalArray)
  | dictionary (k : IntKind) (codes : List (Cell (Word k))) (entries : PhysicalArray)
  /-- An array of a type that no column holds. -/
  | unread (type : DataType) (rows : Nat)

namespace PhysicalArray

instance : Inhabited PhysicalArray := ⟨null 0⟩

mutual

def type : PhysicalArray → DataType
  | null _ => .null
  | boolean _ => .boolean
  | int k _ => .int k
  | float f _ => .float f
  | utf8 layout _ => .utf8 layout
  | binary layout _ => .binary layout
  | fixedBinary size _ => .fixedBinary size
  | date32 _ => .date32
  | date64 _ => .date64
  | time32 unit _ => .time32 unit
  | time64 unit _ => .time64 unit
  | timestamp unit zone _ => .timestamp unit zone
  | monthDayNano _ => .interval .monthDayNano
  | decimal128 precision scale _ => .decimal128 precision scale
  | list large name _ _ child => .list large name child.type
  | fixedList name size _ child => .fixedList name child.type size
  | struct fields _ => .struct (fieldTypes fields)
  | map name keyName valueName _ _ key value =>
    .map name (.struct [(keyName, key.type), (valueName, value.type)])
  | dictionary k _ entries => .dictionary (.int k) entries.type
  | unread type _ => type

def fieldTypes : List (String × PhysicalArray) → List (String × DataType)
  | [] => []
  | (name, a) :: rest => (name, a.type) :: fieldTypes rest

end

/-- A flag for each row, clear where the bitmap marks the row as missing. -/
def validity : PhysicalArray → List Bool
  | boolean cells => cells.map Cell.valid
  | int _ cells => cells.map Cell.valid
  | float _ cells => cells.map Cell.valid
  | utf8 _ cells => cells.map Cell.valid
  | binary _ cells | fixedBinary _ cells => cells.map Cell.valid
  | date32 cells | time32 _ cells => cells.map Cell.valid
  | date64 cells | time64 _ cells | timestamp _ _ cells => cells.map Cell.valid
  | monthDayNano cells => cells.map Cell.valid
  | decimal128 _ _ cells => cells.map Cell.valid
  | dictionary _ codes _ => codes.map Cell.valid
  | list _ _ _ valid _ | fixedList _ _ valid _ | struct _ valid | map _ _ _ _ valid _ _ => valid
  | null rows | unread _ rows => List.replicate rows true

def rows (a : PhysicalArray) : Nat := a.validity.length

/-- `count` items from position `start` on. -/
def window {α : Type} (start count : Nat) (items : List α) : List α :=
  (items.drop start).take count

mutual

def slice (start count : Nat) : PhysicalArray → PhysicalArray
  | null rows => null (min count (rows - start))
  | boolean cells => boolean (window start count cells)
  | int k cells => int k (window start count cells)
  | float f cells => float f (window start count cells)
  | utf8 layout cells => utf8 layout (window start count cells)
  | binary layout cells => binary layout (window start count cells)
  | fixedBinary size cells => fixedBinary size (window start count cells)
  | date32 cells => date32 (window start count cells)
  | date64 cells => date64 (window start count cells)
  | time32 unit cells => time32 unit (window start count cells)
  | time64 unit cells => time64 unit (window start count cells)
  | timestamp unit zone cells => timestamp unit zone (window start count cells)
  | monthDayNano cells => monthDayNano (window start count cells)
  | decimal128 precision scale cells => decimal128 precision scale (window start count cells)
  | list large name offsets valid child =>
    list large name (window start (count + 1) offsets) (window start count valid) child
  | fixedList name size valid child =>
    fixedList name size (window start count valid) (child.slice (start * size) (count * size))
  | struct fields valid => struct (sliceFields start count fields) (window start count valid)
  | map name keyName valueName offsets valid key value =>
    map name keyName valueName (window start (count + 1) offsets) (window start count valid)
      key value
  | dictionary k codes entries => dictionary k (window start count codes) entries
  | unread type rows => unread type (min count (rows - start))

def sliceFields (start count : Nat) :
    List (String × PhysicalArray) → List (String × PhysicalArray)
  | [] => []
  | (name, a) :: rest => (name, a.slice start count) :: sliceFields start count rest

end

end PhysicalArray
end TypedColumns.Arrow
