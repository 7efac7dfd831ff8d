import TypedColumns.Arrow.ColumnType
import TypedColumns.Native.Encode

/-!
Vectors from Arrow arrays. Cells that are laid out as slots are copied; every other array becomes
values first, and so does each array inside another one.
-/
namespace TypedColumns.Arrow.PhysicalArray

def cellValues {α : Type} (f : α → Result Value) (cells : List (Cell α)) : Result (List Value) :=
  cells.mapM fun cell => if cell.valid then f cell.content else .ok .null

def plainValues {α : Type} (f : α → Value) : List (Cell α) → Result (List Value) :=
  cellValues fun content => .ok (f content)

/-- Milliseconds are rounded down to days. -/
def dateOfMillis (millis : Word .i64) : Result Value :=
  match Word.ofInt? .i32 (millis.val / 86400000) with
  | some days => .ok (.rawDate days)
  | none => .error (.domain (.arrowDate millis.val))

/-- Nanoseconds stop at the limits of 64 bits and are then cut to microseconds. -/
def timeMicros (unit : TimeUnit) (raw : Int) : Value :=
  let nanos := max IntKind.i64.min (min IntKind.i64.max (raw * unit.nanoseconds))
  .rawTime (.wrap .i64 (nanos.tdiv 1000))

/-- An instant in UTC, or microseconds rounded down when it is off the calendar. -/
def instantOf (unit : TimeUnit) (raw : Word .i64) : Result Value :=
  let nanos := raw.val * unit.nanoseconds
  match DateTime.ofNanos? nanos with
  | some clock => .ok (.timestampTz (.utc clock))
  | none => match Word.ofInt? .i64 (nanos / 1000) with
    | some micros => .ok (.rawTimestamp micros)
    | none => .error (.domain (.arrowTimestamp raw.val unit))

def intervalOf (i : MonthDayNano) : Value :=
  .interval ⟨i.months, i.days, .wrap .i64 (i.nanos.val / 1000)⟩

/-- The position of the entry that a code means: codes outside the dictionary mean its last entry. -/
def position (entries : Nat) (code : Int) : Nat :=
  if 0 ≤ code ∧ code < entries then code.toNat else entries - 1

def codeValue (entries : Nat) (code : Int) : Result Value :=
  match Word.ofInt? .u32 (position entries code) with
  | some n => .ok (.int .u32 n)
  | none => .error (.domain (.arrowCode (position entries code)))

/-- Elements between neighbouring offsets. -/
def spans {α : Type} (items : List α) : (offsets : List Nat) → List (List α)
  | start :: stop :: rest => window start (stop - start) items :: spans items (stop :: rest)
  | _ => []

/-- Runs of `size` elements, one for each row. -/
def runs {α : Type} (size : Nat) : (rows : Nat) → List α → List (List α)
  | 0, _ => []
  | rows + 1, items => items.take size :: runs size rows (items.drop size)

/-- Null where the flag is clear. -/
def masked (valid : List Bool) (values : List Value) : List Value :=
  List.zipWith (fun flag v => if flag then v else .null) valid values

/-- The cells of each row side by side, from one list for each column. -/
def transpose : (rows : Nat) → List (List Value) → List (List Value)
  | 0, _ => []
  | rows + 1, columns =>
    columns.map (fun column => column.headD .null) :: transpose rows (columns.map List.tail)

mutual

/-- The elements of an array, children outside of every span included. -/
def values : PhysicalArray → Result (List Value)
  | null rows => .ok (List.replicate rows .null)
  | boolean cells => plainValues .boolean cells
  | int k cells => plainValues (.int k) cells
  | float .single cells => plainValues .float cells
  | float .double cells => plainValues .double cells
  | utf8 _ cells => plainValues .text cells
  | binary _ cells | fixedBinary _ cells => plainValues .blob cells
  | date32 cells => plainValues .rawDate cells
  | date64 cells => cellValues dateOfMillis cells
  | time32 unit cells => plainValues (fun raw => timeMicros unit raw.val) cells
  | time64 unit cells => plainValues (fun raw => timeMicros unit raw.val) cells
  | timestamp unit _ cells => cellValues (instantOf unit) cells
  | monthDayNano cells => plainValues intervalOf cells
  | decimal128 _ scale cells => plainValues (fun n => .scaledInt ⟨n, scale.toNat⟩) cells
  | dictionary _ codes entries =>
    if entries.rows = 0 then .error (.panic .emptyDictionary)
    else cellValues (fun code => codeValue entries.rows code.val) codes
  | list _ _ offsets valid child => do
    return masked valid ((spans (← child.values) offsets).map .list)
  | fixedList _ size valid child => do
    return masked valid ((runs size valid.length (← child.values)).map .list)
  | struct fields valid => do
    let rows := transpose valid.length (← columns fields)
    return masked valid (rows.map fun row => .struct ((fields.map Prod.fst).zip row))
  | map _ _ _ offsets valid key value => do
    let pairs := (← key.values).zip (← value.values)
    return masked valid ((spans pairs offsets).map .map)
  | unread type _ => type.refuse

def columns : List (String × PhysicalArray) → Result (List (List Value))
  | [] => .ok []
  | (_, a) :: rest => do return (← a.values) :: (← columns rest)

end

def slotCells {α : Type} (bytes : α → List UInt8) (cells : List (Cell α)) :
    Option (List UInt8 × List Bool) :=
  some ((cells.map fun cell => bytes cell.content).flatten, cells.map Cell.valid)

/-- Slots and flags of an array whose cells are laid out as the slots of its column. -/
def rawSlots? : PhysicalArray → Option (List UInt8 × List Bool)
  | int _ cells => slotCells Word.toBytes cells
  | float _ cells => slotCells Binary.toBytes cells
  | date32 cells => slotCells Word.toBytes cells
  | time64 .microsecond cells => slotCells Word.toBytes cells
  | timestamp _ none cells => slotCells Word.toBytes cells
  | _ => none

def toVector (a : PhysicalArray) : Result NativeVector := do
  let type ← a.logicalType
  match a.rawSlots? with
  | some (slots, valid) => NativeVector.ofSlots type valid.length slots (Bitmap.ofFlags valid)
  | none => NativeVector.ofValues type (← a.values)

end TypedColumns.Arrow.PhysicalArray
