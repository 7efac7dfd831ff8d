import TypedColumns.Native.Slot
import TypedColumns.Native.Validity

/-!
Vectors in memory: the slots of one column's rows, a bitmap, payloads of long strings and child
vectors. Every constructor checks what it is given before it accepts it; a load outside the memory
of a vector gives nothing.
-/
namespace TypedColumns

structure NativeVector where
  type : LogicalType
  rows : Nat
  data : Array UInt8
  bitmap : Option Bitmap
  /-- Payloads of strings too long for their slots. -/
  heap : Array (List UInt8)
  children : List NativeVector
  /-- Rows of the child vector that a LIST or MAP uses. -/
  childRows : Nat

namespace NativeVector

def kind (v : NativeVector) : Kind := v.type.kind

/-- The bytes of slot `row` when slots are `width` bytes wide. -/
def slot? (v : NativeVector) (width row : Nat) : Option (List UInt8) :=
  if width * row + width ≤ v.data.size then
    some (v.data.extract (width * row) (width * row + width)).toList
  else none

def payload? (v : NativeVector) (row : Nat) : Option (List UInt8) :=
  (v.slot? 16 row).bind (StringSlot.decode? v.heap)

def entry? (v : NativeVector) (row : Nat) : Option ListEntry :=
  (v.slot? 16 row).map ListEntry.ofBytes

def bit? (v : NativeVector) (row : Nat) : Option Bool := Bitmap.rowBit? v.bitmap row

/-- The child of a LIST or MAP and how many of its rows are in use. -/
def listChild (v : NativeVector) : Result (NativeVector × Nat) :=
  match v.kind, v.children with
  | .list, child :: _ | .map, child :: _ => .ok (child, v.childRows)
  | kind, _ => .error (.native (.noListChild kind))

def arrayChild (v : NativeVector) : Result NativeVector :=
  match v.kind, v.children with
  | .array, child :: _ => .ok child
  | kind, _ => .error (.native (.noArrayChild kind))

def member (v : NativeVector) (index : Nat) : Result NativeVector :=
  match v.kind with
  | .struct | .union =>
    match v.children[index]? with
    | some child => .ok child
    | none => .error (.native (.memberOutOfRange index v.children.length))
  | kind => .error (.native (.noMembers kind))

/-- A vector without slots, once its type is well formed and the bitmap is long enough. -/
def bare (type : LogicalType) (rows : Nat) (bitmap : Option Bitmap) : Result NativeVector :=
  match type.check with
  | .error fault => .error (.native (.type fault))
  | .ok () =>
    match bitmap with
    | some words =>
      if words.size < Bitmap.wordCount rows then
        .error (.argument (.shortBitmap words.size rows))
      else .ok ⟨type, rows, #[], bitmap, #[], [], 0⟩
    | none => .ok ⟨type, rows, #[], none, #[], [], 0⟩

/-- Every row is missing and there are no slots. -/
def nulls (rows : Nat) : NativeVector :=
  ⟨.scalar .null, rows, #[], some (Array.replicate (Bitmap.wordCount rows) 0), #[], [], 0⟩

/-- Slots of `width` bytes one after another; those of missing rows are zero. -/
def ofCells (kind : Kind) (width : Nat) (cells : List (Option (List UInt8))) : NativeVector :=
  let slots := cells.map fun cell => cell.getD (List.replicate width 0)
  ⟨.scalar kind, cells.length, slots.flatten.toArray, Bitmap.ofFlags (cells.map Option.isSome),
    #[], [], 0⟩

def ofInts {k : IntKind} (values : List (Option (Word k))) : NativeVector :=
  ofCells (.int k) k.bytes (values.map (·.map Word.toBytes))

def ofFloats {f : FloatFormat} (values : List (Option (Binary f))) : NativeVector :=
  let kind := match f with
    | .single => Kind.float
    | .double => Kind.double
  ofCells kind f.bytes (values.map (·.map Binary.toBytes))

def ofBooleans (values : List (Option Bool)) : NativeVector :=
  ofCells .boolean 1 (values.map (·.map fun b => [if b then 1 else 0]))

/-- Slots given as bytes. All rows together have to have a 64-bit count of bytes. -/
def ofSlots (type : LogicalType) (rows : Nat) (slots : List UInt8) (bitmap : Option Bitmap) :
    Result NativeVector :=
  let refused := .error (.argument (.notFixedWidth type.kind))
  match type.storage.slotWidth? with
  | none => refused
  | some width =>
    if type.storage.isStringLike || type.storage.isNested then refused
    else if sizeModulus ≤ rows * width then .error (.panic (.sizeOverflow rows width))
    else if slots.length ≠ rows * width then
      .error (.argument (.slotBytes type.kind rows (rows * width) slots.length))
    else (bare type rows bitmap).map fun v => { v with data := slots.toArray }

/-- String slots in row order, with the payloads that do not fit a slot in `heap`. -/
def stringSlots : (heap : Array (List UInt8)) → List (Option (List UInt8)) →
    Result (List (List UInt8) × Array (List UInt8))
  | heap, [] => .ok ([], heap)
  | heap, none :: rest => do
    let (slots, heap) ← stringSlots heap rest
    return (List.replicate 16 0 :: slots, heap)
  | heap, some payload :: rest => do
    let slot ← StringSlot.encode payload heap.size
    let heap := if StringSlot.inlineLength < payload.length then heap.push payload else heap
    let (slots, heap) ← stringSlots heap rest
    return (slot :: slots, heap)

def ofPayloads (type : LogicalType) (values : List (Option (List UInt8))) : Result NativeVector :=
  if type.kind.isStringLike then do
    let v ← bare type values.length (Bitmap.ofFlags (values.map Option.isSome))
    let (slots, heap) ← stringSlots #[] values
    return { v with data := slots.flatten.toArray, heap := heap }
  else .error (.argument (.notStringLike type.kind))

def ofTexts (values : List (Option String)) : Result NativeVector :=
  ofPayloads (.scalar .varchar) (values.map (·.map Utf8.encode))

/-- Entries are stored as given, spans outside the child included. -/
def ofListParts (type : LogicalType) (entries : List ListEntry) (bitmap : Option Bitmap)
    (child : NativeVector) (childRows : Nat) : Result NativeVector :=
  if type.kind ≠ .list ∧ type.kind ≠ .map then .error (.argument (.noListEntries type.kind))
  else if child.rows < childRows then .error (.argument (.childTooShort childRows child.rows))
  else (bare type entries.length bitmap).map fun v =>
    { v with
      data := (entries.map ListEntry.toBytes).flatten.toArray, children := [child],
      childRows := childRows }

def ofArrayParts (type : LogicalType) (rows : Nat) (bitmap : Option Bitmap)
    (child : NativeVector) : Result NativeVector :=
  if type.kind ≠ .array then .error (.argument (.notArray type.kind))
  else (bare type rows bitmap).map fun v => { v with children := [child] }

/-- Count of member vectors, none for types without members. -/
def memberCount? : LogicalType → Option Nat
  | .struct members => some members.length
  | .union alternatives => some (alternatives.length + 1)
  | _ => none

/-- Member vectors of a STRUCT, or the tags and then the alternatives of a UNION. -/
def ofStructParts (type : LogicalType) (rows : Nat) (bitmap : Option Bitmap)
    (members : List NativeVector) : Result NativeVector :=
  match memberCount? type with
  | none => .error (.argument (.noMembers type.kind))
  | some expected =>
    if members.length ≠ expected then
      .error (.argument (.memberCount type.kind expected members.length))
    else (bare type rows bitmap).map fun v => { v with children := members }

def describe (v : NativeVector) : String :=
  "MemVector \x7b ty: " ++ v.type.describe ++
    s!", len: {v.rows}, children: {v.children.length}, .. \x7d"

end NativeVector
end TypedColumns
