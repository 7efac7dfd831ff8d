import TypedColumns.Arrow.PhysicalArray
import TypedColumns.Error

/-!
Column types of Arrow types and of Arrow arrays. Only an array has the names that make a dictionary
an ENUM; everywhere else the array's data type decides.
-/
namespace TypedColumns.Arrow

namespace DataType

def refuse {α : Type} (type : DataType) : Result α := .error (.arrow (.noColumnType type))

/-- A naive timestamp's unit is that of its slots. -/
def timestampKind (unit : TimeUnit) : Option String → Kind
  | some _ => .timestamp .zoned
  | none => match unit with
    | .second => .timestamp .seconds
    | .millisecond => .timestamp .millis
    | .microsecond => .timestamp .micros
    | .nanosecond => .timestamp .nanos

def decimalType (precision scale : Nat) : Result LogicalType :=
  match LogicalType.decimal? precision scale with
  | some type => .ok type
  | none => .error (.argument (.decimal precision scale))

mutual

def toLogical : DataType → Result LogicalType
  | null => .ok (.scalar .null)
  | boolean => .ok (.scalar .boolean)
  | int k => .ok (.scalar (.int k))
  | float .single => .ok (.scalar .float)
  | float .double => .ok (.scalar .double)
  | utf8 _ => .ok (.scalar .varchar)
  | binary _ | fixedBinary _ => .ok (.scalar .blob)
  | date32 | date64 => .ok (.scalar .date)
  | time32 _ | time64 _ => .ok (.scalar .time)
  | timestamp unit zone => .ok (.scalar (timestampKind unit zone))
  | interval .monthDayNano => .ok (.scalar .interval)
  | decimal128 precision scale =>
    if 0 ≤ scale then decimalType precision scale.toNat
    else (decimal128 precision scale).refuse
  | list _ _ item => item.toLogical.map .list
  | fixedList name item size =>
    if 0 ≤ size then item.toLogical.map fun child => .array child size.toNat
    else (fixedList name item size).refuse
  | struct fields => (toMembers fields).map .struct
  | map _ entries => match entries with
    | struct [(_, key), (_, value)] => do return .map (← key.toLogical) (← value.toLogical)
    | entries => .error (.argument (.arrowMapEntries entries))
  | dictionary key content => .error (.argument (.arrowDictionary (dictionary key content)))
  | float16 => float16.refuse
  | duration unit => (duration unit).refuse
  | interval unit => (interval unit).refuse
  | decimal256 precision scale => (decimal256 precision scale).refuse
  | foreign text inside => (foreign text inside).refuse

def toMembers : List (String × DataType) → Result (List (String × LogicalType))
  | [] => .ok []
  | (name, type) :: rest => do return (name, ← type.toLogical) :: (← toMembers rest)

end

end DataType

namespace PhysicalArray

/-- The text of every entry, the position of the first missing one otherwise. -/
def names : (position : Nat) → List (Cell String) → Result (List String)
  | _, [] => .ok []
  | position, cell :: rest =>
    if cell.valid then return cell.content :: (← names (position + 1) rest)
    else .error (.argument (.arrowNullEntry position))

def dictionaryNames (entries : PhysicalArray) : Result (List String) :=
  match entries with
  | utf8 .offsets32 cells | utf8 .offsets64 cells => names 0 cells
  | entries => .error (.argument (.arrowDictionaryValues entries.type))

mutual

def logicalType : PhysicalArray → Result LogicalType
  | dictionary _ _ entries => do return .enum (← dictionaryNames entries).toArray
  | list _ _ _ _ child => child.logicalType.map .list
  | fixedList _ size _ child => child.logicalType.map fun type => .array type size
  | struct fields _ => (memberTypes fields).map .struct
  | map _ _ _ _ _ key value => do return .map (← key.logicalType) (← value.logicalType)
  | a => a.type.toLogical

def memberTypes : List (String × PhysicalArray) → Result (List (String × LogicalType))
  | [] => .ok []
  | (name, a) :: rest => do return (name, ← a.logicalType) :: (← memberTypes rest)

end

end PhysicalArray
end TypedColumns.Arrow
