import TypedColumns.Kind
import TypedColumns.Text.Quoted

/-!
The full type of a column, children included: which types are well formed, their storage, and their
description in messages. Equality of types is decidable.
-/
namespace TypedColumns

inductive LogicalType where
  /-- A kind without parameters. -/
  | scalar (kind : Kind)
  | decimal (width scale : Nat)
  /-- A value's code is the position of its name. -/
  | enum (dictionary : Array String)
  | list (child : LogicalType)
  | array (child : LogicalType) (size : Nat)
  | struct (members : List (String × LogicalType))
  | map (key value : LogicalType)
  /-- The alternatives in the order of their tags. -/
  | union (alternatives : List (String × LogicalType))

namespace LogicalType

instance : Inhabited LogicalType := ⟨scalar .null⟩

/-- Why a type is refused. -/
inductive Fault where
  | missingParameters (kind : Kind)
  | notAColumnType (kind : Kind)
  | decimal (width scale : Nat)
  | dictionaryTooLarge
  | unionMembers (count : Nat)
deriving DecidableEq

def Fault.message : Fault → String
  | missingParameters kind => s!"{kind.name} type reported without its type parameters"
  | notAColumnType kind => s!"{kind.name} is not a valid column type"
  | decimal width scale => s!"invalid DECIMAL({width}, {scale})"
  | dictionaryTooLarge => "enum dictionary too large"
  | unionMembers count => s!"union with {count} members is not supported"

def kind : LogicalType → Kind
  | scalar kind => kind
  | decimal .. => .decimal
  | enum _ => .enum
  | list _ => .list
  | array .. => .array
  | struct _ => .struct
  | map .. => .map
  | union _ => .union

/-- Integer kind of the slots of a decimal with `width` digits. -/
def decimalStorage (width : Nat) : IntKind :=
  if width ≤ 4 then .i16 else if width ≤ 9 then .i32 else if width ≤ 18 then .i64 else .i128

/-- Integer kind of the slots of an enumeration of `count` names. -/
def enumStorage (count : Nat) : IntKind :=
  if count ≤ 255 then .u8 else if count ≤ 65535 then .u16 else .u32

/-- The kind whose slots hold the values. -/
def storage : LogicalType → Kind
  | decimal width _ => .int (decimalStorage width)
  | enum dictionary => .int (enumStorage dictionary.size)
  | type => type.kind

def decimalAllowed (width scale : Nat) : Bool := width != 0 && width ≤ 38 && scale ≤ width

def decimal? (width scale : Nat) : Option LogicalType :=
  if decimalAllowed width scale then some (decimal width scale) else none

mutual

/-- The first fault of a type, members in order. -/
def check : LogicalType → Except Fault Unit
  | scalar kind => match kind with
    | .decimal | .enum | .list | .array | .struct | .map | .union =>
      .error (.missingParameters kind)
    | .invalid | .any => .error (.notAColumnType kind)
    | _ => .ok ()
  | decimal width scale =>
    if decimalAllowed width scale then .ok () else .error (.decimal width scale)
  | enum dictionary => if dictionary.size < 0x100000000 then .ok () else .error .dictionaryTooLarge
  | list child => child.check
  | array child _ => child.check
  | struct members => checkAll members
  | map key value => do key.check; value.check
  | union alternatives =>
    if alternatives.length = 0 ∨ 255 < alternatives.length then
      .error (.unionMembers alternatives.length)
    else checkAll alternatives

def checkAll : List (String × LogicalType) → Except Fault Unit
  | [] => .ok ()
  | (_, type) :: rest => do type.check; checkAll rest

end

def braces (fields : String) : String := "\x7b " ++ fields ++ " \x7d"

mutual

/-- Description inside error messages. -/
def describe : LogicalType → String
  | scalar kind => "Scalar(" ++ kind.tag ++ ")"
  | decimal width scale => "Decimal " ++ braces s!"width: {width}, scale: {scale}"
  | enum dictionary =>
    "Enum " ++ braces ("dictionary: " ++ Quoted.sequence (dictionary.toList.map Quoted.encode))
  | list child => "List(" ++ child.describe ++ ")"
  | array child size => "Array " ++ braces ("child: " ++ child.describe ++ s!", size: {size}")
  | struct members => "Struct(" ++ Quoted.sequence (describeAll members) ++ ")"
  | map key value => "Map " ++ braces ("key: " ++ key.describe ++ ", value: " ++ value.describe)
  | union alternatives => "Union(" ++ Quoted.sequence (describeAll alternatives) ++ ")"

def describeAll : List (String × LogicalType) → List String
  | [] => []
  | (name, type) :: rest =>
    ("(" ++ Quoted.encode name ++ ", " ++ type.describe ++ ")") :: describeAll rest

end

/-- The struct type of a map's entries. -/
def entry (key value : LogicalType) : LogicalType := struct [("key", key), ("value", value)]

mutual

def decEq : (a b : LogicalType) → Decidable (a = b)
  | scalar a, scalar b => decidable_of_iff (a = b) (by simp)
  | decimal w s, decimal w' s' => decidable_of_iff (w = w' ∧ s = s') (by simp)
  | enum a, enum b => decidable_of_iff (a = b) (by simp)
  | list a, list b => match decEq a b with
    | isTrue h => isTrue (by rw [h])
    | isFalse h => isFalse (by simpa using h)
  | array a m, array b n => match decEq a b with
    | isTrue h => decidable_of_iff (m = n) (by simp [h])
    | isFalse h => isFalse (by simp [h])
  | struct a, struct b => match decEqAll a b with
    | isTrue h => isTrue (by rw [h])
    | isFalse h => isFalse (by simpa using h)
  | map a b, map c d => match decEq a c, decEq b d with
    | isTrue h, isTrue h' => isTrue (by rw [h, h'])
    | isFalse h, _ => isFalse (by simp [h])
    | _, isFalse h => isFalse (by simp [h])
  | union a, union b => match decEqAll a b with
    | isTrue h => isTrue (by rw [h])
    | isFalse h => isFalse (by simpa using h)
  | scalar _, decimal .. | scalar _, enum _ | scalar _, list _ | scalar _, array .. => isFalse nofun
  | scalar _, struct _ | scalar _, map .. | scalar _, union _ => isFalse nofun
  | decimal .., scalar _ | decimal .., enum _ | decimal .., list _ | decimal .., array .. =>
    isFalse nofun
  | decimal .., struct _ | decimal .., map .. | decimal .., union _ => isFalse nofun
  | enum _, scalar _ | enum _, decimal .. | enum _, list _ | enum _, array .. => isFalse nofun
  | enum _, struct _ | enum _, map .. | enum _, union _ => isFalse nofun
  | list _, scalar _ | list _, decimal .. | list _, enum _ | list _, array .. => isFalse nofun
  | list _, struct _ | list _, map .. | list _, union _ => isFalse nofun
  | array .., scalar _ | array .., decimal .. | array .., enum _ | array .., list _ => isFalse nofun
  | array .., struct _ | array .., map .. | array .., union _ => isFalse nofun
  | struct _, scalar _ | struct _, decimal .. | struct _, enum _ | struct _, list _ => isFalse nofun
  | struct _, array .. | struct _, map .. | struct _, union _ => isFalse nofun
  | map .., scalar _ | map .., decimal .. | map .., enum _ | map .., list _ => isFalse nofun
  | map .., array .. | map .., struct _ | map .., union _ => isFalse nofun
  | union _, scalar _ | union _, decimal .. | union _, enum _ | union _, list _ => isFalse nofun
  | union _, array .. | union _, struct _ | union _, map .. => isFalse nofun

def decEqAll : (a b : List (String × LogicalType)) → Decidable (a = b)
  | [], [] => isTrue rfl
  | [], _ :: _ => isFalse nofun
  | _ :: _, [] => isFalse nofun
  | (n, a) :: r, (m, b) :: s =>
    if h : n = m then match decEq a b, decEqAll r s with
      | isTrue h', isTrue h'' => isTrue (by rw [h, h', h''])
      | isFalse h', _ => isFalse (by simp [h'])
      | _, isFalse h' => isFalse (by simp [h'])
    else isFalse (by simp [h])

end

instance : DecidableEq LogicalType := decEq

end LogicalType
end TypedColumns
