import TypedColumns.Column

/-!
Named columns. A column is referred to by its position or by its name, which means the first column
of that name.
-/
namespace TypedColumns

structure SchemaColumn where
  name : String
  column : Column

structure Schema where
  columns : List SchemaColumn

inductive ColumnRef where
  | index (index : Nat)
  | name (name : String)

namespace Schema

def ofTypes (types : List (String × LogicalType)) : Result Schema :=
  (types.mapM fun (name, type) => (Column.ofType type).map (SchemaColumn.mk name)).map Schema.mk

def size (s : Schema) : Nat := s.columns.length

def column (s : Schema) (index : Nat) : Result SchemaColumn :=
  match s.columns[index]? with
  | some column => .ok column
  | none => .error (.indexOutOfRange index s.size)

def indexOf (s : Schema) (name : String) : Result Nat :=
  match s.columns.findIdx? fun column => column.name == name with
  | some index => .ok index
  | none => .error (.unknownColumn name)

/-- The position that a reference means; positions are not checked yet. -/
def locate (s : Schema) : ColumnRef → Result Nat
  | .index index => .ok index
  | .name name => s.indexOf name

end Schema
end TypedColumns
