import TypedColumns.ColumnView
import TypedColumns.Compatibility
import TypedColumns.Host

/-!
Converters read the elements of one kind of column. A closed converter reads any vector of its
source; an unbound one is a plan that still has to be bound to a vector. A missing element is never
passed to a reader.
-/
namespace TypedColumns

/-- Reads a row that is in range and holds a value. -/
abbrev Reader (α : Type) := ColumnView → Nat → Result α

/-- Makes the reader for one vector. -/
abbrev Binder (α : Type) := ColumnView → Result (Reader α)

inductive Reading (α : Type) where
  | closed (read : Reader α)
  | unbound (bind : Binder α)

def Reader.map {α β : Type} (f : α → Result β) (read : Reader α) : Reader β :=
  fun view row => read view row >>= f

def Reading.map {α β : Type} (f : α → Result β) : Reading α → Reading β
  | closed read => closed (read.map f)
  | unbound bind => unbound fun view => (bind view).map (Reader.map f)

/-- Reads elements into values of `α`, and declares the target that they stand for. -/
structure Converter (α : Type) where
  target : Target
  kind : Kind
  storage : Kind
  /-- A missing element gives the missing value instead of an error. -/
  defaultIsInvalid : Bool
  reading : Reading α

namespace Converter

section

variable {α β : Type}

def isBound (conv : Converter α) : Bool :=
  match conv.reading with
  | .closed _ => true
  | .unbound _ => false

/-- Passes every element through `f`, under a new target and null policy. -/
def mapWith (conv : Converter α) (f : α → Result β) (target : Target) (defaultIsInvalid : Bool) :
    Converter β :=
  ⟨target, conv.kind, conv.storage, defaultIsInvalid, conv.reading.map f⟩

/-- The same reader under a target and its null policy. -/
def retarget (conv : Converter α) (target : Target) : Converter α :=
  { conv with target := target, defaultIsInvalid := target.isNullable }

/-- The view has the kind and storage that the converter was made for. -/
def checkSource (conv : Converter α) (view : ColumnView) : Result Unit :=
  if view.kind = conv.kind ∧ view.column.storage = conv.storage then .ok ()
  else .error (view.column.mismatch (.converter conv.target conv.kind))

def bindTo (conv : Converter α) (view : ColumnView) : Result (Converter α) :=
  match conv.reading with
  | .closed _ => .error (.alreadyBound conv.target)
  | .unbound bind => do
    conv.checkSource view
    let read ← bind view
    return { conv with reading := .closed read }

/-- A closed converter for `view`. -/
def prepare (conv : Converter α) (view : ColumnView) : Result (Converter α) :=
  if conv.isBound then .ok conv else conv.bindTo view

/-- The element of a row, none when it is missing. -/
def tryConvert (conv : Converter α) (view : ColumnView) (row : Nat) : Result (Option α) :=
  match conv.reading with
  | .unbound _ => .error (.notBound conv.target)
  | .closed read => do
    conv.checkSource view
    if ← view.isValid row then (read view row).map some else .ok none

def describe (conv : Converter α) : String :=
  s!"Converter \x7b target: {conv.target.describe}, source: {conv.kind.tag}, " ++
    s!"default_is_invalid: {conv.defaultIsInvalid}, bound: {conv.isBound} \x7d"

end

variable {c d : Target}

def ofReading (type : LogicalType) (reading : Reading c) (defaultIsInvalid : Bool) : Converter c :=
  ⟨c, type.kind, type.storage, defaultIsInvalid || c.isNullable, reading⟩

/-- A closed converter whose reader also gets `state`. -/
def create {σ : Type} (column : Column) (state : σ) (read : σ → Reader c)
    (defaultIsInvalid : Bool) : Converter c :=
  ofReading column.type (.closed (read state)) defaultIsInvalid

def stateless (column : Column) (read : Reader c) : Converter c :=
  ofReading column.type (.closed read) false

def unbound (column : Column) (bind : Binder c) (defaultIsInvalid : Bool) : Converter c :=
  ofReading column.type (.unbound bind) defaultIsInvalid

/-- Passes every element through `f` into values of another target. -/
def map (conv : Converter c) (f : c.Host → Result d.Host) : Converter d :=
  conv.mapWith f d d.isNullable

/-- The element of a row; a missing one gives an error or the missing value. -/
def convert (conv : Converter c) (view : ColumnView) (row : Nat) (requireValid : Bool) :
    Result c.Host := do
  match ← conv.tryConvert view row with
  | some x => .ok x
  | none =>
    if requireValid && !conv.defaultIsInvalid then .error (.nullViolation row conv.target)
    else .ok c.missing

end Converter
end TypedColumns
