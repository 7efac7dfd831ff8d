import TypedColumns.Reader.Leaf
import TypedColumns.Reader.Nested

/-!
Plans for reading a column: as a target known in advance, boxed in the column's own variant, or
boxed in the variant of a target chosen at run time. The compatibility check comes first.
-/
namespace TypedColumns

namespace LogicalType

def refuse {α : Type} (type : LogicalType) (target : Target) : Result α :=
  .error (.typeMismatch type.kind type.storage (.target target))

def listPlan {c d : Target} (type : LogicalType) (element : Converter c)
    (finish : List c.Host → d.Host) : Result (Converter d) :=
  match type with
  | list _ => .ok (.ofReading type (.unbound (Binder.list element none finish)) false)
  | array _ size => .ok (.ofReading type (.unbound (Binder.list element (some size) finish)) false)
  | _ => type.refuse d

def mapPlan {k v d : Target} (type : LogicalType) (key : Converter k) (content : Converter v)
    (finish : List (k.Host × v.Host) → d.Host) : Converter d :=
  .ofReading type (.unbound (Binder.map key content finish)) false

def structPlan (type : LogicalType) (plans : List (Converter Target.value)) :
    Converter Target.struct :=
  .ofReading type (.unbound (Binder.struct type.memberNames plans)) false

def tagPlan : Converter (Target.int .u8) :=
  .ofReading (.scalar (.int .u8)) (.closed (Reader.widened .u8 .u8)) false

mutual

/-- Every kind in the variant of its canonical type. -/
def boxedPlan : LogicalType → Result (Converter Target.value)
  | list child => do
    listPlan (d := .value) (list child) (← boxedPlan child) Value.list
  | array child size => do
    listPlan (d := .value) (array child size) (← boxedPlan child) Value.list
  | struct members => do
    return (structPlan (struct members) (← boxedPlans members)).map fun s => .ok (.struct s)
  | map key value => do
    let plan : Converter Target.pairs :=
      mapPlan (map key value) (← boxedPlan key) (← boxedPlan value) id
    return plan.map fun entries => .ok (.map entries)
  | union alternatives => do
    let bind := Binder.union tagPlan (← boxedPlans alternatives)
    return .ofReading (union alternatives) (.unbound bind) true
  | type => match Reader.boxed? type with
    | some read => .ok (.ofReading type (.closed read) false)
    | none => type.refuse .value

def boxedPlans : List (String × LogicalType) → Result (List (Converter Target.value))
  | [] => .ok []
  | (_, type) :: rest => do return (← boxedPlan type) :: (← boxedPlans rest)

end

/-- A BLOB is read as a sequence of bytes and of nothing else. -/
def blobReader? : (element : Target) → Option (Reader (List element.Host))
  | .int .u8 => some Reader.bytes
  | _ => none

/-- Optional values of the target are read by optional readers and by no others. -/
def readsOptionally : Target → Bool
  | .bool | .int _ | .float .single => true
  | _ => false

/-- Every column as values of a target known in advance. -/
def typedPlan : (t : Target) → LogicalType → Result (Converter t)
  | .option t, type => match Reader.optional? type t with
    | some read => .ok (.ofReading type (.closed read) false)
    | none =>
      if readsOptionally t then type.refuse (.option t)
      else do return (← typedPlan t type).map fun x => .ok (some x)
  | .value, type => boxedPlan type
  | .struct, type => match type with
    | struct members => do return structPlan type (← boxedPlans members)
    | _ => type.refuse .struct
  | .pairs, type => match type with
    | map key value => do return mapPlan type (← boxedPlan key) (← boxedPlan value) id
    | _ => type.refuse .pairs
  | .map k v, type => match type with
    | map key value => do
      return mapPlan type (← typedPlan k key) (← typedPlan v value) Target.distinctKeys
    | _ => type.refuse (.map k v)
  | .list t, type => match type with
    | list child | array child _ => do listPlan type (← typedPlan t child) id
    | scalar .blob => match blobReader? t with
      | some read => .ok (.ofReading type (.closed read) false)
      | none => type.refuse (.list t)
    | _ => type.refuse (.list t)
  | .fixedList t, type => match type with
    | list child | array child _ => do listPlan type (← typedPlan t child) id
    | scalar .blob => match blobReader? t with
      | some read => .ok (.ofReading type (.closed read) false)
      | none => type.refuse (.fixedList t)
    | _ => type.refuse (.fixedList t)
  | t, type => match Reader.typed? type t with
    | some read => .ok (.ofReading type (.closed read) false)
    | none => type.refuse t

/-- A typed plan with boxed results, under the typed target. -/
def boxedAs (t : Target) (type : LogicalType) : Result (Converter Target.value) := do
  let plan : Converter Target.value := (← typedPlan t type).map fun x => .ok (t.toValue x)
  return plan.retarget t

/-- Every column boxed in the variants of a target chosen at run time. The null policy is that of
the target; maps keep every pair and lists stay lists whatever their elements. -/
def variantPlan : (t : Target) → LogicalType → Result (Converter Target.value)
  | .value, type => boxedPlan type
  | .option t, type => do return (← variantPlan t type).retarget (.option t)
  | .map k v, type => match type with
    | map key value => do
      let plan : Converter Target.value :=
        mapPlan type (← variantPlan k key) (← variantPlan v value) Value.map
      return plan.retarget (.map k v)
    | _ => type.refuse (.map k v)
  | .list t, type => match type with
    | list child | array child _ => do
      let plan : Converter Target.value ← listPlan type (← variantPlan t child) Value.list
      return plan.retarget (.list t)
    | _ => boxedAs (.list t) type
  | .fixedList t, type => match type with
    | list child | array child _ => do
      let plan : Converter Target.value ← listPlan type (← variantPlan t child) Value.list
      return plan.retarget (.fixedList t)
    | _ => boxedAs (.fixedList t) type
  | .enum name members, type => match type with
    | enum dictionary =>
      let read := (Reader.enumKnown dictionary name members).map fun member => .ok (.enum member)
      let plan : Converter Target.value := .ofReading type (.closed read) false
      .ok (plan.retarget (.enum name members))
    | _ => type.refuse (.enum name members)
  | t, type => boxedAs t type

end LogicalType

namespace Column

def resolve (c : Column) (t : Target) : Result (Converter t) := do
  c.checkTarget t
  LogicalType.typedPlan t c.type

def resolveBoxed (c : Column) : Result (Converter Target.value) := LogicalType.boxedPlan c.type

def resolveVariant (c : Column) (t : Target) : Result (Converter Target.value) := do
  c.checkTarget t
  LogicalType.variantPlan t c.type

end Column
end TypedColumns
