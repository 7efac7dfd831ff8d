import TypedColumns.Column

/-!
Induction over logical types, and what the check of a type says about its parts.
-/
namespace TypedColumns

namespace LogicalType

/-- Induction with a hypothesis for every member of a STRUCT and every alternative of a UNION. -/
@[elab_as_elim]
theorem induction_on_members {motive : LogicalType → Prop}
    (scalar : ∀ kind, motive (.scalar kind))
    (decimal : ∀ width scale, motive (.decimal width scale))
    (enum : ∀ dictionary, motive (.enum dictionary))
    (list : ∀ child, motive child → motive (.list child))
    (array : ∀ child size, motive child → motive (.array child size))
    (struct : ∀ members, (∀ m ∈ members, motive m.2) → motive (.struct members))
    (map : ∀ key value, motive key → motive value → motive (.map key value))
    (union : ∀ alternatives, (∀ m ∈ alternatives, motive m.2) → motive (.union alternatives))
    (type : LogicalType) : motive type := by
  refine @LogicalType.rec motive (fun members => ∀ m ∈ members, motive m.2) (fun m => motive m.2)
    scalar decimal enum list array struct map union ?_ ?_ ?_ type
  · exact List.forall_mem_nil _
  · intro head tail first rest
    exact List.forall_mem_cons.mpr ⟨first, rest⟩
  · intro name type ih
    exact ih

theorem check_list {child : LogicalType} : (list child).check = child.check := by
  rw [check]

theorem check_array {child : LogicalType} {size : Nat} :
    (array child size).check = child.check := by
  rw [check]

/-- The type of the elements of a LIST or ARRAY. -/
def element? : LogicalType → Option LogicalType
  | list child | array child _ => some child
  | _ => none

end LogicalType

namespace Column

theorem ofType_of_check {type : LogicalType} (h : type.check = .ok ()) :
    ofType type = .ok ⟨type, h⟩ := by
  unfold ofType
  split
  · rfl
  · next e he => rw [h] at he; contradiction

theorem type_of_ofType {type : LogicalType} {c : Column} (h : ofType type = .ok c) :
    c.type = type := by
  unfold ofType at h
  split at h
  · cases h; rfl
  · cases h

end Column
end TypedColumns
