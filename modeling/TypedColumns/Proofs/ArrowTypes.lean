import TypedColumns.Proofs.ArrowBatches

/-!
Column types of Arrow types and of Arrow arrays. The two mappings part only where there are
dictionaries, which data types cannot name; so batches without dictionaries declare the columns that
their schema declares alone.
-/
namespace TypedColumns.Arrow

namespace PhysicalArray

mutual

/-- The column type of an array without dictionaries is that of its data type. -/
theorem logicalType_eq_toLogical :
    ∀ a : PhysicalArray, a.type.hasDictionary = false → a.logicalType = a.type.toLogical
  | list _ _ _ _ child, h => by
    rw [type, DataType.hasDictionary] at h
    rw [logicalType, type, DataType.toLogical, logicalType_eq_toLogical child h]
  | fixedList _ size _ child, h => by
    rw [type, DataType.hasDictionary] at h
    rw [logicalType, type, DataType.toLogical, logicalType_eq_toLogical child h,
      if_pos (Int.natCast_nonneg size), Int.toNat_natCast]
  | struct fields _, h => by
    rw [type, DataType.hasDictionary] at h
    rw [logicalType, type, DataType.toLogical, memberTypes_eq_toMembers fields h]
  | map _ _ _ _ _ key value, h => by
    simp only [type, DataType.hasDictionary, DataType.fieldsHaveDictionary, Bool.or_eq_false_iff,
      Bool.or_false] at h
    rw [logicalType, type, DataType.toLogical, logicalType_eq_toLogical key h.1,
      logicalType_eq_toLogical value h.2]
  | dictionary _ _ _, h => by cases h
  | float _ _, _ | null _, _ | boolean _, _ | int _ _, _ | utf8 _ _, _ | binary _ _, _
  | fixedBinary _ _, _ | date32 _, _ | date64 _, _ | time32 _ _, _ | time64 _ _, _
  | timestamp _ _ _, _ | monthDayNano _, _ | decimal128 _ _ _, _ | unread _ _, _ => rfl

theorem memberTypes_eq_toMembers : ∀ fields,
    DataType.fieldsHaveDictionary (fieldTypes fields) = false →
      memberTypes fields = DataType.toMembers (fieldTypes fields)
  | [], _ => rfl
  | (_, a) :: rest, h => by
    rw [fieldTypes, DataType.fieldsHaveDictionary, Bool.or_eq_false_iff] at h
    rw [memberTypes, fieldTypes, DataType.toMembers, logicalType_eq_toLogical a h.1,
      memberTypes_eq_toMembers rest h.2]

end

end PhysicalArray

namespace Batch

variable {fields : List (String × DataType)} {first : Batch} {rest : List Batch}

/-- The columns have the types of the fields. -/
def Follows (b : Batch) (fields : List (String × DataType)) : Prop :=
  b.columns.map PhysicalArray.type = fields.map Prod.snd

theorem mapM_columns {arrays : List PhysicalArray}
    (follows : arrays.map PhysicalArray.type = fields.map Prod.snd)
    (plain : ∀ field ∈ fields, field.2.hasDictionary = false) :
    (fields.zip arrays).mapM (fun item => namedType item.1.1 item.2.logicalType) =
      fields.mapM fun field => namedType field.1 field.2.toLogical := by
  induction fields generalizing arrays with
  | nil => rfl
  | cons field fields ih =>
    cases arrays with
    | nil => cases follows
    | cons a arrays =>
      obtain ⟨here, others⟩ := List.forall_mem_cons.mp plain
      obtain ⟨same, follows⟩ := List.cons_eq_cons.mp follows
      have typed : a.logicalType = field.2.toLogical := by
        rw [← same]
        exact a.logicalType_eq_toLogical (same ▸ here)
      rw [List.zip_cons_cons, List.mapM_cons, List.mapM_cons, ih follows others, typed]

/-- Without dictionaries the first batch decides what the fields decide without it. -/
theorem columnTypes_of_follows (follows : first.Follows fields)
    (plain : ∀ field ∈ fields, field.2.hasDictionary = false) :
    columnTypes fields (first :: rest) = columnTypes fields [] := by
  have width : first.columns.length = fields.length := by
    have lengths := congrArg List.length follows
    rwa [List.length_map, List.length_map] at lengths
  rw [columnTypes_cons width, mapM_columns follows plain]
  rfl

/-- Batches that are appended do not change the columns. -/
theorem columns_of_pushAll {batches : List Batch} {number : Nat} {r r' : StoredResult}
    (h : pushAll fields number r batches = .ok r') : r'.columns = r.columns := by
  induction batches generalizing r number with
  | nil =>
    cases h
    rfl
  | cons b batches ih =>
    rw [pushAll] at h
    obtain ⟨-, -, h⟩ := Result.bind_eq_ok.mp h
    obtain ⟨vectors, -, h⟩ := Result.bind_eq_ok.mp h
    obtain ⟨-, -, h⟩ := Result.bind_eq_ok.mp h
    obtain ⟨chunk, -, h⟩ := Result.bind_eq_ok.mp h
    obtain ⟨pushed, hp, h⟩ := Result.bind_eq_ok.mp h
    obtain ⟨-, -, hp⟩ := Result.bind_eq_ok.mp hp
    cases hp
    have same := ih h
    exact same

/-- The mappings of data types and of arrays agree where there is no dictionary at any depth, errors
included; so a result declares the same columns, or fails for the same part of the schema, whether it
has batches or not. A data type with a dictionary has no column type. The error is a wrong argument,
or names a part that no column has the type of and that is met before every dictionary. -/
theorem type_mappings_agree :
    (∀ a : PhysicalArray, a.type.hasDictionary = false → a.logicalType = a.type.toLogical) ∧
    (∀ fields (first : Batch) rest, first.Follows fields →
      (∀ field ∈ fields, field.2.hasDictionary = false) →
        columnTypes fields (first :: rest) = columnTypes fields [] ∧
        (∀ r, toResult fields (first :: rest) = .ok r →
          toResult fields [] = .ok ⟨r.columns, []⟩) ∧
        ∀ e, toResult fields [] = .error e → toResult fields (first :: rest) = .error e) ∧
    ∀ type : DataType, type.hasDictionary → ∃ e, type.toLogical = .error e ∧
      ((∃ fault, e = .argument fault) ∨
        ∃ before part after, type.parts = before ++ part :: after ∧ part.unsupported ∧
          (∀ key content, .dictionary key content ∉ before) ∧ e = .arrow (.noColumnType part)) := by
  refine ⟨PhysicalArray.logicalType_eq_toLogical, fun fields first rest follows plain => ?_,
    fun type h => DataType.toLogical_of_hasDictionary h⟩
  have same : columnTypes fields (first :: rest) = columnTypes fields [] :=
    columnTypes_of_follows follows plain
  refine ⟨same, fun r made => ?_, fun e failed => ?_⟩
  · rw [toResult, same] at made
    obtain ⟨columns, declared, made⟩ := Result.bind_eq_ok.mp made
    rw [toResult, declared, columns_of_pushAll made]
    rfl
  · rw [toResult] at failed ⊢
    rw [same]
    rcases Result.bind_eq_error.mp failed with declared | ⟨columns, -, impossible⟩
    · rw [declared]
      rfl
    · cases impossible

/-- A batch with a column of lists of pairs of texts; and a list of dictionaries. -/
theorem type_mappings_agree_on_lists :
    let a : PhysicalArray :=
      .list false "item" [0, 0] [true] (.fixedList "pair" 2 [] (.utf8 .views []))
    a.logicalType = a.type.toLogical ∧
      columnTypes [("a", a.type)] [⟨1, [a]⟩] = columnTypes [("a", a.type)] [] ∧
      ∃ e, (DataType.list false "item" (.dictionary (.int .i8) a.type)).toLogical = .error e := by
  intro a
  obtain ⟨arrays, batches, dictionaries⟩ := type_mappings_agree
  have plain : a.type.hasDictionary = false := by decide
  have fields : ∀ field ∈ [("a", a.type)], field.2.hasDictionary = false := by
    intro field hf
    obtain rfl := List.mem_singleton.mp hf
    exact plain
  obtain ⟨e, failed, -⟩ :=
    dictionaries (.list false "item" (.dictionary (.int .i8) a.type)) (by decide)
  exact ⟨arrays a plain, (batches [("a", a.type)] ⟨1, [a]⟩ [] rfl fields).1, e, failed⟩

end Batch
end TypedColumns.Arrow
