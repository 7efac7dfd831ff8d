import TypedColumns.Proofs.Results
import TypedColumns.Proofs.Types
import TypedColumns.Resolve

/-!
The compatibility check is the only authority for resolution: a plan is made exactly for the pairs
that the check accepts, every refusal is that of the check, and a plan says what it was made for.
-/
namespace TypedColumns

/-- Targets that are read from single slots, without plans for elements. -/
def Target.isLeaf : Target → Bool
  | option _ | value | struct | pairs | map .. | list _ | fixedList _ => false
  | _ => true

/-- The facts of a plan that reads columns of `type` as `t`. -/
structure Converter.IsPlan {c : Target} (plan : Converter c) (type : LogicalType) (t : Target) :
    Prop where
  target : plan.target = t
  kind : plan.kind = type.kind
  storage : plan.storage = type.storage
  policy : plan.defaultIsInvalid = t.isNullable
  bound : plan.isBound = !type.kind.isNested

namespace Converter.IsPlan

variable {c d : Target} {type : LogicalType} {t : Target}

theorem of_closed (h : type.kind.isNested = false) (read : Reader c.Host) :
    (Converter.ofReading type (.closed read) false).IsPlan type c :=
  ⟨rfl, rfl, rfl, Bool.false_or _, by rw [h]; rfl⟩

theorem of_unbound (h : type.kind.isNested = true) (bind : Binder c.Host) :
    (Converter.ofReading type (.unbound bind) false).IsPlan type c :=
  ⟨rfl, rfl, rfl, Bool.false_or _, by rw [h]; rfl⟩

theorem map {plan : Converter c} (h : plan.IsPlan type t) (f : c.Host → Result d.Host) :
    (plan.map f).IsPlan type d := by
  refine ⟨rfl, h.kind, h.storage, rfl, ?_⟩
  rw [← h.bound]
  cases hr : plan.reading <;> simp [Converter.map, mapWith, isBound, Reading.map, hr]

theorem retarget {plan : Converter c} (h : plan.IsPlan type t) (t' : Target) :
    (plan.retarget t').IsPlan type t' :=
  ⟨rfl, h.kind, h.storage, rfl, h.bound⟩

end Converter.IsPlan

namespace LogicalType

/-- Every column without children has a boxed reader. -/
theorem boxed?_isSome {type : LogicalType} (h : type.check = .ok ())
    (leaf : type.kind.isNested = false) : ∃ read, Reader.boxed? type = some read := by
  cases type with
  | scalar kind => cases kind <;> first | exact ⟨_, rfl⟩ | simp [check] at h
  | decimal width scale => exact ⟨_, rfl⟩
  | enum dictionary => exact ⟨_, rfl⟩
  | _ => simp [kind, Kind.isNested] at leaf

theorem boxedPlan_leaf {type : LogicalType} (leaf : type.kind.isNested = false)
    {read : Reader Value} (hr : Reader.boxed? type = some read) :
    boxedPlan type = .ok (.ofReading type (.closed read) false) := by
  cases type with
  | scalar kind => simp only [boxedPlan, hr]
  | decimal width scale => simp only [boxedPlan, hr]
  | enum dictionary => simp only [boxedPlan, hr]
  | _ => simp [kind, Kind.isNested] at leaf

variable {child key value : LogicalType} {members : List (String × LogicalType)}

theorem boxedPlan_list {plan : Converter Target.value} (h : boxedPlan child = .ok plan) :
    boxedPlan (list child) = .ok (.ofReading (list child)
      (.unbound (Binder.list plan none (Value.list : List Value → Value))) false) := by
  rw [boxedPlan, h]; rfl

theorem boxedPlan_array {plan : Converter Target.value} {size : Nat}
    (h : boxedPlan child = .ok plan) :
    boxedPlan (array child size) = .ok (.ofReading (array child size)
      (.unbound (Binder.list plan (some size) (Value.list : List Value → Value))) false) := by
  rw [boxedPlan, h]; rfl

theorem boxedPlan_struct {plans : List (Converter Target.value)}
    (h : boxedPlans members = .ok plans) :
    boxedPlan (struct members) = .ok ((structPlan (struct members) plans).map (d := .value)
      fun s => .ok (.struct s)) := by
  rw [boxedPlan, h]; rfl

theorem boxedPlan_map {keys values : Converter Target.value} (hk : boxedPlan key = .ok keys)
    (hv : boxedPlan value = .ok values) :
    boxedPlan (map key value) = .ok ((mapPlan (d := .pairs) (map key value) keys values id).map
      (d := .value) fun entries => .ok (.map entries)) := by
  rw [boxedPlan, hk, hv]; rfl

theorem boxedPlan_union {plans : List (Converter Target.value)}
    (h : boxedPlans members = .ok plans) :
    boxedPlan (union members) =
      .ok (.ofReading (union members) (.unbound (Binder.union tagPlan plans)) true) := by
  rw [boxedPlan, h]; rfl

/-- Members have the boxed plans that each of them has. -/
theorem boxedPlans_forall₂ {P : LogicalType → Converter Target.value → Prop}
    (h : ∀ m ∈ members, ∃ plan, boxedPlan m.2 = .ok plan ∧ P m.2 plan) :
    ∃ plans, boxedPlans members = .ok plans ∧
      List.Forall₂ (fun m plan => P m.2 plan) members plans := by
  induction members with
  | nil => exact ⟨[], rfl, .nil⟩
  | cons head rest ih =>
    obtain ⟨plan, hp, first⟩ := h head List.mem_cons_self
    obtain ⟨plans, hps, others⟩ := ih fun m hm => h m (List.mem_cons_of_mem _ hm)
    exact ⟨plan :: plans, by rw [boxedPlans, hp, hps]; rfl, .cons first others⟩

theorem boxedPlan_isPlan {type : LogicalType} (h : type.check = .ok ()) :
    ∃ plan, boxedPlan type = .ok plan ∧ plan.IsPlan type .value := by
  induction type using induction_on_members with
  | scalar kind =>
    have leaf : (scalar kind).kind.isNested = false := by
      cases kind <;> first | rfl | simp [check] at h
    obtain ⟨read, hr⟩ := boxed?_isSome h leaf
    exact ⟨_, boxedPlan_leaf leaf hr, .of_closed (c := .value) leaf read⟩
  | decimal width scale => exact ⟨_, boxedPlan_leaf rfl rfl, .of_closed rfl _⟩
  | enum dictionary => exact ⟨_, boxedPlan_leaf rfl rfl, .of_closed rfl _⟩
  | list child ih =>
    obtain ⟨plan, hp, -⟩ := ih h
    exact ⟨_, boxedPlan_list hp, .of_unbound rfl _⟩
  | array child size ih =>
    obtain ⟨plan, hp, -⟩ := ih h
    exact ⟨_, boxedPlan_array hp, .of_unbound rfl _⟩
  | struct members ih =>
    obtain ⟨plans, hps, -⟩ := boxedPlans_forall₂ (P := fun type plan => plan.IsPlan type .value)
      fun m hm => ih m hm (checkAll_of_mem h hm)
    exact ⟨_, boxedPlan_struct hps, .map (.of_unbound rfl _) _⟩
  | map key value ihk ihv =>
    obtain ⟨keys, hk, -⟩ := ihk (check_map_left h)
    obtain ⟨values, hv, -⟩ := ihv (check_map_right h)
    exact ⟨_, boxedPlan_map hk hv, .map (.of_unbound rfl _) _⟩
  | union alternatives ih =>
    obtain ⟨plans, hps, -⟩ := boxedPlans_forall₂ (P := fun type plan => plan.IsPlan type .value)
      fun m hm => ih m hm (checkAll_of_mem (checkAll_of_check_union h) hm)
    exact ⟨_, boxedPlan_union hps, rfl, rfl, rfl, rfl, rfl⟩

/-- Every column can be read boxed. -/
theorem accepts_value {type : LogicalType} (valid : type.check = .ok ()) : type.accepts .value := by
  cases type with
  | scalar kind => cases kind <;> first | rfl | cases valid
  | _ => rfl

theorem accepts_leaf (type : LogicalType) {t : Target} (leaf : t.isLeaf) :
    type.accepts t = type.kind.compatible type.storage t := by
  cases t with
  | option _ | value | struct | pairs | map _ _ | list _ | fixedList _ =>
    simp [Target.isLeaf] at leaf
  | _ => rfl

/-- The readers of slots cover exactly what the compatibility check accepts. -/
theorem typed?_isSome {type : LogicalType} (h : type.check = .ok ()) {t : Target}
    (leaf : t.isLeaf) : (Reader.typed? type t).isSome = type.accepts t := by
  rw [accepts_leaf type leaf]
  cases t with
  | option _ | value | struct | pairs | map _ _ | list _ | fixedList _ =>
    simp [Target.isLeaf] at leaf
  | int l =>
    -- Both sides ask whether the integers of the slots are integers of kind `l`.
    have hs (k : IntKind) (read : Reader (Word l)) :
        (if l.sources.contains k then some read else none).isSome = k.widensTo l := by
      rw [IntKind.sources_contains]
      cases k.widensTo l <;> rfl
    cases type with
    | scalar kind =>
      cases kind with
      | int k => exact hs k _
      | _ => rfl
    | enum dictionary => exact hs (enumStorage dictionary.size) _
    | _ => rfl
  | float f =>
    cases f with
    | single =>
      cases type with
      | scalar kind => cases kind <;> rfl
      | _ => rfl
    | double =>
      cases type with
      | scalar kind => cases kind <;> first | rfl | simp [check] at h
      | _ => rfl
  | _ =>
    cases type with
    | scalar kind => cases kind <;> first | rfl | simp [check] at h
    | _ => rfl

theorem typedPlan_leaf (type : LogicalType) {t : Target} (leaf : t.isLeaf) :
    typedPlan t type = match Reader.typed? type t with
      | some read => .ok (.ofReading type (.closed read) false)
      | none => type.refuse t := by
  cases t with
  | option _ | value | struct | pairs | map _ _ | list _ | fixedList _ =>
    simp [Target.isLeaf] at leaf
  | _ => rfl

theorem check_scalar_nested {kind : Kind} (h : (scalar kind).check = .ok ()) :
    kind.isNested = false := by
  cases kind <;> first | rfl | simp [check] at h

/-- Nested types have no readers of slots. -/
theorem not_nested_of_typed? {type : LogicalType} (h : type.check = .ok ()) {t : Target}
    {read : Reader t.Host} (hr : Reader.typed? type t = some read) :
    type.kind.isNested = false := by
  cases type with
  | scalar kind => exact check_scalar_nested h
  | decimal width scale => rfl
  | enum dictionary => rfl
  | _ =>
    cases t with
    | float f => cases f <;> cases hr
    | _ => cases hr

theorem struct_of_accepts {type : LogicalType} (h : type.check = .ok ())
    (ha : type.accepts .struct) : ∃ members, type = struct members := by
  cases type with
  | scalar kind =>
    obtain rfl : kind = .struct := beq_iff_eq.mp ha
    simp [check] at h
  | struct members => exact ⟨members, rfl⟩
  | _ => cases ha

theorem map_of_accepts_pairs {type : LogicalType} (h : type.check = .ok ())
    (ha : type.accepts .pairs) : ∃ key value, type = map key value := by
  cases type with
  | scalar kind =>
    obtain rfl : kind = .map := beq_iff_eq.mp ha
    simp [check] at h
  | map key value => exact ⟨key, value, rfl⟩
  | _ => cases ha

theorem map_of_accepts {type : LogicalType} {k v : Target} (h : type.check = .ok ())
    (ha : type.accepts (.map k v)) :
    ∃ key value, type = map key value ∧ key.accepts k ∧ value.accepts v := by
  obtain ⟨shape, elements⟩ := Bool.and_eq_true_iff.mp ha
  obtain ⟨key, value, rfl⟩ := map_of_accepts_pairs h shape
  exact ⟨key, value, rfl, Bool.and_eq_true_iff.mp elements⟩

/-- Sequences are read from a LIST, from an ARRAY, or from the bytes of a BLOB. -/
theorem elements_of_accepts_list {type : LogicalType} {t : Target} (h : type.check = .ok ())
    (ha : type.accepts (.list t)) :
    (∃ child, type.element? = some child ∧ child.check = .ok () ∧ child.accepts t) ∨
      (type = scalar .blob ∧ t = .int .u8) := by
  obtain ⟨shape, elements⟩ := Bool.and_eq_true_iff.mp ha
  cases type with
  | scalar kind =>
    have hk : kind = .list ∨ kind = .array ∨ kind = .blob ∧ t = .int .u8 := by
      simpa [Kind.compatible, Kind.readsAs, LogicalType.kind, or_assoc] using shape
    rcases hk with rfl | rfl | ⟨rfl, ht⟩
    · simp [check] at h
    · simp [check] at h
    · exact .inr ⟨rfl, ht⟩
  | list child => exact .inl ⟨child, rfl, h, elements⟩
  | array child size => exact .inl ⟨child, rfl, h, elements⟩
  | _ => simp [Kind.compatible, Kind.readsAs, LogicalType.kind] at shape

theorem accepts_fixedList (type : LogicalType) (t : Target) :
    type.accepts (.fixedList t) = type.accepts (.list t) := rfl

theorem listPlan_isPlan {c d : Target} {type child : LogicalType} (he : type.element? = some child)
    (element : Converter c) (finish : List c.Host → d.Host) :
    ∃ plan, listPlan type element finish = .ok plan ∧ plan.IsPlan type d := by
  cases type with
  | list child => exact ⟨_, rfl, .of_unbound rfl _⟩
  | array child size => exact ⟨_, rfl, .of_unbound rfl _⟩
  | _ => cases he

theorem typedPlan_list {t : Target} {type child : LogicalType} (he : type.element? = some child) :
    typedPlan (.list t) type =
      (do listPlan (d := .list t) type (← typedPlan t child) (id : List t.Host → List t.Host)) := by
  cases type <;> cases he <;> rfl

theorem typedPlan_fixedList {t : Target} {type child : LogicalType}
    (he : type.element? = some child) :
    typedPlan (.fixedList t) type = (do
      listPlan (d := .fixedList t) type (← typedPlan t child) (id : List t.Host → List t.Host)) := by
  cases type <;> cases he <;> rfl

/-- An optional reader is the plain reader of the same slots with its result wrapped. -/
theorem optional?_eq_some {type : LogicalType} {t : Target} {read : Reader (Option t.Host)}
    (h : Reader.optional? type t = some read) : t.isLeaf ∧ ∃ plain : Reader t.Host,
      Reader.typed? type t = some plain ∧ read = plain.map fun x => .ok (some x) := by
  cases t with
  | bool =>
    cases type with
    | scalar kind =>
      cases kind <;> cases h
      exact ⟨rfl, _, rfl, funext₂ fun view row => Result.map_eq_bind _ _⟩
    | _ => cases h
  | int l =>
    simp only [Reader.optional?] at h
    split at h
    · next k hk =>
      split at h
      · next widens =>
        cases h
        refine ⟨rfl, Reader.widened k l, by simp only [Reader.typed?, hk, widens, if_true], ?_⟩
        funext view row
        simp [Reader.optionalWidened, Reader.map, Reader.widened, Result.map_eq_bind]
      · cases h
    · cases h
  | float f =>
    cases f with
    | single =>
      cases type with
      | scalar kind =>
        cases kind <;> cases h
        exact ⟨rfl, _, rfl, funext₂ fun view row => Result.map_eq_bind _ _⟩
      | _ => cases h
    | double =>
      cases type with
      | scalar kind =>
        cases kind <;> cases h
        · refine ⟨rfl, _, rfl, funext₂ fun view row => ?_⟩
          simp [Reader.map, Result.map_eq_bind]
        · exact ⟨rfl, _, rfl, funext₂ fun view row => Result.map_eq_bind _ _⟩
      | _ => cases h
  | _ => cases h

/-- The optional readers of a target that is read by them alone leave out no column. -/
theorem typed?_eq_none {type : LogicalType} {t : Target} (ht : readsOptionally t)
    (h : Reader.optional? type t = none) : t.isLeaf ∧ Reader.typed? type t = none := by
  cases t with
  | bool =>
    cases type with
    | scalar kind => cases kind <;> first | exact ⟨rfl, rfl⟩ | cases h
    | _ => exact ⟨rfl, rfl⟩
  | int l =>
    refine ⟨rfl, ?_⟩
    simp only [Reader.optional?] at h
    cases hk : type.intSlot? with
    | none => simp [Reader.typed?, hk]
    | some k => simpa [Reader.typed?, hk] using h
  | float f =>
    cases f with
    | single =>
      cases type with
      | scalar kind => cases kind <;> first | exact ⟨rfl, rfl⟩ | cases h
      | _ => exact ⟨rfl, rfl⟩
    | double => simp [readsOptionally] at ht
  | _ => simp [readsOptionally] at ht

/-- The plan of optional values is the plan of the values with its results wrapped, whether it has
readers of its own or not. -/
theorem typedPlan_option {t : Target} {type : LogicalType} {plan : Converter t}
    (h : typedPlan t type = .ok plan) :
    typedPlan (.option t) type = .ok (plan.map (d := .option t) fun x => .ok (some x)) := by
  rw [typedPlan]
  cases hr : Reader.optional? type t with
  | some read =>
    obtain ⟨leaf, plain, typed, rfl⟩ := optional?_eq_some hr
    rw [typedPlan_leaf type leaf, typed] at h
    cases h
    rfl
  | none =>
    by_cases ht : readsOptionally t
    · obtain ⟨leaf, typed⟩ := typed?_eq_none ht hr
      rw [typedPlan_leaf type leaf, typed] at h
      cases h
    · simp [ht, h]

/-- Optional values have a plan only where the values have one. -/
theorem typedPlan_of_option {t : Target} {type : LogicalType} {lifted : Converter (Target.option t)}
    (h : typedPlan (.option t) type = .ok lifted) : ∃ plan, typedPlan t type = .ok plan ∧
      lifted = plan.map (d := .option t) fun x => .ok (some x) := by
  rw [typedPlan] at h
  have exists_plan : ∃ plan, typedPlan t type = .ok plan := by
    cases hr : Reader.optional? type t with
    | some read =>
      obtain ⟨leaf, plain, typed, -⟩ := optional?_eq_some hr
      exact ⟨_, by rw [typedPlan_leaf type leaf, typed]⟩
    | none =>
      by_cases ht : readsOptionally t
      · simp [hr, ht, refuse] at h
      · simp only [hr, ht] at h
        obtain ⟨plan, hp, -⟩ := Result.bind_eq_ok.mp h
        exact ⟨plan, hp⟩
  obtain ⟨plan, hp⟩ := exists_plan
  have both := typedPlan_option hp
  rw [typedPlan, h] at both
  exact ⟨plan, hp, Except.ok.inj both⟩

/-- The typed plan of an accepted pair. -/
theorem typedPlan_isPlan {t : Target} {type : LogicalType} (h : type.check = .ok ())
    (ha : type.accepts t) : ∃ plan, typedPlan t type = .ok plan ∧ plan.IsPlan type t := by
  induction t generalizing type with
  | option t ih =>
    obtain ⟨plan, hp, hplan⟩ := ih h (by simpa [accepts] using ha)
    exact ⟨_, typedPlan_option hp, hplan.map (d := .option t) _⟩
  | value => exact boxedPlan_isPlan h
  | struct =>
    obtain ⟨members, rfl⟩ := struct_of_accepts h ha
    obtain ⟨plans, hps, -⟩ := boxedPlans_forall₂ (P := fun type plan => plan.IsPlan type .value)
      fun m hm => boxedPlan_isPlan (checkAll_of_mem h hm)
    exact ⟨_, by rw [typedPlan, hps]; rfl, .of_unbound (c := .struct) rfl _⟩
  | pairs =>
    obtain ⟨key, value, rfl⟩ := map_of_accepts_pairs h ha
    obtain ⟨keys, hk, -⟩ := boxedPlan_isPlan (check_map_left h)
    obtain ⟨values, hv, -⟩ := boxedPlan_isPlan (check_map_right h)
    exact ⟨_, by rw [typedPlan, hk, hv]; rfl, .of_unbound (c := .pairs) rfl _⟩
  | map k v ihk ihv =>
    obtain ⟨key, value, rfl, hak, hav⟩ := map_of_accepts h ha
    obtain ⟨keys, hk, -⟩ := ihk (check_map_left h) hak
    obtain ⟨values, hv, -⟩ := ihv (check_map_right h) hav
    exact ⟨_, by rw [typedPlan, hk, hv]; rfl, .of_unbound (c := .map k v) rfl _⟩
  | list t ih =>
    rcases elements_of_accepts_list h ha with ⟨child, he, hc, hac⟩ | ⟨rfl, rfl⟩
    · obtain ⟨element, hp, -⟩ := ih hc hac
      obtain ⟨plan, hl, hplan⟩ := listPlan_isPlan (d := .list t) he element id
      exact ⟨plan, by simp [typedPlan_list he, hp, hl], hplan⟩
    · exact ⟨_, rfl, .of_closed (c := .list (.int .u8)) rfl _⟩
  | fixedList t ih =>
    rcases elements_of_accepts_list h (accepts_fixedList type t ▸ ha)
      with ⟨child, he, hc, hac⟩ | ⟨rfl, rfl⟩
    · obtain ⟨element, hp, -⟩ := ih hc hac
      obtain ⟨plan, hl, hplan⟩ := listPlan_isPlan (d := .fixedList t) he element id
      exact ⟨plan, by simp [typedPlan_fixedList he, hp, hl], hplan⟩
    · exact ⟨_, rfl, .of_closed (c := .fixedList (.int .u8)) rfl _⟩
  | _ =>
    rw [typedPlan_leaf type rfl]
    obtain ⟨read, hr⟩ := Option.isSome_iff_exists.mp ((typed?_isSome h rfl).trans ha)
    exact ⟨_, by rw [hr], .of_closed (not_nested_of_typed? h hr) read⟩

theorem boxedAs_isPlan {t : Target} {type : LogicalType} (h : type.check = .ok ())
    (ha : type.accepts t) : ∃ plan, boxedAs t type = .ok plan ∧ plan.IsPlan type t := by
  obtain ⟨plan, hp, hplan⟩ := typedPlan_isPlan h ha
  exact ⟨_, by rw [boxedAs, hp]; rfl, (hplan.map (d := .value) _).retarget t⟩

theorem variantPlan_list {t : Target} {type child : LogicalType} (he : type.element? = some child) :
    variantPlan (.list t) type = (do
      let plan : Converter Target.value ← listPlan type (← variantPlan t child) Value.list
      return plan.retarget (.list t)) := by
  cases type <;> cases he <;> rfl

theorem variantPlan_fixedList {t : Target} {type child : LogicalType}
    (he : type.element? = some child) :
    variantPlan (.fixedList t) type = (do
      let plan : Converter Target.value ← listPlan type (← variantPlan t child) Value.list
      return plan.retarget (.fixedList t)) := by
  cases type <;> cases he <;> rfl

/-- The plan of an accepted pair whose target is chosen at run time. -/
theorem variantPlan_isPlan {t : Target} {type : LogicalType} (h : type.check = .ok ())
    (ha : type.accepts t) : ∃ plan, variantPlan t type = .ok plan ∧ plan.IsPlan type t := by
  induction t generalizing type with
  | option t ih =>
    obtain ⟨plan, hp, hplan⟩ := ih h (by simpa [accepts] using ha)
    exact ⟨_, by rw [variantPlan, hp]; rfl, hplan.retarget (.option t)⟩
  | value => exact boxedPlan_isPlan h
  | map k v ihk ihv =>
    obtain ⟨key, value, rfl, hak, hav⟩ := map_of_accepts h ha
    obtain ⟨keys, hk, -⟩ := ihk (check_map_left h) hak
    obtain ⟨values, hv, -⟩ := ihv (check_map_right h) hav
    exact ⟨_, by rw [variantPlan, hk, hv]; rfl,
      .retarget (.of_unbound (c := .value) rfl _) (.map k v)⟩
  | list t ih =>
    rcases elements_of_accepts_list h ha with ⟨child, he, hc, hac⟩ | ⟨rfl, rfl⟩
    · obtain ⟨element, hp, -⟩ := ih hc hac
      obtain ⟨plan, hl, hplan⟩ := listPlan_isPlan (d := .value) he element Value.list
      exact ⟨_, by simp [variantPlan_list he, hp, hl], hplan.retarget _⟩
    · exact boxedAs_isPlan h ha
  | fixedList t ih =>
    rcases elements_of_accepts_list h (accepts_fixedList type t ▸ ha)
      with ⟨child, he, hc, hac⟩ | ⟨rfl, rfl⟩
    · obtain ⟨element, hp, -⟩ := ih hc hac
      obtain ⟨plan, hl, hplan⟩ := listPlan_isPlan (d := .value) he element Value.list
      exact ⟨_, by simp [variantPlan_fixedList he, hp, hl], hplan.retarget _⟩
    · exact boxedAs_isPlan h ha
  | enum name members =>
    cases type with
    | scalar kind =>
      obtain rfl : kind = .enum := beq_iff_eq.mp ha
      simp [check] at h
    | enum dictionary =>
      exact ⟨_, rfl, .retarget (.of_closed (c := .value) rfl _) (.enum name members)⟩
    | _ => cases ha
  | _ => exact boxedAs_isPlan h ha

end LogicalType

namespace Column

theorem checkTarget_eq (c : Column) (t : Target) :
    (c.type.accepts t ∧ c.checkTarget t = .ok ()) ∨
      (¬ c.type.accepts t ∧ c.checkTarget t = .error (.typeMismatch c.kind c.storage (.target t))) := by
  by_cases h : c.type.accepts t
  · exact .inl ⟨h, if_pos h⟩
  · exact .inr ⟨h, if_neg h⟩

/-- What a plan made of column `c` for `t` says about itself. -/
structure Planned (c : Column) (t : Target) {d : Target} (plan : Converter d) : Prop where
  target : plan.target = t
  kind : plan.kind = c.kind
  storage : plan.storage = c.storage
  policy : plan.defaultIsInvalid = true ↔ t = .value ∨ ∃ inner, t = .option inner
  bound : plan.isBound = false ↔ c.kind ∈ [Kind.list, .array, .struct, .map, .union]

theorem planned_of_isPlan {c : Column} {t d : Target} {plan : Converter d}
    (h : plan.IsPlan c.type t) : c.Planned t plan := by
  refine ⟨h.target, h.kind, h.storage, ?_, ?_⟩
  · rw [h.policy]
    cases t <;> simp [Target.isNullable]
  · rw [h.bound]
    show (!c.kind.isNested) = false ↔ _
    cases c.kind <;> simp [Kind.isNested]

/-- A resolver that starts with the check gives a plan exactly for the accepted targets, and the
refusal of the check for the others. -/
theorem checked_resolver {c : Column} {t d : Target} {make : Result (Converter d)}
    (resolved : Result (Converter d)) (hr : resolved = do c.checkTarget t; make)
    (h : c.type.accepts t → ∃ plan, make = .ok plan ∧ plan.IsPlan c.type t) :
    ((∃ plan, resolved = .ok plan) ↔ c.checkTarget t = .ok ()) ∧
    (∀ e, resolved = .error e → c.checkTarget t = .error e) ∧
    (∀ plan, resolved = .ok plan → c.Planned t plan) := by
  rcases c.checkTarget_eq t with ⟨ha, hc⟩ | ⟨-, hc⟩
  · obtain ⟨plan, hp, hplan⟩ := h ha
    rw [hc, Result.ok_bind, hp] at hr
    refine ⟨⟨fun _ => hc, fun _ => ⟨plan, hr⟩⟩, ?_, ?_⟩
    · intro e he
      rw [hr] at he
      contradiction
    · intro other ho
      obtain rfl : plan = other := by simpa [hr] using ho
      exact planned_of_isPlan hplan
  · rw [hc, Result.error_bind] at hr
    refine ⟨by simp [hr, hc], ?_, ?_⟩
    · intro e he
      rw [hr] at he
      cases he
      exact hc
    · intro plan hp
      rw [hr] at hp
      contradiction

/-- A column resolves for a target, known in advance or chosen at run time, exactly when the
compatibility check accepts the pair. A refusal is always the one of the whole column and the whole
target, and a plan declares the target, the source, the null policy and the binding that these
determine. -/
theorem resolves_iff_accepted (c : Column) (t : Target) :
    ((∃ plan, c.resolve t = .ok plan) ↔ c.checkTarget t = .ok ()) ∧
    ((∃ plan, c.resolveVariant t = .ok plan) ↔ c.checkTarget t = .ok ()) ∧
    (∀ e, c.checkTarget t = .error e ∨ c.resolve t = .error e ∨ c.resolveVariant t = .error e →
      e = .typeMismatch c.kind c.storage (.target t) ∧
      e.message = s!"cannot read {c.kind.name} column (stored as {c.storage.name}) as {t.text}") ∧
    (∀ plan, c.resolve t = .ok plan → c.Planned t plan) ∧
    (∀ plan, c.resolveVariant t = .ok plan → c.Planned t plan) := by
  obtain ⟨typed, typedRefusal, typedPlanned⟩ :=
    checked_resolver (c.resolve t) rfl (LogicalType.typedPlan_isPlan c.valid)
  obtain ⟨variant, variantRefusal, variantPlanned⟩ :=
    checked_resolver (c.resolveVariant t) rfl (LogicalType.variantPlan_isPlan c.valid)
  refine ⟨typed, variant, ?_, typedPlanned, variantPlanned⟩
  intro e he
  have refused : c.checkTarget t = .error e := by
    rcases he with h | h | h
    · exact h
    · exact typedRefusal e h
    · exact variantRefusal e h
  rcases c.checkTarget_eq t with ⟨-, hc⟩ | ⟨-, hc⟩
  · rw [hc] at refused
    contradiction
  · rw [hc] at refused
    cases refused
    exact ⟨rfl, rfl⟩

end Column
end TypedColumns
