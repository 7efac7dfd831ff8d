import TypedColumns.Proofs.Binding

/-!
The life of a converter. An unbound one reads nothing, a closed one is not bound again, and every
view is bound on its own. Mapping commutes with binding, mappings compose, and a mapping sees
nothing but the values that are read.
-/
namespace TypedColumns

/-- The second error is the first one, with the target `u` where the first names `t`. -/
inductive Error.Retargeted (t u : Target) : Error → Error → Prop where
  | same (e : Error) : Retargeted t u e e
  | mismatch (declared storage : Kind) : Retargeted t u
      (.typeMismatch declared storage (.target t)) (.typeMismatch declared storage (.target u))
  | source (declared storage kind : Kind) : Retargeted t u
      (.typeMismatch declared storage (.converter t kind))
      (.typeMismatch declared storage (.converter u kind))
  | null (row : Nat) : Retargeted t u (.nullViolation row t) (.nullViolation row u)
  | alreadyBound : Retargeted t u (.alreadyBound t) (.alreadyBound u)
  | notBound : Retargeted t u (.notBound t) (.notBound u)

/-- Successes that `R` relates, or one error up to the target that it names. -/
inductive Result.Retargeted (t u : Target) {α β : Type} (R : α → β → Prop) :
    Result α → Result β → Prop where
  | ok {a : α} {b : β} (h : R a b) : Retargeted t u R (.ok a) (.ok b)
  | error {e e' : Error} (h : e.Retargeted t u e') : Retargeted t u R (.error e) (.error e')

namespace Result.Retargeted

variable {t u : Target} {α β γ δ : Type} {R : α → β → Prop} {T : γ → δ → Prop}

theorem refl {R : α → α → Prop} (h : ∀ a, R a a) (x : Result α) : Retargeted t u R x x := by
  cases x with
  | ok a => exact .ok (h a)
  | error e => exact .error (.same e)

theorem eq_ok {x : Result α} {b : β} (h : Retargeted t u R x (.ok b)) : ∃ a, x = .ok a ∧ R a b := by
  cases h with
  | ok h => exact ⟨_, rfl, h⟩

theorem of_ok {a : α} {y : Result β} (h : Retargeted t u R (.ok a) y) : ∃ b, y = .ok b ∧ R a b := by
  cases h with
  | ok h => exact ⟨_, rfl, h⟩

theorem of_error {e : Error} {y : Result β} (h : Retargeted t u R (.error e) y) :
    ∃ e', y = .error e' ∧ e.Retargeted t u e' := by
  cases h with
  | error h => exact ⟨_, rfl, h⟩

theorem bind {x : Result α} {y : Result β} (h : Retargeted t u R x y) {f : α → Result γ}
    {g : β → Result δ} (hfg : ∀ a b, R a b → Retargeted t u T (f a) (g b)) :
    Retargeted t u T (x >>= f) (y >>= g) := by
  cases h with
  | ok h => exact hfg _ _ h
  | error h => exact .error h

end Result.Retargeted

/-- Mappings, one after the other, each with the target and the null policy that it declares. -/
inductive Mappings : Type → Type → Type 1 where
  | last {α β : Type} (f : α → Result β) (target : Target) (defaultIsInvalid : Bool) :
      Mappings α β
  | next {α β γ : Type} (f : α → Result β) (target : Target) (defaultIsInvalid : Bool)
      (rest : Mappings β γ) : Mappings α γ

namespace Mappings

/-- The functions of all mappings up to the first error. -/
def run {α β : Type} : Mappings α β → α → Result β
  | last f _ _ => f
  | next f _ _ rest => fun x => f x >>= rest.run

/-- The target declared by the last mapping. -/
def target {α β : Type} : Mappings α β → Target
  | last _ target _ => target
  | next _ _ _ rest => rest.target

/-- The null policy declared by the last mapping. -/
def defaultIsInvalid {α β : Type} : Mappings α β → Bool
  | last _ _ defaultIsInvalid => defaultIsInvalid
  | next _ _ _ rest => rest.defaultIsInvalid

def apply {α β : Type} : Mappings α β → Converter α → Converter β
  | last f target defaultIsInvalid, conv => conv.mapWith f target defaultIsInvalid
  | next f target defaultIsInvalid rest, conv =>
    rest.apply (conv.mapWith f target defaultIsInvalid)

end Mappings

theorem Reading.map_map {α β γ : Type} (reading : Reading α) (f : α → Result β)
    (g : β → Result γ) : (reading.map f).map g = reading.map fun x => f x >>= g := by
  have readers (read : Reader α) : (read.map f).map g = read.map fun x => f x >>= g := by
    funext view row
    simp [Reader.map]
  cases reading with
  | closed read => simp [map, readers]
  | unbound bind =>
    simp only [map, unbound.injEq]
    funext view
    cases bind view <;> simp [readers]

namespace Converter

variable {α β γ : Type} (conv : Converter α) (f : α → Result β) (target : Target) (policy : Bool)

/-- The converter with another target in its errors. -/
def withTarget : Converter α := { conv with target := target }

theorem checkSource_withTarget (view : ColumnView) :
    Result.Retargeted conv.target target Eq (conv.checkSource view)
      ((conv.withTarget target).checkSource view) := by
  unfold checkSource withTarget
  by_cases source : view.kind = conv.kind ∧ view.column.storage = conv.storage
  · simpa only [if_pos source] using .ok rfl
  · simpa only [if_neg source] using .error (.source _ _ _)

theorem bindTo_withTarget (view : ColumnView) :
    Result.Retargeted conv.target target (fun bound bound' => bound' = bound.withTarget target)
      (conv.bindTo view) ((conv.withTarget target).bindTo view) := by
  have source := conv.checkSource_withTarget target view
  cases hr : conv.reading with
  | closed read =>
    simp only [bindTo, withTarget, hr]
    exact .error .alreadyBound
  | unbound bind =>
    simp only [bindTo, withTarget, hr] at source ⊢
    apply source.bind
    rintro _ _ -
    cases bind view with
    | error e => exact .error (.same e)
    | ok read => exact .ok rfl

theorem tryConvert_withTarget (view : ColumnView) (row : Nat) :
    Result.Retargeted conv.target target Eq (conv.tryConvert view row)
      ((conv.withTarget target).tryConvert view row) := by
  have source := conv.checkSource_withTarget target view
  cases hr : conv.reading with
  | unbound bind =>
    simp only [tryConvert, withTarget, hr]
    exact .error .notBound
  | closed read =>
    simp only [tryConvert, withTarget, hr] at source ⊢
    exact source.bind fun _ _ _ => .refl (fun _ => rfl) _

@[simp] theorem isBound_mapWith : (conv.mapWith f target policy).isBound = conv.isBound := by
  cases h : conv.reading <;> simp [mapWith, isBound, h, Reading.map]

theorem mapWith_mapWith (g : β → Result γ) (target' : Target) (policy' : Bool) :
    (conv.mapWith f target policy).mapWith g target' policy' =
      conv.mapWith (fun x => f x >>= g) target' policy' := by
  simp [mapWith, Reading.map_map]

/-- A converter that is mapped after binding reads no less than one mapped before. -/
theorem bindTo_mapWith (view : ColumnView) : (conv.mapWith f target policy).bindTo view =
    ((conv.withTarget target).bindTo view).map fun bound => bound.mapWith f target policy := by
  cases hr : conv.reading with
  | closed read => simp [bindTo, mapWith, withTarget, Reading.map, hr]
  | unbound bind =>
    simp only [bindTo, mapWith, withTarget, Reading.map, hr, Result.map_eq_bind, bind_assoc]
    rfl

/-- A mapped converter reads what the converter reads and passes on what is not missing. -/
theorem tryConvert_mapWith (view : ColumnView) (row : Nat) :
    (conv.mapWith f target policy).tryConvert view row =
      (conv.withTarget target).tryConvert view row >>= Option.mapM f := by
  cases hr : conv.reading with
  | unbound bind => simp [tryConvert, mapWith, withTarget, Reading.map, hr]
  | closed read =>
    simp only [tryConvert, mapWith, withTarget, Reading.map, hr, bind_assoc]
    congr 1
    funext _
    congr 1
    funext valid
    cases valid with
    | false => rfl
    | true =>
      simp only [Reader.map, if_true, Result.map_eq_bind, bind_assoc]
      rfl

/-- A mapping is asked for nothing but the element that the row holds. -/
theorem tryConvert_mapWith_congr {g : α → Result β} {view : ColumnView} {row : Nat}
    (h : ∀ x, conv.tryConvert view row = .ok (some x) → f x = g x) :
    (conv.mapWith f target policy).tryConvert view row =
      (conv.mapWith g target policy).tryConvert view row := by
  rw [tryConvert_mapWith, tryConvert_mapWith]
  have read := conv.tryConvert_withTarget target view row
  cases hr : (conv.withTarget target).tryConvert view row with
  | error e => rfl
  | ok x? =>
    cases x? with
    | none => rfl
    | some x =>
      have same : f x = g x := by
        apply h
        obtain ⟨_, hx, rfl⟩ := (hr ▸ read).eq_ok
        exact hx
      simp [same]

theorem apply_eq_mapWith (ms : Mappings α β) (conv : Converter α) :
    ms.apply conv = conv.mapWith ms.run ms.target ms.defaultIsInvalid := by
  induction ms with
  | last f target policy => rfl
  | next f target policy rest ih => rw [Mappings.apply, ih, mapWith_mapWith]; rfl

theorem bindTo_unbound {bind : Binder α} (hr : conv.reading = .unbound bind) (view : ColumnView) :
    conv.bindTo view = (do
      conv.checkSource view
      (bind view).map conv.withReader) := by
  simp only [bindTo, hr, Result.map_eq_bind]
  rfl

/-- The life of a converter: what it refuses before it looks at anything, what binding makes of it,
and which of the two `prepare` is. -/
structure Lifecycle : Prop where
  notBound : conv.isBound = false →
    ∀ view row, conv.tryConvert view row = .error (.notBound conv.target)
  alreadyBound : conv.isBound = true →
    ∀ view, conv.bindTo view = .error (.alreadyBound conv.target)
  /-- A plan is bound to each view on its own, as often as that is asked for. -/
  binds : conv.isBound = false → ∃ bind : Binder α, ∀ view, conv.bindTo view = (do
    conv.checkSource view
    (bind view).map conv.withReader)
  prepares : ∀ view, conv.prepare view = if conv.isBound then .ok conv else conv.bindTo view

theorem lifecycle : conv.Lifecycle := by
  cases hr : conv.reading with
  | closed read =>
    have closed : conv.isBound = true := by simp [isBound, hr]
    constructor
    case notBound => simp [closed]
    case alreadyBound => simp [bindTo, hr]
    case binds => simp [closed]
    case prepares => simp [prepare]
  | unbound bind =>
    have opened : conv.isBound = false := by simp [isBound, hr]
    constructor
    case notBound => simp [tryConvert, hr]
    case alreadyBound => simp [opened]
    case binds => exact fun _ => ⟨bind, conv.bindTo_unbound hr⟩
    case prepares => simp [prepare]

/-- What mapping makes of a converter, against the converter itself. -/
structure Maps : Prop where
  isBound : (conv.mapWith f target policy).isBound = conv.isBound
  /-- Binding before or after comes to the same converter; without one, the errors are alike. -/
  binds : ∀ view, Result.Retargeted conv.target target
    (fun bound mapped => mapped = bound.mapWith f target policy)
    (conv.bindTo view) ((conv.mapWith f target policy).bindTo view)
  binderErrors : conv.isBound = false → ∀ view, conv.checkSource view = .ok () → ∀ e,
    (conv.mapWith f target policy).bindTo view = .error e ↔ conv.bindTo view = .error e
  prepares : ∀ view, Result.Retargeted conv.target target
    (fun bound mapped => mapped = bound.mapWith f target policy)
    (conv.prepare view) ((conv.mapWith f target policy).prepare view)
  failed : ∀ view row e, conv.tryConvert view row = .error e → ∃ e',
    (conv.mapWith f target policy).tryConvert view row = .error e' ∧
      e.Retargeted conv.target target e'
  missing : ∀ view row, (conv.mapWith f target policy).tryConvert view row = .ok none ↔
    conv.tryConvert view row = .ok none
  value : ∀ view row x, conv.tryConvert view row = .ok (some x) →
    (conv.mapWith f target policy).tryConvert view row = (f x).map some
  /-- The function is asked for nothing but the element that the row holds. -/
  asks : ∀ (g : α → Result β) view row,
    (∀ x, conv.tryConvert view row = .ok (some x) → f x = g x) →
    (conv.mapWith f target policy).tryConvert view row =
      (conv.mapWith g target policy).tryConvert view row

theorem bindTo_mapWith_retargeted (view : ColumnView) : Result.Retargeted conv.target target
    (fun bound mapped => mapped = bound.mapWith f target policy)
    (conv.bindTo view) ((conv.mapWith f target policy).bindTo view) := by
  rw [bindTo_mapWith]
  have bound := conv.bindTo_withTarget target view
  generalize conv.bindTo view = x, (conv.withTarget target).bindTo view = y at bound
  cases bound with
  | ok h => exact .ok (by rw [h]; rfl)
  | error h => exact .error h

theorem maps : conv.Maps f target policy where
  isBound := conv.isBound_mapWith f target policy
  binds := conv.bindTo_mapWith_retargeted f target policy
  binderErrors opened view source e := by
    cases hr : conv.reading with
    | closed read => simp [Converter.isBound, hr] at opened
    | unbound bind =>
      obtain ⟨_, source', -⟩ := (source ▸ conv.checkSource_withTarget target view).of_ok
      have renamed : (conv.withTarget target).reading = .unbound bind := hr
      rw [bindTo_mapWith, conv.bindTo_unbound hr, bindTo_unbound _ renamed, source, source']
      simp [Result.map_eq_error]
  prepares view := by
    simp only [prepare, isBound_mapWith]
    split
    · exact .ok rfl
    · exact conv.bindTo_mapWith_retargeted f target policy view
  failed view row e h := by
    obtain ⟨e', he', alike⟩ := (h ▸ conv.tryConvert_withTarget target view row).of_error
    exact ⟨e', by rw [tryConvert_mapWith, he']; rfl, alike⟩
  missing view row := by
    have read := conv.tryConvert_withTarget target view row
    rw [tryConvert_mapWith]
    cases h : conv.tryConvert view row with
    | error e =>
      obtain ⟨e', he', -⟩ := (h ▸ read).of_error
      simp [he']
    | ok x? =>
      obtain ⟨_, hx, rfl⟩ := (h ▸ read).of_ok
      rw [hx, Result.ok_bind]
      cases x? with
      | none => exact iff_of_true rfl rfl
      | some x => cases hf : f x <;> simp [hf]
  value view row x h := by
    obtain ⟨_, hx, rfl⟩ := (h ▸ conv.tryConvert_withTarget target view row).of_ok
    rw [tryConvert_mapWith, hx, Result.map_eq_bind]
    rfl
  asks g view row h := conv.tryConvert_mapWith_congr f target policy h

/-- Every converter, however it was made, lives and is mapped by the same laws. An unbound one
refuses every read and a closed one every binding, before anything else is looked at; a plan stays
as it is and binds each view on its own. A mapped converter is bound like the one it was made of,
reads what that one reads, and passes on nothing but elements that are there; a missing one is left
to the null policy of the mapping. Mappings one after the other are one mapping by all their
functions up to the first error, under the target and the null policy declared last. -/
theorem lifecycle_and_mapping :
    (∀ {α : Type} (conv : Converter α), conv.Lifecycle) ∧
    (∀ {c : Target} (conv : Converter c), conv.isBound = false → ∀ view row require,
      conv.convert view row require = .error (.notBound conv.target)) ∧
    (∀ {α β : Type} (conv : Converter α) (f : α → Result β) target policy,
      conv.Maps f target policy) ∧
    (∀ {α : Type} {d : Target} (conv : Converter α) (f : α → Result d) target policy view row
      require, conv.tryConvert view row = .ok none →
      Converter.convert (c := d) (conv.mapWith f target policy) view row require =
        if require && !policy then .error (.nullViolation row target) else .ok d.missing) ∧
    (∀ {α β : Type} (conv : Converter α) (ms : Mappings α β),
      ms.apply conv = conv.mapWith ms.run ms.target ms.defaultIsInvalid) := by
  refine ⟨fun conv => conv.lifecycle, ?_, fun conv => conv.maps, ?_,
    fun conv ms => apply_eq_mapWith ms conv⟩
  · intro c conv opened view row require
    rw [convert, conv.lifecycle.notBound opened, Result.error_bind]
  · intro α d conv f target policy view row require missing
    rw [convert, ((conv.maps f target policy).missing view row).mpr missing, Result.ok_bind]
    rfl

/-- A column of a true element and a missing one, read by a plan and through two mappings, of which
the first one fails for false and the last one takes missing elements for false. -/
theorem lifecycle_and_mapping_of_booleans :
    let column : Column := ⟨.scalar .boolean, rfl⟩
    let native : NativeVector := ⟨.scalar .boolean, 2, #[1, 0], some #[1], #[], [], 0⟩
    let view : ColumnView := ⟨column, 2, native, []⟩
    let plan : Converter Target.bool := .unbound column (fun _ => .ok Reader.bool) false
    let closed : Converter Target.bool := .stateless column Reader.bool
    let checked (x : Bool) : Result Bool := if x then .ok x else .error .unreadable
    let mappings : Mappings Bool Bool :=
      .next checked .bool false (.last (fun x => .ok (!x)) .bool true)
    let mapped : Converter Target.bool := mappings.apply closed
    plan.isBound = false ∧ plan.convert view 0 true = .error (.notBound .bool) ∧
      closed.isBound = true ∧ closed.bindTo view = .error (.alreadyBound .bool) ∧
      closed.tryConvert view 0 = .ok (some true) ∧
      mapped.tryConvert view 0 = .ok (some false) ∧
      closed.tryConvert view 1 = .ok none ∧ mapped.convert view 1 true = .ok false := by
  intro column native view plan closed checked mappings mapped
  obtain ⟨life, unbound, maps, missing, composed⟩ := lifecycle_and_mapping
  have composition : mapped = closed.mapWith mappings.run mappings.target true :=
    composed closed mappings
  have present : closed.tryConvert view 0 = .ok (some true) := by cbv
  have absent : closed.tryConvert view 1 = .ok none := by cbv
  refine ⟨rfl, unbound plan rfl view 0 true, rfl, (life closed).alreadyBound rfl view, present, ?_,
    absent, ?_⟩
  · rw [composition, (maps closed _ _ _).value view 0 true present]
    rfl
  · rw [composition, missing closed _ _ _ view 1 true absent]
    rfl

end Converter
end TypedColumns
