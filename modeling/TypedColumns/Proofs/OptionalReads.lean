import TypedColumns.Proofs.ConverterLaws
import TypedColumns.Proofs.Resolution

/-!
Optional values are read as the values are, with what is there wrapped and what is missing left
out, whether the target has optional readers of its own or its results are wrapped.
-/
namespace TypedColumns

open Result

namespace Converter

variable {t : Target}

/-- The second converter reads every element of any view as the first one does, and has a value for
those that are missing. -/
structure Lifts (plan : Converter t) (lifted : Converter (Target.option t)) : Prop where
  tryConvert : ∀ view row, Retargeted t (.option t) (fun x? y? => y? = x?.map some)
    (plan.tryConvert view row) (lifted.tryConvert view row)
  convert : ∀ view row require, Retargeted t (.option t) Eq
    (plan.tryConvert view row) (lifted.convert view row require)

/-- The plan with its results wrapped. -/
def optional (plan : Converter t) : Converter (Target.option t) :=
  plan.map (d := .option t) fun x => .ok (some x)

theorem bind_mapM_some {α : Type} (x : Result (Option α)) :
    (x >>= Option.mapM fun a => .ok (some a)) = x.map (Option.map some) := by
  cases x with
  | error e => rfl
  | ok x? => cases x? <;> rfl

theorem tryConvert_optional (plan : Converter t) (ht : plan.target = t) (view : ColumnView)
    (row : Nat) : Retargeted t (.option t) (fun x? y? => y? = x?.map some)
      (plan.tryConvert view row) (plan.optional.tryConvert view row) := by
  have read := plan.tryConvert_withTarget (.option t) view row
  rw [ht] at read
  rw [optional, map, tryConvert_mapWith, bind_mapM_some, map_eq_bind,
    ← bind_pure (plan.tryConvert view row)]
  apply read.bind
  rintro x? _ rfl
  exact .ok rfl

theorem lifts_optional (plan : Converter t) (ht : plan.target = t) : plan.Lifts plan.optional where
  tryConvert := plan.tryConvert_optional ht
  convert view row require := by
    rw [Converter.convert, ← bind_pure (plan.tryConvert view row)]
    apply (plan.tryConvert_optional ht view row).bind
    rintro x? _ rfl
    cases x? with
    | none => simpa [optional, Converter.map, mapWith, Target.isNullable] using .ok rfl
    | some x => exact .ok rfl

theorem prepare_optional (plan : Converter t) (ht : plan.target = t) (view : ColumnView) :
    Retargeted t (.option t) Lifts (plan.prepare view) (plan.optional.prepare view) := by
  have prepared := (plan.maps (fun x => .ok (some x)) (.option t) true).prepares view
  rw [ht] at prepared
  cases hb : plan.prepare view with
  | error e =>
    obtain ⟨e', he', alike⟩ := (hb ▸ prepared).of_error
    rw [optional, map, Target.isNullable, he']
    exact .error alike
  | ok bound =>
    obtain ⟨_, hm, rfl⟩ := (hb ▸ prepared).of_ok
    obtain ⟨read, -, rfl⟩ := prepare_eq_ok hb
    rw [optional, map, Target.isNullable, hm]
    exact .ok (lifts_optional _ ht)

end Converter

/-- Reading column `c` as optional values of `t` comes to reading it as `t`, whatever `t` is. The
column resolves for both or for neither; both plans prepare for the same views; and the optional
read has the element where there is one and none where it is missing, whether missing elements are
tolerated or not. The errors of both are the same up to the target that they name. -/
theorem Column.optional_reads (c : Column) (t : Target) :
    Retargeted t (.option t)
      (fun plan lifted => plan.Lifts lifted ∧
        ∀ view, Retargeted t (.option t) Converter.Lifts (plan.prepare view) (lifted.prepare view))
      (c.resolve t) (c.resolve (.option t)) := by
  have accepted : c.type.accepts (.option t) = c.type.accepts t := by simp [LogicalType.accepts]
  unfold resolve
  rcases c.checkTarget_eq t with ⟨ha, hc⟩ | ⟨ha, hc⟩
  · obtain ⟨plan, hp, hplan⟩ := LogicalType.typedPlan_isPlan c.valid ha
    have hc' : c.checkTarget (.option t) = .ok () := if_pos (accepted ▸ ha)
    rw [hc, hc', ok_bind, ok_bind, hp, LogicalType.typedPlan_option hp]
    exact .ok ⟨plan.lifts_optional hplan.target, plan.prepare_optional hplan.target⟩
  · have hc' : c.checkTarget (.option t) =
        .error (.typeMismatch c.kind c.storage (.target (.option t))) := if_neg (accepted ▸ ha)
    rw [hc, hc']
    exact .error (.mismatch _ _)

end TypedColumns
