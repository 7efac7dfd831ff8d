import TypedColumns.Error
import Mathlib.Data.List.Forall2

/-!
Sequencing of results: a sequence goes on after a success and ends at the first error. Two results
are related when they are the same error, or related successes.
-/
namespace TypedColumns.Result

variable {α β γ δ : Type}

@[simp] theorem ok_bind (a : α) (f : α → Result β) : ((.ok a : Result α) >>= f) = f a := rfl

@[simp] theorem error_bind (e : Error) (f : α → Result β) :
    ((.error e : Result α) >>= f) = .error e := rfl

@[simp] theorem pure_eq (a : α) : (pure a : Result α) = .ok a := rfl

@[simp] theorem map_ok (f : α → β) (a : α) : Except.map f (.ok a : Result α) = .ok (f a) := rfl

@[simp] theorem map_error (f : α → β) (e : Error) :
    Except.map f (.error e : Result α) = .error e := rfl

theorem bind_eq_ok {x : Result α} {f : α → Result β} {b : β} :
    (x >>= f) = .ok b ↔ ∃ a, x = .ok a ∧ f a = .ok b := by
  cases x with
  | error e => simp
  | ok a => simp

theorem bind_eq_error {x : Result α} {f : α → Result β} {e : Error} :
    (x >>= f) = .error e ↔ x = .error e ∨ ∃ a, x = .ok a ∧ f a = .error e := by
  cases x with
  | error e' => simp
  | ok a => simp

theorem map_eq_ok {f : α → β} {x : Result α} {b : β} :
    Except.map f x = .ok b ↔ ∃ a, x = .ok a ∧ f a = b := by
  cases x with
  | error e => simp
  | ok a => simp

theorem map_eq_error {f : α → β} {x : Result α} {e : Error} :
    Except.map f x = .error e ↔ x = .error e := by
  cases x with
  | error e' => simp
  | ok a => simp

theorem map_eq_bind (x : Result α) (f : α → β) : Except.map f x = x >>= fun a => .ok (f a) := by
  cases x <;> rfl

@[simp] theorem isOk_ok (a : α) : (.ok a : Result α).isOk = true := rfl

@[simp] theorem isOk_error (e : Error) : (.error e : Result α).isOk = false := rfl

@[simp] theorem isOk_map (x : Result α) (f : α → β) : (x.map f).isOk = x.isOk := by
  cases x <;> rfl

/-- A step that cannot fail has no part in whether the whole does. -/
@[simp] theorem isOk_bind_ok (x : Result α) (f : α → β) :
    (x >>= fun a => (.ok (f a) : Result β)).isOk = x.isOk := by
  cases x <;> rfl

theorem isOk_iff {x : Result α} : x.isOk ↔ ∃ a, x = .ok a := by
  cases x <;> simp

/-- An error of the first two steps is the error of the whole. -/
theorem bind_bind_error {x : Result α} {f : α → Result β} {g : α → β → Result γ} {e : Error}
    (h : (x >>= f) = .error e) : (x >>= fun a => f a >>= g a) = .error e := by
  cases x with
  | error e' =>
    rw [error_bind] at h ⊢
    cases h
    rfl
  | ok a =>
    rw [ok_bind] at h ⊢
    rw [h, error_bind]

theorem mapM_congr {f g : α → Result β} {items : List α} (h : ∀ item ∈ items, f item = g item) :
    items.mapM f = items.mapM g := by
  induction items with
  | nil => rfl
  | cons item rest ih =>
    rw [List.mapM_cons, List.mapM_cons, h item List.mem_cons_self,
      ih fun other ho => h other (List.mem_cons_of_mem _ ho)]

theorem mapM_eq_map {f : α → Result β} {g : α → β} {items : List α}
    (h : ∀ item ∈ items, f item = .ok (g item)) : items.mapM f = .ok (items.map g) := by
  induction items with
  | nil => rfl
  | cons item rest ih =>
    rw [List.mapM_cons, h item List.mem_cons_self,
      ih fun other ho => h other (List.mem_cons_of_mem _ ho)]
    rfl

theorem ok_of_mapM {f : α → Result β} {items : List α} {bs : List β} (h : items.mapM f = .ok bs) :
    ∀ item ∈ items, ∃ b, f item = .ok b := by
  induction items generalizing bs with
  | nil => exact List.forall_mem_nil _
  | cons item rest ih =>
    rw [List.mapM_cons, bind_eq_ok] at h
    obtain ⟨b, hb, h⟩ := h
    obtain ⟨others, ho, -⟩ := bind_eq_ok.mp h
    exact List.forall_mem_cons.mpr ⟨⟨b, hb⟩, ih ho⟩

theorem mapM_eq_ok {f : α → Result β} {items : List α} {bs : List β} :
    items.mapM f = .ok bs ↔ List.Forall₂ (fun item b => f item = .ok b) items bs := by
  constructor
  · intro h
    induction items generalizing bs with
    | nil =>
      cases h
      exact .nil
    | cons item rest ih =>
      rw [List.mapM_cons, bind_eq_ok] at h
      obtain ⟨b, hb, h⟩ := h
      obtain ⟨others, ho, h⟩ := bind_eq_ok.mp h
      cases h
      exact .cons hb (ih ho)
  · intro h
    induction h with
    | nil => rfl
    | cons first _ ih =>
      rw [List.mapM_cons, first, ih]
      rfl

/-- Where each success is what `g` gives, so is a whole run of them. -/
theorem eq_map_of_mapM {f : α → Result β} {g : α → β} {items : List α} {bs : List β}
    (h : items.mapM f = .ok bs) (hg : ∀ item b, f item = .ok b → b = g item) :
    bs = items.map g := by
  have each : ∀ item ∈ items, f item = .ok (g item) := by
    intro item hi
    obtain ⟨b, hb⟩ := ok_of_mapM h item hi
    rw [hb, hg item b hb]
  rw [mapM_eq_map each] at h
  exact (Except.ok.inj h).symm

theorem mapM_eq_error {f : α → Result β} {items : List α} {e : Error}
    (h : items.mapM f = .error e) : ∃ item ∈ items, f item = .error e := by
  induction items with
  | nil => cases h
  | cons item rest ih =>
    rw [List.mapM_cons, bind_eq_error] at h
    rcases h with first | ⟨b, -, others⟩
    · exact ⟨item, List.mem_cons_self, first⟩
    · rw [bind_eq_error] at others
      rcases others with others | ⟨bs, -, h⟩
      · obtain ⟨other, ho, he⟩ := ih others
        exact ⟨other, List.mem_cons_of_mem _ ho, he⟩
      · cases h

/-- The error of a run is that of an item after which nothing is done, and before which all is. -/
theorem mapM_first_error {f : α → Result β} {items : List α} {e : Error}
    (h : items.mapM f = .error e) : ∃ before item after bs, items = before ++ item :: after ∧
      List.Forall₂ (fun item b => f item = .ok b) before bs ∧ f item = .error e := by
  induction items with
  | nil => cases h
  | cons item rest ih =>
    rw [List.mapM_cons, bind_eq_error] at h
    rcases h with first | ⟨b, hb, others⟩
    · exact ⟨[], item, rest, [], rfl, .nil, first⟩
    · rw [bind_eq_error] at others
      rcases others with others | ⟨bs, -, h⟩
      · obtain ⟨before, failing, after, bs, rfl, done, he⟩ := ih others
        exact ⟨item :: before, failing, after, b :: bs, rfl, .cons hb done, he⟩
      · cases h

/-- Every error of the result satisfies `P`. -/
def FailsOnly (P : Error → Prop) (x : Result α) : Prop := ∀ e, x = .error e → P e

namespace FailsOnly

variable {P Q : Error → Prop}

theorem ok (a : α) : FailsOnly P (.ok a : Result α) := by
  intro e he
  cases he

theorem error {e : Error} (h : P e) : FailsOnly P (.error e : Result α) := by
  rintro _ ⟨⟩
  exact h

theorem mono {x : Result α} (h : FailsOnly P x) (hpq : ∀ e, P e → Q e) : FailsOnly Q x :=
  fun e he => hpq e (h e he)

theorem bind {x : Result α} {f : α → Result β} (h : FailsOnly P x)
    (hf : ∀ a, x = .ok a → FailsOnly P (f a)) : FailsOnly P (x >>= f) := by
  intro e he
  rcases bind_eq_error.mp he with he | ⟨a, ha, he⟩
  · exact h e he
  · exact hf a ha e he

theorem map {x : Result α} (h : FailsOnly P x) (f : α → β) : FailsOnly P (x.map f) :=
  fun e he => h e (map_eq_error.mp he)

theorem mapM {f : α → Result β} {items : List α} (h : ∀ item ∈ items, FailsOnly P (f item)) :
    FailsOnly P (items.mapM f) := by
  intro e he
  obtain ⟨item, hi, he⟩ := mapM_eq_error he
  exact h item hi e he

end FailsOnly

/-- The same error, or successes related by `R`. -/
inductive Rel (R : α → β → Prop) : Result α → Result β → Prop where
  | ok {a : α} {b : β} (h : R a b) : Rel R (.ok a) (.ok b)
  | error (e : Error) : Rel R (.error e) (.error e)

namespace Rel

variable {R : α → β → Prop} {S : γ → δ → Prop}

theorem refl {R : α → α → Prop} (h : ∀ a, R a a) (x : Result α) : Rel R x x := by
  cases x with
  | error e => exact .error e
  | ok a => exact .ok (h a)

theorem mono {R' : α → β → Prop} {x : Result α} {y : Result β} (h : Rel R x y)
    (hr : ∀ a b, R a b → R' a b) : Rel R' x y := by
  cases h with
  | error e => exact .error e
  | ok h => exact .ok (hr _ _ h)

theorem bind {x : Result α} {y : Result β} (h : Rel R x y) {f : α → Result γ} {g : β → Result δ}
    (hfg : ∀ a b, R a b → Rel S (f a) (g b)) : Rel S (x >>= f) (y >>= g) := by
  cases h with
  | error e => exact .error e
  | ok h => exact hfg _ _ h

/-- Both sequences start with the same step. -/
theorem bind_same (x : Result α) {f : α → Result γ} {g : α → Result δ}
    (hfg : ∀ a, Rel S (f a) (g a)) : Rel S (x >>= f) (x >>= g) :=
  (refl (R := Eq) (fun _ => rfl) x).bind fun a _ h => h ▸ hfg a

theorem map {x : Result α} {y : Result β} (h : Rel R x y) {f : α → γ} {g : β → δ}
    (hfg : ∀ a b, R a b → S (f a) (g b)) : Rel S (x.map f) (y.map g) := by
  cases h with
  | error e => exact .error e
  | ok h => exact .ok (hfg _ _ h)

theorem map_left {S : γ → β → Prop} {x : Result α} {y : Result β} (h : Rel R x y) {f : α → γ}
    (hf : ∀ a b, R a b → S (f a) b) : Rel S (x.map f) y := by
  cases h with
  | error e => exact .error e
  | ok h => exact .ok (hf _ _ h)

theorem mapM {f : γ → Result α} {g : γ → Result β} {items : List γ}
    (h : ∀ item ∈ items, Rel R (f item) (g item)) :
    Rel (List.Forall₂ R) (items.mapM f) (items.mapM g) := by
  induction items with
  | nil => exact .ok .nil
  | cons item rest ih =>
    simp only [List.mapM_cons]
    apply bind (h item List.mem_cons_self)
    intro a b hab
    apply bind (ih fun other ho => h other (List.mem_cons_of_mem _ ho))
    intro as bs habs
    exact .ok (.cons hab habs)

end Rel
end TypedColumns.Result
