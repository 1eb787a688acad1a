import DoubleEntry.Fault

/-!
# Calculations

A calculation over bounded decimals either faults or ends with a result. A
result carries one sticky flag that says whether any step on the way to it was
rounded, so "in exact arithmetic" is a property of the very run that produced
the answer and not of a second program: `Exactly` says that a run ended with a
result and took no rounded step, and a sequence does so when each step does.
-/

namespace DoubleEntry

/-- The end of a calculation: a fault, or a result and its rounding flag. -/
inductive Calc (α : Type u) where
  | fault (reason : Fault)
  | done (result : α) (rounded : Bool)
deriving DecidableEq, Repr

namespace Calc

def exact (result : α) : Calc α :=
  .done result false

/-- Continue with the result; a rounded step is never forgotten. -/
def andThen (first : Calc α) (next : α → Calc β) : Calc β :=
  match first with
  | .fault reason => .fault reason
  | .done result rounded =>
    match next result with
    | .fault reason => .fault reason
    | .done result' rounded' => .done result' (rounded || rounded')

instance : Monad Calc where
  pure := exact
  bind := andThen

instance : LawfulMonad Calc := LawfulMonad.mk' Calc
  (by
    intro α x
    cases x <;> simp [Functor.map, andThen, exact])
  (by
    intro α β x f
    cases h : f x <;> simp [bind, pure, andThen, exact, h])
  (by
    intro α β γ x f g
    cases x with
    | fault => rfl
    | done a r =>
      cases hf : f a with
      | fault => simp [bind, andThen, hf]
      | done b r' => cases hg : g b <;> simp [bind, andThen, hf, hg, Bool.or_assoc])

@[simp] theorem pure_eq_done (x : α) : (pure x : Calc α) = .done x false :=
  rfl

@[simp] theorem fault_bind (reason : Fault) (next : α → Calc β) :
    (Calc.fault reason >>= next) = .fault reason :=
  rfl

theorem done_bind (x : α) (rounded : Bool) (next : α → Calc β) :
    (Calc.done x rounded >>= next) =
      match next x with
      | .fault reason => .fault reason
      | .done y rounded' => .done y (rounded || rounded') :=
  rfl

@[simp] theorem exact_bind (x : α) (next : α → Calc β) :
    (Calc.done x false >>= next) = next x := by
  rw [done_bind]
  cases next x <;> simp

def outcome : Calc α → Except Fault α
  | .fault reason => .error reason
  | .done result _ => .ok result

/-- `run` ends with `result` and no step of it was rounded. -/
def Exactly (run : Calc α) (result : α) : Prop :=
  run = .done result false

/-- `run` ends with `result`, rounded or not. -/
def Yields (run : Calc α) (result : α) : Prop :=
  run.outcome = .ok result

theorem Exactly.yields {run : Calc α} {result : α} (h : run.Exactly result) :
    run.Yields result := by
  simp [Exactly] at h
  simp [Yields, h, outcome]

theorem exactly_pure_iff (x y : α) : (pure x : Calc α).Exactly y ↔ x = y := by
  simp [Exactly]

theorem exactly_bind_iff (first : Calc α) (next : α → Calc β) (y : β) :
    (first >>= next).Exactly y ↔ ∃ x, first.Exactly x ∧ (next x).Exactly y := by
  cases first with
  | fault reason => simp [Exactly]
  | done x rounded =>
    cases h : next x with
    | fault reason => simp [Exactly, done_bind, h]
    | done z rounded' =>
      simp only [Exactly, done_bind, h, done.injEq, Bool.or_eq_false_iff]
      constructor
      · rintro ⟨rfl, hfirst, hnext⟩
        exact ⟨x, ⟨rfl, hfirst⟩, by rw [h, hnext]⟩
      · rintro ⟨x', ⟨rfl, hfirst⟩, hnext⟩
        rw [h] at hnext
        simp_all

theorem yields_pure_iff (x y : α) : (pure x : Calc α).Yields y ↔ x = y := by
  simp [Yields, outcome]

theorem yields_bind_iff (first : Calc α) (next : α → Calc β) (y : β) :
    (first >>= next).Yields y ↔ ∃ x, first.Yields x ∧ (next x).Yields y := by
  cases first with
  | fault reason => simp [Yields, outcome]
  | done x rounded => cases h : next x <;> simp [Yields, outcome, done_bind, h]

end Calc

end DoubleEntry
