import ProtoSchema.Proofs.Deriving

/-!
Computations carried over to other states. A computation carries over to another if the other one, from
the state that stands for its own, comes to the value that stands for its value or to the same failure,
and leaves the state that stands for its own. There is one rule for each way of putting computations
together.
-/
namespace ProtoSchema

variable {α β γ δ ε σ τ : Type}

/-- What `one` does to a state, `two` does to what `carry` makes of the state, and `change` to the value
that `one` ends with. -/
def Carries (carry : σ → τ) (change : α → β) (one : ExceptT ε (StateM σ) α)
    (two : ExceptT ε (StateM τ) β) : Prop :=
  ∀ state, (two.run.run (carry state)).run =
    ((one.run.run state).run.1.map change, carry (one.run.run state).run.2)

namespace Carries

variable {carry : σ → τ} {change : α → β} {one : ExceptT ε (StateM σ) α} {two : ExceptT ε (StateM τ) β}

theorem pure {value : α} {other : β} (same : change value = other) :
    Carries carry change (pure value : ExceptT ε (StateM σ) α)
      (pure other : ExceptT ε (StateM τ) β) := by
  subst same
  exact fun _ => rfl

theorem throw (failure : ε) :
    Carries carry change (throw failure : ExceptT ε (StateM σ) α)
      (throw failure : ExceptT ε (StateM τ) β) :=
  fun _ => rfl

theorem lift (result : Except ε α) :
    Carries carry change (liftM result : ExceptT ε (StateM σ) α)
      (liftM (result.map change) : ExceptT ε (StateM τ) β) := by
  intro state
  cases result <;> rfl

theorem bind {alter : γ → δ} {next : α → ExceptT ε (StateM σ) γ} {follow : β → ExceptT ε (StateM τ) δ}
    (first : Carries carry change one two)
    (second : ∀ value, Carries carry alter (next value) (follow (change value))) :
    Carries carry alter (one >>= next) (two >>= follow) := by
  intro state
  rw [run_bind, run_bind, first state]
  rcases (one.run.run state).run with ⟨failure | value, after⟩
  · rfl
  · exact second value after

theorem map {alter : γ → δ} {step : α → γ} {other : β → δ} (carries : Carries carry change one two)
    (maps : ∀ value, other (change value) = alter (step value)) :
    Carries carry alter (step <$> one) (other <$> two) := by
  rw [map_eq_pure_bind, map_eq_pure_bind]
  refine carries.bind fun value => ?_
  exact .pure (maps value).symm

theorem mapM {translate : γ → δ} {perform : γ → ExceptT ε (StateM σ) α}
    {act : δ → ExceptT ε (StateM τ) β} {steps : List γ}
    (each : ∀ step ∈ steps, Carries carry change (perform step) (act (translate step))) :
    Carries carry (List.map change) (steps.mapM perform) ((steps.map translate).mapM act) := by
  induction steps with
  | nil => exact .pure rfl
  | cons step rest ih =>
      rw [List.map_cons, List.mapM_cons, List.mapM_cons]
      refine (each step List.mem_cons_self).bind fun value => ?_
      refine (ih fun other member => each other (List.mem_cons_of_mem _ member)).bind fun values => ?_
      exact .pure rfl

end Carries

end ProtoSchema
