/-!
# Values with a trace

A computation that leaves steps behind: log lines, calls, effects. The steps of two computations in
turn are those of the first followed by those of the second, so what happened, and in which order,
can be read off the result.

## Main definitions

* `Traced σ α` — a value and the steps that led to it
* `Traced.record` — one step
* `Traced.mapSteps` — the same computation with other steps

## Main results

* `Traced.steps_bind`, `Traced.value_bind` — computations in turn
* `Traced.value_mapM`, `Traced.value_anyM` — computations over a list
* `Traced.value_run_bind`, `Traced.steps_run_bind` — computations that may fail, in turn
* `Traced.run_bind_of_ok`, `Traced.run_bind_of_error` — the same, once the first is known
* instance `LawfulMonad (Traced σ)`
-/

namespace HeadScout

/-- A value and the steps that led to it. -/
@[ext] structure Traced (σ α : Type) where
  value : α
  steps : List σ
  deriving DecidableEq, Repr

namespace Traced

variable {σ τ α β : Type}

instance : Monad (Traced σ) where
  pure a := ⟨a, []⟩
  bind x f := ⟨(f x.value).value, x.steps ++ (f x.value).steps⟩

@[simp] theorem value_pure (a : α) : (pure a : Traced σ α).value = a := rfl

@[simp] theorem steps_pure (a : α) : (pure a : Traced σ α).steps = [] := rfl

@[simp] theorem value_bind (x : Traced σ α) (f : α → Traced σ β) :
    (x >>= f).value = (f x.value).value := rfl

@[simp] theorem steps_bind (x : Traced σ α) (f : α → Traced σ β) :
    (x >>= f).steps = x.steps ++ (f x.value).steps := rfl

instance : LawfulMonad (Traced σ) :=
  LawfulMonad.mk' (Traced σ) (fun _ => Traced.ext rfl (List.append_nil _)) (fun _ _ => rfl)
    (fun _ _ _ => Traced.ext rfl (List.append_assoc _ _ _))

def record (s : σ) : Traced σ Unit := ⟨(), [s]⟩

@[simp] theorem steps_record (s : σ) : (record s).steps = [s] := rfl

/-- The same computation, its steps seen through `f`. -/
def mapSteps (f : σ → τ) (x : Traced σ α) : Traced τ α := ⟨x.value, x.steps.map f⟩

@[simp] theorem value_mapSteps (f : σ → τ) (x : Traced σ α) : (x.mapSteps f).value = x.value := rfl

@[simp] theorem steps_mapSteps (f : σ → τ) (x : Traced σ α) :
    (x.mapSteps f).steps = x.steps.map f := rfl

/-! ### Lists -/

theorem value_mapM (f : α → Traced σ β) (as : List α) :
    (as.mapM f).value = as.map fun a => (f a).value := by
  induction as with
  | nil => rfl
  | cons a as ih =>
    rw [List.mapM_cons, value_bind, value_bind, ih]
    rfl

theorem value_anyM (f : α → Traced σ Bool) (as : List α) :
    (as.anyM f).value = as.any fun a => (f a).value := by
  induction as with
  | nil => rfl
  | cons a as ih =>
    rw [List.anyM, value_bind, List.any_cons]
    cases (f a).value with
    | true => rfl
    | false => exact ih

/-! ### Computations that may fail -/

variable {ε : Type}

@[simp] theorem value_run_bind (x : ExceptT ε (Traced σ) α) (f : α → ExceptT ε (Traced σ) β) :
    (x >>= f).run.value = x.run.value.bind fun a => (f a).run.value := by
  change (ExceptT.bindCont f x.run.value).value = _
  cases x.run.value <;> rfl

/-- What comes after a failure leaves no steps behind. -/
theorem steps_run_bind (x : ExceptT ε (Traced σ) α) (f : α → ExceptT ε (Traced σ) β) :
    (x >>= f).run.steps = x.run.steps ++
      match x.run.value with
      | .ok a => (f a).run.steps
      | .error _ => [] := by
  change x.run.steps ++ (ExceptT.bindCont f x.run.value).steps = _
  cases x.run.value <;> rfl

theorem run_bind_of_ok {x : ExceptT ε (Traced σ) α} {a : α} (h : x.run.value = .ok a)
    (f : α → ExceptT ε (Traced σ) β) :
    (x >>= f).run = ⟨(f a).run.value, x.run.steps ++ (f a).run.steps⟩ := by
  refine Traced.ext ?_ ?_
  · rw [value_run_bind, h]
    rfl
  · rw [steps_run_bind, h]

theorem run_bind_of_error {x : ExceptT ε (Traced σ) α} {e : ε} (h : x.run.value = .error e)
    (f : α → ExceptT ε (Traced σ) β) : (x >>= f).run = ⟨.error e, x.run.steps⟩ := by
  refine Traced.ext ?_ ?_
  · rw [value_run_bind, h]
    rfl
  · rw [steps_run_bind, h, List.append_nil]

theorem run_bind_pure (x : ExceptT ε (Traced σ) α) (f : α → β) :
    (x >>= fun a => pure (f a)).run = ⟨x.run.value.map f, x.run.steps⟩ := by
  cases h : x.run.value with
  | error e =>
    rw [run_bind_of_error h]
    rfl
  | ok a =>
    rw [run_bind_of_ok h]
    exact Traced.ext rfl (List.append_nil _)

@[simp] theorem value_run_liftM (x : Traced σ α) :
    (liftM x : ExceptT ε (Traced σ) α).run.value = .ok x.value := rfl

@[simp] theorem steps_run_liftM (x : Traced σ α) :
    (liftM x : ExceptT ε (Traced σ) α).run.steps = x.steps := List.append_nil _

end Traced

end HeadScout
