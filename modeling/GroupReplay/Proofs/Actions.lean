import GroupReplay.Action

/-!
Laws of actions that rearrange them: reporting errors in another way and cleaning up after a failure
pass through a sequence of actions, so that a cleanup around a whole block can be handed to each of
its parts.
-/

namespace GroupReplay.Action

variable {σ ε ε' α β : Type}

theorem run_mapError (convert : ε → ε') (action : Action σ ε α) (state : σ) :
    (mapError convert action).run state =
      ((action.run state).1.mapError convert, (action.run state).2) := by
  simp only [mapError]
  cases action.run state with
  | mk result state => cases result <;> rfl

theorem run_mapError_eq_ok_iff {convert : ε → ε'} {action : Action σ ε α} {state after : σ}
    {value : α} :
    (mapError convert action).run state = (.ok value, after) ↔
      action.run state = (.ok value, after) := by
  simp only [mapError]
  split
  · next ran =>
    rw [ran]
    exact ⟨fun same => by cases same; rfl, fun same => by cases same; rfl⟩
  · next ran =>
    rw [ran]
    exact ⟨nofun, nofun⟩

theorem failed_of_run_mapError {convert : ε → ε'} {action : Action σ ε α} {state after : σ}
    {e : ε'} (ran : (mapError convert action).run state = (.error e, after)) :
    ∃ cause, action.run state = (.error cause, after) := by
  simp only [mapError] at ran
  split at ran
  · cases ran
  · next cause _ failed =>
    cases ran
    exact ⟨cause, failed⟩

theorem mapError_bind (convert : ε → ε') (first : Action σ ε α) (next : α → Action σ ε β) :
    mapError convert (first >>= next) =
      mapError convert first >>= fun value => mapError convert (next value) := by
  ext state : 2
  simp only [mapError, run_bind]
  cases first.run state with
  | mk result state => cases result <;> rfl

theorem cleaningUp_bind (first : Action σ (Halt ε) α) (next : α → Action σ (Halt ε) β)
    (cleanup : Action σ ε' Unit) :
    (first >>= next).cleaningUp cleanup =
      first.cleaningUp cleanup >>= fun value => (next value).cleaningUp cleanup := by
  ext state : 2
  simp only [cleaningUp, run_bind]
  cases first.run state with
  | mk result state =>
    cases result with
    | ok value => rfl
    | error halt => cases halt <;> rfl

@[simp] theorem cleaningUp_pure (value : α) (cleanup : Action σ ε' Unit) :
    (pure value : Action σ (Halt ε) α).cleaningUp cleanup = pure value := rfl

@[simp] theorem cleaningUp_nothing (action : Action σ (Halt ε) α) :
    action.cleaningUp (pure () : Action σ ε' Unit) = action := by
  ext state : 2
  simp only [cleaningUp]
  split
  · next ran => rw [ran]; rfl
  · rfl

/-- What comes after an action that never ends in a value makes no difference. -/
theorem bind_of_never_ok {first : Action σ ε α}
    (never : ∀ state value after, first.run state ≠ (.ok value, after))
    (next other : α → Action σ ε β) : first >>= next = first >>= other := by
  ext state : 2
  simp only [run_bind]
  split
  · next ran => exact absurd ran (never _ _ _)
  · rfl

/-- Actions that agree on a state, followed by actions that agree wherever the first ones get to,
agree on that state. -/
theorem run_bind_congr {first other : Action σ ε α} {next otherNext : α → Action σ ε β} {state : σ}
    (agree : first.run state = other.run state)
    (nextAgree : ∀ value after, other.run state = (.ok value, after) →
      (next value).run after = (otherNext value).run after) :
    (first >>= next).run state = (other >>= otherNext).run state := by
  rw [run_bind, run_bind, agree]
  cases ran : other.run state with
  | mk result after =>
    cases result with
    | ok value => exact nextAgree value after ran
    | error e => rfl

/-- A sequence of two actions succeeds if both do. -/
theorem run_bind_eq_ok_iff {first : Action σ ε α} {next : α → Action σ ε β} {state after : σ}
    {result : β} :
    (first >>= next).run state = (.ok result, after) ↔
      ∃ value middle, first.run state = (.ok value, middle) ∧
        (next value).run middle = (.ok result, after) := by
  constructor
  · intro ran
    rw [run_bind] at ran
    split at ran
    · next value middle performed => exact ⟨value, middle, performed, ran⟩
    · cases ran
  · rintro ⟨value, middle, performed, ran⟩
    rw [run_bind_ok performed, ran]

theorem cleaningUp_run_congr {action other : Action σ (Halt ε) α} {state : σ}
    (agree : action.run state = other.run state) (cleanup : Action σ ε' Unit) :
    (action.cleaningUp cleanup).run state = (other.cleaningUp cleanup).run state := by
  simp only [cleaningUp, agree]

theorem ofExcept_ok (value : α) : (ofExcept (.ok value) : Action σ ε α) = pure value := rfl

theorem ofExcept_error (e : ε) : (ofExcept (.error e) : Action σ ε α) = fail e := rfl

theorem fail_bind (e : ε) (next : α → Action σ ε β) : (fail e >>= next) = fail e := rfl

/-! ### Results whose errors are converted -/

section Results

variable {convert : ε → ε'}

@[simp] theorem mapError_ok (value : α) :
    (Except.ok value : Except ε α).mapError convert = .ok value := rfl

@[simp] theorem mapError_error (e : ε) :
    (Except.error e : Except ε α).mapError convert = .error (convert e) := rfl

theorem mapError_eq_ok_iff {result : Except ε α} {value : α} :
    result.mapError convert = .ok value ↔ result = .ok value := by
  cases result <;> simp

end Results

end GroupReplay.Action
