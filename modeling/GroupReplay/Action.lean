/-!
Actions: computations on a state that end in a value or an error and keep the state either way.
An action that may also wait for ever has `Halt ε` for its errors.
-/

namespace GroupReplay

/-- A computation on a state `σ` that ends in an `α` or an error `ε`. -/
@[ext] structure Action (σ ε α : Type) where
  run : σ → Except ε α × σ

namespace Action

variable {σ ε ε' α β : Type}

instance : Monad (Action σ ε) where
  pure value := ⟨fun state => (.ok value, state)⟩
  bind first next := ⟨fun state =>
    match first.run state with
    | (.ok value, state) => (next value).run state
    | (.error e, state) => (.error e, state)⟩

/-- Ends in an error and leaves the state. -/
def fail (e : ε) : Action σ ε α := ⟨fun state => (.error e, state)⟩

/-- Ends in a given way and leaves the state. -/
def ofExcept (result : Except ε α) : Action σ ε α := ⟨fun state => (result, state)⟩

/-- Changes the state. -/
def modify (change : σ → σ) : Action σ ε Unit := ⟨fun state => (.ok (), change state)⟩

/-- Reads the state. -/
def gets (read : σ → α) : Action σ ε α := ⟨fun state => (.ok (read state), state)⟩

/-- Reports errors in another way. -/
def mapError (convert : ε → ε') (action : Action σ ε α) : Action σ ε' α := ⟨fun state =>
  match action.run state with
  | (.ok value, state) => (.ok value, state)
  | (.error e, state) => (.error (convert e), state)⟩

@[simp] theorem run_pure (value : α) (state : σ) :
    (pure value : Action σ ε α).run state = (.ok value, state) := rfl

theorem run_bind (first : Action σ ε α) (next : α → Action σ ε β) (state : σ) :
    (first >>= next).run state =
      match first.run state with
      | (.ok value, state) => (next value).run state
      | (.error e, state) => (.error e, state) := rfl

@[simp] theorem run_fail (e : ε) (state : σ) :
    (fail e : Action σ ε α).run state = (.error e, state) := rfl

@[simp] theorem run_ofExcept (result : Except ε α) (state : σ) :
    (ofExcept result : Action σ ε α).run state = (result, state) := rfl

@[simp] theorem run_modify (change : σ → σ) (state : σ) :
    (modify change : Action σ ε Unit).run state = (.ok (), change state) := rfl

@[simp] theorem run_gets (read : σ → α) (state : σ) :
    (gets read : Action σ ε α).run state = (.ok (read state), state) := rfl

theorem run_bind_ok {first : Action σ ε α} {next : α → Action σ ε β} {state state' : σ} {value : α}
    (ran : first.run state = (.ok value, state')) :
    (first >>= next).run state = (next value).run state' := by
  rw [run_bind, ran]

theorem run_bind_error {first : Action σ ε α} {next : α → Action σ ε β} {state state' : σ} {e : ε}
    (ran : first.run state = (.error e, state')) :
    (first >>= next).run state = (.error e, state') := by
  rw [run_bind, ran]

theorem bind_pure_self (action : Action σ ε α) : action >>= pure = action := by
  ext state : 2
  rw [run_bind]
  split <;> simp_all

theorem bind_bind {γ : Type} (action : Action σ ε α) (f : α → Action σ ε β)
    (g : β → Action σ ε γ) : action >>= f >>= g = action >>= fun value => f value >>= g := by
  ext state : 2
  simp only [run_bind]
  cases action.run state with
  | mk result state => cases result <;> rfl

instance : LawfulMonad (Action σ ε) := .mk' _
  (fun action => bind_pure_self action) (fun _ _ => rfl) bind_bind

end Action

/-- How an action ends that does not end in a value: with an error, or never, because it waits for
something that does not come. -/
inductive Halt (ε : Type) where
  | failed (e : ε)
  | waiting
  deriving DecidableEq, Repr

namespace Halt

variable {ε ε' : Type}

/-- Reports an error in another way. -/
def map (convert : ε → ε') : Halt ε → Halt ε'
  | failed e => failed (convert e)
  | waiting => waiting

end Halt

namespace Action

variable {σ ε ε' α : Type}

/-- Runs `cleanup` if `action` fails.  The failure is what is reported, whatever becomes of the
cleanup; an action that waits for ever is never cleaned up after. -/
def cleaningUp (action : Action σ (Halt ε) α) (cleanup : Action σ ε' Unit) :
    Action σ (Halt ε) α := ⟨fun state =>
  match action.run state with
  | (.error (.failed e), state) => (.error (.failed e), (cleanup.run state).2)
  | result => result⟩

end Action

end GroupReplay
