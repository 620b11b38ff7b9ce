/-
This file defines actions: computations that change a state and may fail.

A failed action keeps the changes that it made before it failed, because a file that was written
stays written when the next one cannot be. `onPart` runs an action of a part of the state inside an
action of the whole, and leaves the rest of the state as it was.

The laws say what each way of putting actions together gives and leaves from a state on, so a proof
about an action follows its text and does not look at how actions are built.
-/

import ShaderReduction.Fault

namespace ShaderReduction

/-- A computation that changes a state and gives a result or a fault. -/
abbrev Action (State Result : Type) := ExceptT Fault (StateM State) Result

namespace Action

/-- What an action gives and leaves from a state on. -/
def startingAt {State Result : Type} (action : Action State Result) (state : State) :
    Except Fault Result × State := action.run state

/-- The action that gives a result or fails without changing the state. -/
def ofExcept {State Result : Type} (result : Except Fault Result) : Action State Result :=
  fun state => (result, state)

/-- An action of a part of the state as an action of the whole. -/
def onPart {State Part Result : Type} (read : State → Part) (write : Part → State → State)
    (action : Action Part Result) : Action State Result :=
  fun state =>
    let (result, part) := action (read state)
    (result, write part state)

/-! ### What an action gives and leaves -/

section Laws

variable {State Part Result Next : Type}

@[simp]
theorem startingAt_pure (result : Result) (state : State) :
    (pure result : Action State Result).startingAt state = (.ok result, state) := rfl

@[simp]
theorem startingAt_throw (fault : Fault) (state : State) :
    (throw fault : Action State Result).startingAt state = (.error fault, state) := rfl

@[simp]
theorem startingAt_get (state : State) :
    (get : Action State State).startingAt state = (.ok state, state) := rfl

@[simp]
theorem startingAt_set (after state : State) :
    (set after : Action State PUnit).startingAt state = (.ok ⟨⟩, after) := rfl

@[simp]
theorem startingAt_modify (change : State → State) (state : State) :
    (modify change : Action State PUnit).startingAt state = (.ok ⟨⟩, change state) := rfl

@[simp]
theorem startingAt_ofExcept (result : Except Fault Result) (state : State) :
    (ofExcept result : Action State Result).startingAt state = (result, state) := rfl

@[simp]
theorem startingAt_onPart (read : State → Part) (write : Part → State → State)
    (action : Action Part Result) (state : State) :
    (onPart read write action).startingAt state =
      ((action.startingAt (read state)).1, write (action.startingAt (read state)).2 state) := rfl

@[simp]
theorem startingAt_bind (first : Action State Result) (second : Result → Action State Next)
    (state : State) :
    (first >>= second).startingAt state =
      match first.startingAt state with
      | (.ok value, after) => (second value).startingAt after
      | (.error fault, after) => (.error fault, after) := by
  show (bind (m := StateM State) first (ExceptT.bindCont second)) state = _
  simp only [bind, StateT.bind, startingAt, ExceptT.run]
  rcases h : first state with ⟨_ | _, _⟩ <;> rfl

@[simp]
theorem startingAt_map (change : Result → Next) (action : Action State Result) (state : State) :
    (change <$> action).startingAt state =
      match action.startingAt state with
      | (.ok value, after) => (.ok (change value), after)
      | (.error fault, after) => (.error fault, after) := by
  rw [map_eq_pure_bind, startingAt_bind]
  rcases action.startingAt state with ⟨_ | _, _⟩ <;> rfl

@[simp]
theorem startingAt_tryCatch (action : Action State Result) (handle : Fault → Action State Result)
    (state : State) :
    (tryCatch action handle).startingAt state =
      match action.startingAt state with
      | (.ok value, after) => (.ok value, after)
      | (.error fault, after) => (handle fault).startingAt after := by
  show (ExceptT.tryCatch action handle) state = _
  simp only [ExceptT.tryCatch, ExceptT.mk, bind, StateT.bind, startingAt, ExceptT.run]
  rcases h : action state with ⟨_ | _, _⟩ <;> rfl

theorem ofExcept_ok_bind (value : Result) (second : Result → Action State Next) :
    (ofExcept (.ok value) >>= second) = second value := rfl

theorem ofExcept_error_bind (fault : Fault) (second : Result → Action State Next) :
    (ofExcept (.error fault) >>= second) = throw fault := rfl

theorem eq_ok_of_toOption {run : Except Fault Result × State} {result : Result}
    (found : run.1.toOption = some result) : run = (.ok result, run.2) := by
  obtain ⟨_ | value, after⟩ := run
  · cases found
  · rw [Option.some.inj found]

theorem onPart_eq_iff {read : State → Part} {write : Part → State → State}
    {action : Action Part Result} {state after : State} {outcome : Except Fault Result} :
    (onPart read write action).startingAt state = (outcome, after) ↔
      ∃ part, action.startingAt (read state) = (outcome, part) ∧ after = write part state := by
  rw [startingAt_onPart]
  constructor
  · intro run
    cases run
    exact ⟨_, rfl, rfl⟩
  · rintro ⟨part, run, rfl⟩
    rw [run]

theorem bind_eq_iff {first : Action State Result} {second : Result → Action State Next}
    {state after : State} {outcome : Except Fault Next} :
    (first >>= second).startingAt state = (outcome, after) ↔
      (∃ fault, first.startingAt state = (.error fault, after) ∧ outcome = .error fault) ∨
        ∃ value between, first.startingAt state = (.ok value, between) ∧
          (second value).startingAt between = (outcome, after) := by
  rw [startingAt_bind]
  rcases first.startingAt state with ⟨_ | value, between⟩
  · constructor
    · intro run
      cases run
      exact .inl ⟨_, rfl, rfl⟩
    · rintro (⟨fault, run, rfl⟩ | ⟨_, _, run, _⟩)
      · cases run
        rfl
      · cases run
  · constructor
    · exact fun run => .inr ⟨value, between, rfl, run⟩
    · rintro (⟨fault, run, _⟩ | ⟨_, _, run, rest⟩)
      · cases run
      · cases run
        exact rest

theorem bind_eq_ok_iff {first : Action State Result} {second : Result → Action State Next}
    {state after : State} {result : Next} :
    (first >>= second).startingAt state = (.ok result, after) ↔
      ∃ value between, first.startingAt state = (.ok value, between) ∧
        (second value).startingAt between = (.ok result, after) := by
  rw [startingAt_bind]
  rcases first.startingAt state with ⟨_ | value, between⟩ <;> simp [and_assoc]

theorem bind_eq_error_iff {first : Action State Result} {second : Result → Action State Next}
    {state after : State} {fault : Fault} :
    (first >>= second).startingAt state = (.error fault, after) ↔
      first.startingAt state = (.error fault, after) ∨
        ∃ value between, first.startingAt state = (.ok value, between) ∧
          (second value).startingAt between = (.error fault, after) := by
  rw [startingAt_bind]
  rcases first.startingAt state with ⟨_ | value, between⟩ <;> simp [and_assoc]

end Laws

end Action

end ShaderReduction
