/-
This file proves what actions do to their state whatever comes of them, and with which faults they
fail.

An action respects a relation if it leads from every state to a related one, also when it fails. An
action that is put together from others respects a reflexive and transitive relation if they do, so
what no part of an action changes, the action does not change. An action that only reads leaves
every state as it is. In the same way an action fails with faults of some kind only, or does the
same from two states on, if its parts do, and it keeps two runs in step that are started in related
states. From states of some kind on it ends well if all parts do and leave states of that kind. What
a part does may depend on the results that the parts before it give; `RunsFrom` says of an action
from one state on where it leads, how it fails and what it gives. What is true of actions one after
the other as soon as it is true of each of them, as most of this is, `Composes`.
-/

import Mathlib.Order.Defs.Unbundled
import ShaderReduction.Action

namespace ShaderReduction

namespace Action

section Respects

variable {State Part Result Next : Type} {relation : State → State → Prop}

/-- An action leads from every state to a related one. -/
def Respects (relation : State → State → Prop) (action : Action State Result) : Prop :=
  ∀ state, relation state (action.startingAt state).2

/-- An action leaves every state as it is. -/
def Reads (action : Action State Result) : Prop := Respects Eq action

theorem Respects.of_eq {action : Action State Result} {state after : State}
    {result : Except Fault Result} (respects : Respects relation action)
    (run : action.startingAt state = (result, after)) : relation state after := by
  have related := respects state
  rw [run] at related
  exact related

theorem Respects.mono {wider : State → State → Prop} {action : Action State Result}
    (respects : Respects relation action)
    (within : ∀ before after, relation before after → wider before after) :
    Respects wider action :=
  fun state => within _ _ (respects state)

theorem Respects.onPart {partRelation : Part → Part → Prop} {read : State → Part}
    {write : Part → State → State} {action : Action Part Result}
    (respects : Respects partRelation action)
    (lift : ∀ state part, partRelation (read state) part → relation state (write part state)) :
    Respects relation (onPart read write action) :=
  fun state => lift state _ (respects (read state))

variable [IsPreorder State relation]

theorem Reads.respects {action : Action State Result} (reads : Reads action) :
    Respects relation action := by
  intro state
  rw [← reads state]
  exact refl_of relation state

theorem respects_pure (result : Result) : Respects relation (pure result) :=
  fun state => refl_of relation state

theorem respects_throw (fault : Fault) : Respects relation (throw fault : Action State Result) :=
  fun state => refl_of relation state

theorem respects_get : Respects relation (get : Action State State) :=
  fun state => refl_of relation state

theorem respects_ofExcept (result : Except Fault Result) :
    Respects relation (ofExcept result : Action State Result) :=
  fun state => refl_of relation state

theorem Respects.bind {first : Action State Result} {second : Result → Action State Next}
    (firstRespects : Respects relation first)
    (secondRespects : ∀ result, Respects relation (second result)) :
    Respects relation (first >>= second) := by
  intro state
  rw [startingAt_bind]
  cases run : first.startingAt state with
  | mk outcome between =>
    have start := firstRespects.of_eq run
    cases outcome with
    | error fault => exact start
    | ok result => exact trans_of relation start (secondRespects result between)

theorem Respects.tryCatch {action : Action State Result} {handle : Fault → Action State Result}
    (respects : Respects relation action)
    (handleRespects : ∀ fault, Respects relation (handle fault)) :
    Respects relation (tryCatch action handle) := by
  intro state
  rw [startingAt_tryCatch]
  cases run : action.startingAt state with
  | mk outcome between =>
    have start := respects.of_eq run
    cases outcome with
    | error fault => exact trans_of relation start (handleRespects fault between)
    | ok result => exact start

omit [IsPreorder State relation] in
/-- What is done with a state that was looked at may depend on it. -/
theorem respects_get_bind {second : State → Action State Next}
    (related : ∀ state, relation state ((second state).startingAt state).2) :
    Respects relation (get >>= second) := by
  intro state
  rw [startingAt_bind, startingAt_get]
  exact related state

end Respects

section Fails

variable {State Part Result Next : Type} {among : Fault → Prop}

/-- An action fails with some faults only. -/
def Fails (among : Fault → Prop) (action : Action State Result) : Prop :=
  ∀ state fault after, action.startingAt state = (.error fault, after) → among fault

theorem fails_pure (result : Result) : Fails among (pure result : Action State Result) := by
  intro state fault after run
  cases run

theorem fails_throw {fault : Fault} (isAmong : among fault) :
    Fails among (throw fault : Action State Result) := by
  intro state other after run
  cases run
  exact isAmong

theorem fails_get : Fails among (get : Action State State) := by
  intro state fault after run
  cases run

theorem fails_set (after : State) : Fails among (set after : Action State PUnit) := by
  intro state fault after run
  cases run

theorem fails_modify (change : State → State) :
    Fails among (modify change : Action State PUnit) := by
  intro state fault after run
  cases run

theorem Fails.mono {wider : Fault → Prop} {action : Action State Result}
    (fails : Fails among action) (within : ∀ fault, among fault → wider fault) :
    Fails wider action :=
  fun state fault after run => within fault (fails state fault after run)

theorem Fails.bind {first : Action State Result} {second : Result → Action State Next}
    (firstFails : Fails among first) (secondFails : ∀ result, Fails among (second result)) :
    Fails among (first >>= second) := by
  intro state fault after run
  rcases bind_eq_error_iff.1 run with early | ⟨result, between, -, late⟩
  · exact firstFails state fault after early
  · exact secondFails result between fault after late

theorem Fails.tryCatch {action : Action State Result} {handle : Fault → Action State Result}
    (handleFails : ∀ fault, among fault → Fails among (handle fault))
    (fails : Fails among action) : Fails among (tryCatch action handle) := by
  intro state fault after run
  rw [startingAt_tryCatch] at run
  rcases tried : action.startingAt state with ⟨early | result, between⟩
  · rw [tried] at run
    exact handleFails early (fails state early between tried) between fault after run
  · rw [tried] at run
    cases run

theorem Fails.onPart {read : State → Part} {write : Part → State → State}
    {action : Action Part Result} (fails : Fails among action) :
    Fails among (onPart read write action) := by
  intro state fault after run
  obtain ⟨part, partRun, -⟩ := onPart_eq_iff.1 run
  exact fails (read state) fault part partRun

/-- A result is there, or it is missing for one of some faults. -/
def Errs (among : Fault → Prop) (outcome : Except Fault Result) : Prop :=
  ∀ fault, outcome = .error fault → among fault

theorem errs_ok (result : Result) : Errs among (.ok result : Except Fault Result) := by
  intro fault same
  cases same

theorem errs_error {fault : Fault} (isAmong : among fault) :
    Errs among (.error fault : Except Fault Result) := by
  intro other same
  cases same
  exact isAmong

theorem Errs.bind {first : Except Fault Result} {second : Result → Except Fault Next}
    (firstErrs : Errs among first) (secondErrs : ∀ result, Errs among (second result)) :
    Errs among (first >>= second) := by
  cases first with
  | error fault => exact errs_error (firstErrs fault rfl)
  | ok result => exact secondErrs result

theorem except_bind_eq_ok {first : Except Fault Result} {second : Result → Except Fault Next}
    {next : Next} (run : first >>= second = .ok next) :
    ∃ result, first = .ok result ∧ second result = .ok next := by
  cases first with
  | error fault => cases run
  | ok result => exact ⟨result, rfl, run⟩

theorem Errs.map {outcome : Except Fault Result} (errs : Errs among outcome)
    (change : Result → Next) : Errs among (outcome.map change) := by
  cases outcome with
  | error fault => exact errs_error (errs fault rfl)
  | ok result => exact errs_ok _

theorem errs_mapM {Item : Type} {give : Item → Except Fault Result}
    (each : ∀ item, Errs among (give item)) (items : List Item) :
    Errs among (items.mapM give) := by
  induction items with
  | nil => exact errs_ok _
  | cons item items inductionHypothesis =>
    rw [List.mapM_cons]
    exact (each item).bind fun _ => inductionHypothesis.bind fun _ => errs_ok _

theorem Fails.errs {action : Action State Result} (fails : Fails among action)
    {state after : State} {outcome : Except Fault Result}
    (run : action.startingAt state = (outcome, after)) : Errs among outcome := by
  rintro fault rfl
  exact fails state fault after run

theorem Errs.error {fault : Fault} (errs : Errs among (.error fault : Except Fault Result)) :
    Errs among (.error fault : Except Fault Next) := errs_error (errs fault rfl)

theorem fails_ofExcept {outcome : Except Fault Result} (errs : Errs among outcome) :
    Fails among (ofExcept outcome : Action State Result) := by
  intro state fault after run
  exact errs fault (congrArg Prod.fst run)

end Fails

section Runs

variable {State Part Result Next : Type} {relation : State → State → Prop} {among : Fault → Prop}
  {gives : Result → Prop} {more : Next → Prop} {state : State}

/-- From a state on an action leads to a related one, fails with some faults only, and gives a
result of some kind if it ends well. -/
structure RunsFrom (relation : State → State → Prop) (among : Fault → Prop) (gives : Result → Prop)
    (state : State) (action : Action State Result) : Prop where
  related : relation state (action.startingAt state).2
  errs : Errs among (action.startingAt state).1
  gives : ∀ result, (action.startingAt state).1 = .ok result → gives result

/-- From every state on an action leads to a related one, fails with some faults only, and gives
results of some kind. -/
def Runs (relation : State → State → Prop) (among : Fault → Prop) (gives : Result → Prop)
    (action : Action State Result) : Prop :=
  ∀ state, RunsFrom relation among gives state action

theorem runs_of {action : Action State Result} (respects : Respects relation action)
    (fails : Fails among action) : Runs relation among (fun _ => True) action :=
  fun state => ⟨respects state, fails.errs rfl, fun _ _ => trivial⟩

theorem runsFrom_of_eq {action : Action State Result} {outcome : Except Fault Result}
    {after : State} (run : action.startingAt state = (outcome, after))
    (related : relation state after) (errs : Errs among outcome)
    (given : ∀ result, outcome = .ok result → gives result) :
    RunsFrom relation among gives state action := by
  constructor
  all_goals rw [run]
  · exact related
  · exact errs
  · exact given

/-- What is said of an action from a state on is said of what it gives and leaves there. -/
theorem RunsFrom.of_eq {action : Action State Result} {outcome : Except Fault Result}
    {after : State} (runs : RunsFrom relation among gives state action)
    (run : action.startingAt state = (outcome, after)) :
    relation state after ∧ Errs among outcome ∧ ∀ result, outcome = .ok result → gives result := by
  obtain ⟨related, errs, given⟩ := runs
  rw [run] at related errs given
  exact ⟨related, errs, given⟩

theorem RunsFrom.onPart {partRelation : Part → Part → Prop} {read : State → Part}
    {write : Part → State → State} {action : Action Part Result}
    (runs : RunsFrom partRelation among gives (read state) action)
    (lift : ∀ part, partRelation (read state) part → relation state (write part state)) :
    RunsFrom relation among gives state (onPart read write action) :=
  ⟨lift _ runs.related, runs.errs, runs.gives⟩

variable [IsPreorder State relation]

theorem runs_pure {result : Result} (given : gives result) :
    Runs relation among gives (pure result) := by
  refine fun state => ⟨refl_of relation state, errs_ok result, fun other same => ?_⟩
  exact Except.ok.inj same ▸ given

theorem runs_throw {fault : Fault} (isAmong : among fault) :
    Runs relation among gives (throw fault : Action State Result) := by
  refine fun state => ⟨refl_of relation state, errs_error isAmong, fun result same => ?_⟩
  cases same

theorem runs_ofExcept {outcome : Except Fault Result} (errs : Errs among outcome)
    (given : ∀ result, outcome = .ok result → gives result) :
    Runs relation among gives (ofExcept outcome : Action State Result) :=
  fun state => ⟨refl_of relation state, errs, given⟩

/-- Of what comes second only the results and states need to be looked at that the first action
gives and leaves. -/
theorem RunsFrom.bind {first : Action State Result} {second : Result → Action State Next}
    (firstRuns : RunsFrom relation among gives state first)
    (secondRuns : ∀ result between, first.startingAt state = (.ok result, between) →
      gives result → RunsFrom relation among more between (second result)) :
    RunsFrom relation among more state (first >>= second) := by
  rcases run : first.startingAt state with ⟨fault | result, between⟩
  all_goals obtain ⟨related, errs, given⟩ := firstRuns.of_eq run
  · have failed : (first >>= second).startingAt state = (.error fault, between) := by
      rw [startingAt_bind, run]
    refine runsFrom_of_eq failed related errs.error fun result same => ?_
    cases same
  · have rest := secondRuns result between run (given result rfl)
    have ended : (first >>= second).startingAt state = (second result).startingAt between := by
      rw [startingAt_bind, run]
    exact runsFrom_of_eq ended (trans_of relation related rest.related) rest.errs rest.gives

theorem Runs.bind {first : Action State Result} {second : Result → Action State Next}
    (firstRuns : Runs relation among gives first)
    (secondRuns : ∀ result, gives result → Runs relation among more (second result)) :
    Runs relation among more (first >>= second) :=
  fun state => (firstRuns state).bind fun result between _ given =>
    secondRuns result given between

end Runs

section Completes

variable {State Result Next : Type} {holds : State → Prop}

/-- From every state of some kind on an action ends well, and leaves a state of that kind. -/
def Completes (holds : State → Prop) (action : Action State Result) : Prop :=
  ∀ state, holds state → ∃ result after, action.startingAt state = (.ok result, after) ∧ holds after

theorem completes_pure (result : Result) : Completes holds (pure result : Action State Result) :=
  fun state isHeld => ⟨result, state, rfl, isHeld⟩

theorem Completes.bind {first : Action State Result} {second : Result → Action State Next}
    (firstCompletes : Completes holds first)
    (secondCompletes : ∀ result, Completes holds (second result)) :
    Completes holds (first >>= second) := by
  intro state isHeld
  obtain ⟨result, between, run, isHeldBetween⟩ := firstCompletes state isHeld
  obtain ⟨next, after, rest, isHeldAfter⟩ := secondCompletes result between isHeldBetween
  exact ⟨next, after, bind_eq_ok_iff.2 ⟨result, between, run, rest⟩, isHeldAfter⟩

end Completes

section Agrees

variable {State Result Next : Type} {first second : State}

/-- An action gives the same from two states on and changes neither. -/
def Agrees (first second : State) (action : Action State Result) : Prop :=
  ∃ result, action.startingAt first = (result, first) ∧ action.startingAt second = (result, second)

theorem agrees_pure (result : Result) : Agrees first second (pure result) :=
  ⟨.ok result, rfl, rfl⟩

theorem agrees_throw (fault : Fault) : Agrees first second (throw fault : Action State Result) :=
  ⟨.error fault, rfl, rfl⟩

theorem agrees_ofExcept (result : Except Fault Result) :
    Agrees first second (ofExcept result : Action State Result) := ⟨result, rfl, rfl⟩

theorem Agrees.bind {start : Action State Result} {rest : Result → Action State Next}
    (startAgrees : Agrees first second start)
    (restAgrees : ∀ result, Agrees first second (rest result)) :
    Agrees first second (start >>= rest) := by
  obtain ⟨outcome, firstRun, secondRun⟩ := startAgrees
  cases outcome with
  | error fault =>
    refine ⟨.error fault, ?_, ?_⟩
    · rw [startingAt_bind, firstRun]
    · rw [startingAt_bind, secondRun]
  | ok result =>
    obtain ⟨last, firstLast, secondLast⟩ := restAgrees result
    refine ⟨last, ?_, ?_⟩
    · rw [startingAt_bind, firstRun]
      exact firstLast
    · rw [startingAt_bind, secondRun]
      exact secondLast

end Agrees

section InStep

variable {State Result Next : Type} {relation : State → State → Prop} {first second : State}

/-- From two states on an action comes to the same result, and to related states. -/
structure InStep (relation : State → State → Prop) (first second : State)
    (action : Action State Result) : Prop where
  result : (action.startingAt first).1 = (action.startingAt second).1
  related : relation (action.startingAt first).2 (action.startingAt second).2

/-- An action comes to the same result and to related states whenever it is started in related
states. -/
def Lockstep (relation : State → State → Prop) (action : Action State Result) : Prop :=
  ∀ first second, relation first second → InStep relation first second action

theorem InStep.exists_eq {action : Action State Result}
    (inStep : InStep relation first second action)
    {outcome : Except Fault Result} {after : State}
    (run : action.startingAt first = (outcome, after)) :
    ∃ other, action.startingAt second = (outcome, other) ∧ relation after other := by
  have result := inStep.result
  have related := inStep.related
  rw [run] at result related
  exact ⟨(action.startingAt second).2, Prod.ext result.symm rfl, related⟩

theorem inStep_of_eq {action : Action State Result} {outcome : Except Fault Result}
    {after other : State} (run : action.startingAt first = (outcome, after))
    (otherRun : action.startingAt second = (outcome, other)) (related : relation after other) :
    InStep relation first second action := by
  constructor
  · rw [run, otherRun]
  · rw [run, otherRun]
    exact related

theorem Agrees.inStep {action : Action State Result} (agrees : Agrees first second action)
    (related : relation first second) : InStep relation first second action :=
  let ⟨_, run, otherRun⟩ := agrees
  inStep_of_eq run otherRun related

/-- Actions one after the other keep two runs in step if each of them does where it is started. -/
theorem InStep.bind {action : Action State Result} {rest : Result → Action State Next}
    (inStep : InStep relation first second action)
    (restInStep : ∀ result after other, action.startingAt first = (.ok result, after) →
      action.startingAt second = (.ok result, other) → relation after other →
        InStep relation after other (rest result)) :
    InStep relation first second (action >>= rest) := by
  cases run : action.startingAt first with
  | mk outcome after =>
    obtain ⟨other, otherRun, related⟩ := inStep.exists_eq run
    cases outcome with
    | error fault =>
      refine ⟨?_, ?_⟩
      · rw [startingAt_bind, startingAt_bind, run, otherRun]
      · rw [startingAt_bind, startingAt_bind, run, otherRun]
        exact related
    | ok result =>
      have inRest := restInStep result after other run otherRun related
      refine ⟨?_, ?_⟩
      · rw [startingAt_bind, startingAt_bind, run, otherRun]
        exact inRest.result
      · rw [startingAt_bind, startingAt_bind, run, otherRun]
        exact inRest.related

theorem lockstep_pure (result : Result) : Lockstep relation (pure result : Action State Result) :=
  fun _ _ related => ⟨rfl, related⟩

theorem lockstep_throw (fault : Fault) :
    Lockstep relation (throw fault : Action State Result) :=
  fun _ _ related => ⟨rfl, related⟩

theorem lockstep_ofExcept (result : Except Fault Result) :
    Lockstep relation (ofExcept result : Action State Result) :=
  fun _ _ related => ⟨rfl, related⟩

theorem lockstep_modify {change : State → State}
    (keeps : ∀ first second, relation first second → relation (change first) (change second)) :
    Lockstep relation (modify change : Action State PUnit) :=
  fun first second related => ⟨rfl, keeps first second related⟩

theorem Lockstep.bind {action : Action State Result} {rest : Result → Action State Next}
    (lockstep : Lockstep relation action)
    (restLockstep : ∀ result, Lockstep relation (rest result)) :
    Lockstep relation (action >>= rest) :=
  fun first second related => (lockstep first second related).bind
    fun result after other _ _ => restLockstep result after other

end InStep

section Composes

variable {State : Type} {relation : State → State → Prop} {among : Fault → Prop}
  {holds : State → Prop} {first second : State}

/-- What is said of actions is true of those that only give a result, and of one action after
another if it is true of both. -/
structure Composes (holds : ∀ {Result : Type}, Action State Result → Prop) : Prop where
  pure : ∀ {Result : Type} (result : Result), holds (pure result)
  bind : ∀ {Result Next : Type} {first : Action State Result} {second : Result → Action State Next},
    holds first → (∀ result, holds (second result)) → holds (first >>= second)

theorem composes_respects [IsPreorder State relation] : Composes (Respects relation) :=
  ⟨respects_pure, Respects.bind⟩

theorem composes_fails : @Composes State (Fails among) := ⟨fails_pure, Fails.bind⟩

theorem composes_runs [IsPreorder State relation] :
    Composes (Runs relation among fun _ => True) :=
  ⟨fun _ => runs_pure trivial, fun first second => first.bind fun result _ => second result⟩

theorem composes_completes : Composes (Completes holds) := ⟨completes_pure, Completes.bind⟩

theorem composes_agrees : Composes (Agrees first second) := ⟨agrees_pure, Agrees.bind⟩

theorem composes_lockstep : Composes (Lockstep relation) := ⟨lockstep_pure, Lockstep.bind⟩

end Composes

end Action

end ShaderReduction
