import TechStack.Lib.Transition

/-!
# The durable store of a workflow run

The workflow engine keeps a run in three tables: the row of the run, a row for every
step, and the timers.  `UpdateRun` and `UpdateStep` write a row back whole; they
compare its status with the stored one and refuse a change that the tables of
transitions do not have.  A write that leaves the status as it is is not refused.

A call of the store is a `Command` and gets a `Reply`.  The caller may be told of a
failure in two ways: the call had no effect, or it took effect and the answer was
lost on the way.  `execute` is the whole of what a command does to the tables, so that
a property of the tables is proved once for every caller.
-/

namespace TechStack.Workflow

open Std (ExtTreeMap)

/-! ## Rows -/

/-- `RunStatus`. -/
inductive RunStatus where
  | pending
  | running
  | suspended
  | completed
  | failed
  | compensating
  | cancelled
  deriving DecidableEq

/-- `StepStatus`. -/
inductive StepStatus where
  | pending
  | running
  | completed
  | failed
  | skipped
  | compensated
  deriving DecidableEq

/-- The values of the status column of a run. -/
def RunStatus.text : RunStatus → String
  | pending => "pending"
  | running => "running"
  | suspended => "suspended"
  | completed => "completed"
  | failed => "failed"
  | compensating => "compensating"
  | cancelled => "cancelled"

/-- The values of the status column of a step. -/
def StepStatus.text : StepStatus → String
  | pending => "pending"
  | running => "running"
  | completed => "completed"
  | failed => "failed"
  | skipped => "skipped"
  | compensated => "compensated"

/-- `validRunTransitions`. -/
def validRunTransition : RunStatus → RunStatus → Bool
  | .pending, .running => true
  | .pending, .cancelled => true
  | .running, .suspended => true
  | .running, .completed => true
  | .running, .failed => true
  | .running, .compensating => true
  | .running, .cancelled => true
  | .suspended, .running => true
  | .suspended, .cancelled => true
  | .suspended, .failed => true
  | .compensating, .failed => true
  | _, _ => false

/-- `validStepTransitions`. -/
def validStepTransition : StepStatus → StepStatus → Bool
  | .pending, .running => true
  | .pending, .skipped => true
  | .running, .completed => true
  | .running, .failed => true
  | .failed, .running => true
  | .failed, .compensated => true
  | .completed, .compensated => true
  | _, _ => false

/-- `IsTerminal`. -/
def isTerminal : RunStatus → Bool
  | .completed => true
  | .failed => true
  | .cancelled => true
  | _ => false

/-- `Signal`.  `delivery` is not a field of the source: it says which call of `Deliver`
brought the signal. -/
structure Signal where
  key : String
  payload : String
  timedOut : Bool
  /-- `DeliverAt`; the zero time is `none`. -/
  deliverAt : Option ℤ
  delivery : ℕ
  deriving DecidableEq

/-- A value that a step puts into the context, as `encoding/json` deals with it.  Numbers are read
into a `float64`. -/
inductive Value where
  /-- It has a JSON text and is read back as it was. -/
  | json (text : String)
  /-- It holds numbers that a `float64` rounds, and is read back with another text. -/
  | rounded (text readAs : String)
  /-- It holds a number that is out of range when it is read. -/
  | outOfRange (text : String)
  /-- `json.Marshal` refuses it, as it does a channel or a number that is not finite. -/
  | unmarshalable
  deriving DecidableEq

/-- The value that is read back. -/
def Value.read : Value → Option Value
  | json text => some (json text)
  | rounded _ readAs => some (json readAs)
  | outOfRange _ | unmarshalable => none

/-- Writing and reading leaves the value as it was. -/
def Value.intact (value : Value) : Bool := value.read == some value

/-- The entries of a context that are the steps' own. -/
abbrev Entries : Type := ExtTreeMap String Value compare

def Entries.intact (entries : Entries) : Bool := entries.toList.all fun entry => entry.2.intact

/-- `Run.Context`.  The engine keeps a delivered signal under a key of its own,
`__signal`, which is here a field of its own. -/
structure Context where
  entries : Entries
  signal : Option Signal

/-- `marshalJSONMap`, and what `unmarshalJSONMap` makes of it: a map that does not marshal is
stored as the empty object, and one that cannot be read is read as nil. -/
def Context.stored (context : Context) : Context :=
  if context.entries.toList.all fun entry => entry.2.read.isSome then
    { context with entries := context.entries.filterMap fun _ value => value.read }
  else ⟨∅, none⟩

/-- What `sameRunIdentity` compares; the input is given by its JSON text. -/
structure Identity where
  runID : String
  tenantID : String
  type : String
  ownerID : String
  serverID : String
  cardID : String
  input : String
  deriving DecidableEq

/-- `sameRunIdentity`. -/
def sameRunIdentity (left right : Identity) : Bool :=
  left.runID == right.runID && left.tenantID == right.tenantID && left.type == right.type &&
    left.ownerID == right.ownerID && left.serverID == right.serverID &&
    left.cardID == right.cardID && left.input == right.input

/-- `Run`. -/
structure Run where
  identity : Identity
  status : RunStatus
  currentStep : ℕ
  context : Context
  awaitingSignal : String
  error : String

/-- `Step`; the output is given by its JSON text. -/
structure Step where
  stepIndex : ℕ
  name : String
  status : StepStatus
  attempt : ℕ
  output : String
  error : String
  idempotencyKey : String
  deriving DecidableEq

/-- `TimerKind`. -/
inductive TimerKind where
  | escalation
  | reminder
  | retry
  | schedule

/-- `Timer`; its place in the table serves as its identifier. -/
structure Timer where
  kind : TimerKind
  fireAt : ℤ
  fired : Bool
  signalKey : String

/-- The tables.  There is one run, or none before it is created; the timers are those of
every run of the tenant. -/
structure Store where
  run : Option Run
  steps : ExtTreeMap ℕ Step compare
  timers : List Timer

/-! ## Writing rows -/

/-- The errors of a store call. -/
inductive StoreError where
  | notFound (what : String)
  | invalidTransition (kind source target : String)
  | other (text : String)

def StoreError.message : StoreError → String
  | notFound what => s!"workflow: not found: {what}"
  | invalidTransition kind source target =>
    s!"workflow: invalid {kind} transition: {source} -> {target}"
  | other text => text

/-- The `UPDATE` of a run: the columns that identify it stay. -/
def Run.overwrite (current run : Run) : Run where
  identity := current.identity
  status := run.status
  currentStep := run.currentStep
  context := run.context.stored
  awaitingSignal := run.awaitingSignal
  error := run.error

/-- The `UPDATE` of a step. -/
def Step.overwrite (current step : Step) : Step where
  stepIndex := current.stepIndex
  name := current.name
  status := step.status
  attempt := step.attempt
  output := step.output
  error := step.error
  idempotencyKey := if step.idempotencyKey ≠ "" then step.idempotencyKey
    else current.idempotencyKey

namespace Store

/-- `CreateRun`. -/
def createRun (run : Run) (store : Store) : Except StoreError Store :=
  match store.run with
  | some _ => .error (.other "create run: duplicate key")
  | none => .ok { store with
      run := some { run with status := .pending, context := run.context.stored } }

/-- `UpdateRun`. -/
def updateRun (run : Run) (store : Store) : Except StoreError Store :=
  match store.run with
  | none => .error (.notFound s!"run {run.identity.runID}")
  | some current =>
    if current.status ≠ run.status ∧ validRunTransition current.status run.status = false then
      .error (.invalidTransition "run" current.status.text run.status.text)
    else .ok { store with run := some (current.overwrite run) }

/-- `SuspendRun`: the run and the timer are written in one transaction. -/
def suspendRun (run : Run) (timer : Option Timer) (store : Store) : Except StoreError Store :=
  if run.status ≠ .suspended then .error (.other "workflow: invalid scoped suspension")
  else if timer.any fun timer => timer.signalKey ≠ run.awaitingSignal || timer.fired then
    .error (.other "workflow: suspension timer custody differs")
  else (store.updateRun run).map fun store =>
    { store with timers := store.timers ++ timer.toList }

/-- `CreateStep`. -/
def createStep (step : Step) (store : Store) : Except StoreError Store :=
  match store.steps[step.stepIndex]? with
  | some _ => .error (.other "create step: duplicate key")
  | none => .ok { store with steps := store.steps.insert step.stepIndex step }

/-- `UpdateStep`. -/
def updateStep (step : Step) (store : Store) : Except StoreError Store :=
  match store.steps[step.stepIndex]? with
  | none => .error (.notFound s!"step {step.stepIndex}")
  | some current =>
    if current.status ≠ step.status ∧ validStepTransition current.status step.status = false then
      .error (.invalidTransition "step" current.status.text step.status.text)
    else .ok { store with
      steps := store.steps.insert step.stepIndex (current.overwrite step) }

/-- `MarkTimerFired`. -/
def markTimerFired (id : ℕ) (store : Store) : Store :=
  { store with timers := store.timers.modify id fun timer => { timer with fired := true } }

/-- `ListSteps`: the rows by their index. -/
def listSteps (store : Store) : List Step := store.steps.toList.map Prod.snd

end Store

/-! ## Commands -/

/-- The calls of the store that the goroutine makes that drives the run. -/
inductive Command where
  | getRun
  | updateRun (run : Run)
  | suspendRun (run : Run) (timer : Option Timer)
  | getStep (stepIndex : ℕ)
  | createStep (step : Step)
  | updateStep (step : Step)
  | listSteps

/-- What a call returns. -/
inductive Reply where
  | failed (error : StoreError)
  | done
  | run (run : Run)
  | step (step : Step)
  | steps (steps : List Step)

/-- How a call goes: it is answered, it fails without effect, or it fails after it took
effect. -/
inductive Outcome where
  | ok
  | fails (cause : String)
  | lost (cause : String)
  deriving DecidableEq

/-- The tables after a call, what the caller is told, and whether the call wrote. -/
structure Executed where
  store : Store
  reply : Reply
  wrote : Bool

namespace Store

/-- A call that writes. -/
def write (outcome : Outcome) (result : Except StoreError Store) (store : Store) : Executed :=
  match outcome, result with
  | .fails cause, _ => ⟨store, .failed (.other cause), false⟩
  | _, .error error => ⟨store, .failed error, false⟩
  | .ok, .ok store' => ⟨store', .done, true⟩
  | .lost cause, .ok store' => ⟨store', .failed (.other cause), true⟩

/-- A call that reads. -/
def read (outcome : Outcome) (reply : Reply) (store : Store) : Executed :=
  match outcome with
  | .ok => ⟨store, reply, false⟩
  | .fails cause => ⟨store, .failed (.other cause), false⟩
  | .lost cause => ⟨store, .failed (.other cause), false⟩

/-- `GetRun`. -/
def getRun (store : Store) : Reply :=
  match store.run with
  | some run => .run run
  | none => .failed (.notFound "run")

/-- `GetStep`. -/
def getStep (stepIndex : ℕ) (store : Store) : Reply :=
  match store.steps[stepIndex]? with
  | some step => .step step
  | none => .failed (.notFound s!"step {stepIndex}")

/-- A call. -/
def execute (outcome : Outcome) (command : Command) (store : Store) : Executed :=
  match command with
  | .getRun => store.read outcome store.getRun
  | .updateRun run => store.write outcome (store.updateRun run)
  | .suspendRun run timer => store.write outcome (store.suspendRun run timer)
  | .getStep stepIndex => store.read outcome (store.getStep stepIndex)
  | .createStep step => store.write outcome (store.createStep step)
  | .updateStep step => store.write outcome (store.updateStep step)
  | .listSteps => store.read outcome (.steps store.listSteps)

end Store

/-! ## What a call can do -/

/-- The changes of status that `UpdateRun` lets through. -/
def RunStatus.Steps (source target : RunStatus) : Prop :=
  source = target ∨ validRunTransition source target = true

/-- The changes of status that `UpdateStep` lets through. -/
def StepStatus.Steps (source target : StepStatus) : Prop :=
  source = target ∨ validStepTransition source target = true

lemma RunStatus.Steps.eq_of_isTerminal {source target : RunStatus}
    (steps : source.Steps target) (terminal : isTerminal source = true) : target = source := by
  rcases steps with rfl | valid
  · rfl
  · cases source <;> cases target <;> simp_all [validRunTransition, isTerminal]

lemma RunStatus.Steps.of_compensating {target : RunStatus}
    (steps : RunStatus.compensating.Steps target) : target = .compensating ∨ target = .failed := by
  rcases steps with rfl | valid
  · exact .inl rfl
  · cases target <;> simp_all [validRunTransition]

lemma StepStatus.Steps.of_completed {target : StepStatus}
    (steps : StepStatus.completed.Steps target) : target = .completed ∨ target = .compensated := by
  rcases steps with rfl | valid
  · exact .inl rfl
  · cases target <;> simp_all [validStepTransition]

lemma StepStatus.Steps.of_compensated {target : StepStatus}
    (steps : StepStatus.compensated.Steps target) : target = .compensated := by
  rcases steps with rfl | valid
  · rfl
  · cases target <;> simp_all [validStepTransition]

namespace Store

variable {store store' : Store} {run : Run} {step : Step} {timer : Option Timer}
  {outcome : Outcome} {command : Command}

lemma updateRun_ok (updated : store.updateRun run = .ok store') :
    ∃ current, store.run = some current ∧ current.status.Steps run.status ∧
      store' = { store with run := some (current.overwrite run) } := by
  unfold updateRun at updated
  rcases held : store.run with _ | current
  · simp [held] at updated
  · simp only [held] at updated
    split_ifs at updated with refused
    refine ⟨current, rfl, ?_, (Except.ok.inj updated).symm⟩
    by_cases same : current.status = run.status
    · exact .inl same
    · exact .inr (by simpa [same] using refused)

lemma suspendRun_ok (updated : store.suspendRun run timer = .ok store') :
    ∃ current, store.run = some current ∧ current.status.Steps run.status ∧ store' = { store with
        run := some (current.overwrite run), timers := store.timers ++ timer.toList } := by
  unfold suspendRun at updated
  split_ifs at updated
  rcases written : store.updateRun run with error | middle
  · simp [written, Except.map] at updated
  · obtain ⟨current, held, steps, rfl⟩ := updateRun_ok written
    refine ⟨current, held, steps, ?_⟩
    simpa [written, Except.map] using updated.symm

lemma createStep_ok (updated : store.createStep step = .ok store') :
    store.steps[step.stepIndex]? = none ∧
      store' = { store with steps := store.steps.insert step.stepIndex step } := by
  unfold createStep at updated
  rcases held : store.steps[step.stepIndex]? with _ | current
  · exact ⟨rfl, by simpa [held] using updated.symm⟩
  · simp [held] at updated

lemma updateStep_ok (updated : store.updateStep step = .ok store') :
    ∃ current, store.steps[step.stepIndex]? = some current ∧ current.status.Steps step.status ∧
      store' = { store with
        steps := store.steps.insert step.stepIndex (current.overwrite step) } := by
  unfold updateStep at updated
  rcases held : store.steps[step.stepIndex]? with _ | current
  · simp [held] at updated
  · simp only [held] at updated
    split_ifs at updated with refused
    refine ⟨current, rfl, ?_, (Except.ok.inj updated).symm⟩
    by_cases same : current.status = step.status
    · exact .inl same
    · exact .inr (by simpa [same] using refused)

/-- A call that writes has no effect, and fails, or it has the effect of the operation. -/
lemma write_cases (outcome : Outcome) (result : Except StoreError Store) (store : Store) :
    ((store.write outcome result).store = store ∧ (store.write outcome result).wrote = false ∧
        ∃ error, (store.write outcome result).reply = .failed error) ∨
      ∃ store', result = .ok store' ∧ (store.write outcome result).store = store' ∧
        (store.write outcome result).wrote = true ∧
        ((store.write outcome result).reply = .done ∨
          ∃ error, (store.write outcome result).reply = .failed error) := by
  rcases outcome with _ | cause | cause <;> rcases result with error | store' <;>
    simp [write]

@[simp] lemma read_store (reply : Reply) : (store.read outcome reply).store = store := by
  cases outcome <;> rfl

@[simp] lemma read_wrote (reply : Reply) : (store.read outcome reply).wrote = false := by
  cases outcome <;> rfl

end Store

end TechStack.Workflow
