import TechStack.Workflow.Store

/-!
# The workflow engine

One run of a workflow in one process.  Several goroutines work on the run: calls of
`Deliver`, `StartOrResumeRun` and `Advance`, the poll loop with `tryAdvance`, and the
timer sweep, which calls `Deliver`.  The lock of the run lets one of them in at a time;
`Driver` says where in `Deliver` and `advance` that one is, and what it holds in memory.
The others are `Caller`s: they have not got the lock, though `Deliver` has already read
the run by then.

Between two calls of the store a goroutine only computes.  So a driver is described by
the call that it makes next (`command`) and by what it does with the reply (`resume`).
Step functions and compensations are arbitrary: each call of one may return any result
and may edit the context in any way.

The log is not part of the engine.  It records what the properties of a run talk of: which
steps were invoked and with which signal, which failures and suspensions were stored, and
when the row of the run was read and written.
-/

namespace TechStack.Workflow

open List Option

open Std (ExtTreeMap)
open Lib (Machine)

/-! ## Workflow definitions -/

/-- `RetryPolicy`, without the delays. -/
structure RetryPolicy where
  maxAttempts : ℤ

/-- `ShouldRetry`. -/
def RetryPolicy.shouldRetry (policy : RetryPolicy) (attempt : ℕ) : Bool :=
  if policy.maxAttempts ≤ 1 then false else decide ((attempt : ℤ) < policy.maxAttempts)

/-- `StepDef`: its name and whether it has a `Compensate`. -/
structure StepDef where
  name : String
  compensate : Bool

/-- `WorkflowDefinition`. -/
structure Definition where
  steps : List StepDef
  retryPolicy : RetryPolicy

variable (w : Definition)

/-- The step has a rollback. -/
def Definition.compensates (stepIndex : ℕ) : Bool :=
  (w.steps[stepIndex]?).any StepDef.compensate

/-- `SuspendDirective`. -/
structure SuspendDirective where
  signalKey : String
  timeout : ℤ
  timerKind : Option TimerKind

/-- `StepResult`; the output is given by its JSON text. -/
structure StepResult where
  output : String
  suspend : Option SuspendDirective
  pending : Bool

/-- A step function sets an entry of the context, or deletes it. -/
abbrev Edit : Type := String × Option Value

def Edit.apply (entries : Entries) (edit : Edit) : Entries :=
  match edit.2 with
  | some value => entries.insert edit.1 value
  | none => entries.erase edit.1

/-! ## The goroutine that has the lock -/

/-- Where the goroutine is, and what it holds in memory.  Each position but `invoke` and
`undo` is before a call of the store. -/
inductive Driver where
  /-- `Deliver` has the lock and writes the run that it found before. -/
  | deliver (run : Run) (signal : Signal)
  /-- `advance` reads the run. -/
  | load
  /-- A pending run becomes a running one. -/
  | starts (run : Run) (pending : Option Signal)
  /-- `getOrCreateStep` reads the step. -/
  | fetch (run : Run) (pending : Option Signal)
  | create (run : Run) (pending : Option Signal)
  /-- The step had been completed before. -/
  | skip (run : Run) (pending : Option Signal)
  /-- `runStepWithRetry` marks the step running. -/
  | mark (run : Run) (step : Step) (signal : Option Signal)
  /-- The step function runs. -/
  | invoke (run : Run) (step : Step) (signal : Option Signal)
  /-- The step function has failed. -/
  | fails (run : Run) (step : Step)
  | complete (run : Run) (step : Step)
  | progress (run : Run)
  | suspend (run : Run) (directive : SuspendDirective)
  /-- `failWithCompensation` stores the cause. -/
  | abort (run : Run)
  /-- `resumeCompensation` reads the steps. -/
  | list (run : Run)
  /-- The compensation of a step runs; `rest` are the steps before it. -/
  | undo (run : Run) (step : Step) (rest : List Step)
  | checkpoint (run : Run) (step : Step) (rest : List Step) (result : Except String StepResult)
  | note (step : Step)
  | undone (run : Run) (step : Step) (rest : List Step)
  | fail (run : Run)
  | finish (run : Run)

/-- What follows a reply: another position, or the call returns, with an error or without. -/
inductive Turn where
  | goes (driver : Driver)
  | returns (ok : Bool)

/-- The context after a step function. -/
def Run.edit (run : Run) (edits : List Edit) : Run :=
  { run with context := { run.context with
      entries := edits.foldl Edit.apply run.context.entries } }

/-- `consumeSignal`, the run after it. -/
def Run.consumed (run : Run) : Run := { run with context := { run.context with signal := none } }

/-- The run after its step. -/
def Run.stepped (run : Run) : Run := { run with currentStep := run.currentStep + 1 }

/-- The run as `Deliver` writes it. -/
def Run.resumed (run : Run) (signal : Signal) : Run :=
  { run with
    context := { run.context with signal := some signal }
    awaitingSignal := ""
    status := .running }

/-- The run as `suspend` writes it. -/
def Run.suspendedOn (run : Run) (directive : SuspendDirective) : Run :=
  { run with status := .suspended, awaitingSignal := directive.signalKey }

/-- The run as `failWithCompensation` writes it. -/
def Run.aborted (run : Run) (cause : String) : Run :=
  { run with status := .compensating, error := cause }

/-- The timer that `suspend` arms. -/
def SuspendDirective.timer (directive : SuspendDirective) (now : ℤ) : Option Timer :=
  if 0 < directive.timeout then
    some ⟨directive.timerKind.getD .escalation, now + directive.timeout, false,
      directive.signalKey⟩
  else none

/-- The row that `getOrCreateStep` creates. -/
def Definition.newStep (run : Run) : Step where
  stepIndex := run.currentStep
  name := ((w.steps[run.currentStep]?).map StepDef.name).getD ""
  status := .pending
  attempt := 0
  output := ""
  error := ""
  idempotencyKey := s!"{run.identity.runID}:{run.currentStep}"

/-- The head of the loop of `advance`. -/
def Definition.next (run : Run) (pending : Option Signal) : Driver :=
  if run.currentStep < w.steps.length then .fetch run pending
  else .finish { run with status := .completed }

/-- `advance`, from the run that it has read up to its first write. -/
def Definition.enter (run : Run) : Turn :=
  if isTerminal run.status then .returns true
  else if run.status = .compensating then .goes (.list run)
  else if run.status = .pending then
    .goes (.starts { run.consumed with status := .running } run.context.signal)
  else .goes (w.next run.consumed run.context.signal)

/-- The loop of `resumeCompensation`, over the rows from the last to the first. -/
def Definition.rollback (w : Definition) (run : Run) : List Step → Driver
  | [] => .fail { run with status := .failed }
  | step :: rest =>
    if step.status = .completed ∧ w.compensates step.stepIndex then .undo run step rest
    else w.rollback run rest

namespace Driver

/-- The call of the store that comes next; there is none while a function runs. -/
def command (w : Definition) (now : ℤ) : Driver → Option Command
  | deliver run signal => some (.updateRun (run.resumed signal))
  | load => some .getRun
  | starts run _ => some (.updateRun run)
  | fetch run _ => some (.getStep run.currentStep)
  | create run _ => some (.createStep (w.newStep run))
  | skip run _ => some (.updateRun run)
  | mark _ step _ => some (.updateStep { step with status := .running })
  | invoke _ _ _ => none
  | fails _ step => some (.updateStep step)
  | complete _ step => some (.updateStep step)
  | progress run => some (.updateRun run)
  | suspend run directive =>
    some (.suspendRun (run.suspendedOn directive) (directive.timer now))
  | abort run => some (.updateRun run)
  | list _ => some .listSteps
  | undo _ _ _ => none
  | checkpoint run _ _ _ => some (.updateRun run)
  | note step => some (.updateStep step)
  | undone _ step _ => some (.updateStep { step with status := .compensated, error := "" })
  | fail run => some (.updateRun run)
  | finish run => some (.updateRun run)

/-- What a driver does with the reply. -/
def resume (w : Definition) : Driver → Reply → Turn
  | deliver _ _, .done => .goes .load
  | load, .run run => w.enter run
  | starts run pending, .done => .goes (w.next run pending)
  | fetch run pending, .step step =>
    if step.status = .completed then .goes (.skip run.stepped pending)
    else .goes (.mark run step pending)
  | fetch run pending, .failed (.notFound _) => .goes (.create run pending)
  | create run pending, .done => .goes (.mark run (w.newStep run) pending)
  | skip run pending, .done => .goes (w.next run pending)
  | mark run step signal, .done => .goes (.invoke run { step with status := .running } signal)
  -- A failure of the store is taken for a failure of the step.
  | mark run _ _, .failed error => .goes (.abort (run.aborted error.message))
  | fails run step, .done =>
    if w.retryPolicy.shouldRetry step.attempt then .goes (.mark run step none)
    else .goes (.abort (run.aborted step.error))
  | fails run _, .failed error => .goes (.abort (run.aborted error.message))
  | complete run _, .done => .goes (.progress run.stepped)
  | progress run, .done => .goes (w.next run none)
  | suspend _ _, .done => .returns true
  | abort run, .done => .goes (.list run)
  | list run, .steps steps => .goes (w.rollback run steps.reverse)
  | checkpoint run step rest result, .done =>
    match result with
    | .error cause => .goes (.note { step with error := cause })
    | .ok result =>
      if result.pending ∨ result.suspend.isSome then .returns true
      else .goes (.undone run step rest)
  | undone run _ rest, .done => .goes (w.rollback run rest)
  | fail _, .done => .returns true
  | finish _, .done => .returns true
  | _, _ => .returns false

/-- The function that runs returns. -/
def returned (edits : List Edit) (result : Except String StepResult) : Driver → Option Driver
  | invoke run step _ =>
    match result with
    | .error cause =>
      some (.fails (run.edit edits)
        { step with attempt := step.attempt + 1, error := cause, status := .failed })
    | .ok result =>
      match result.suspend with
      | some directive => some (.suspend (run.edit edits) directive)
      | none =>
        some (.complete (run.edit edits)
          { step with status := .completed, output := result.output, error := "" })
  | undo run step rest => some (.checkpoint (run.edit edits) step rest result)
  | _ => none

end Driver

/-! ## The record of a run -/

inductive Event where
  /-- `Deliver` finds the run suspended at a step. -/
  | found (stepIndex : ℕ)
  | loaded
  /-- The row of the run is written. -/
  | checkpoint
  /-- A step function returns and has edited these entries. -/
  | edited (keys : List String)
  /-- A step function is called, with the row that the engine had read. -/
  | invoked (stepIndex : ℕ) (signal : Option Signal) (row : Step)
  /-- The failure of a step is stored. -/
  | failed (stepIndex : ℕ)
  /-- A suspension is stored. -/
  | suspended (stepIndex : ℕ) (key : String) (since timeout : ℤ)
  deriving DecidableEq

/-- What a call of the store adds to the log. -/
def Driver.events (now : ℤ) (driver : Driver) (done : Executed) : List Event :=
  match driver, done.wrote, done.reply with
  | .load, _, _ => [.loaded]
  | .mark run step signal, _, .done => [.invoked run.currentStep signal step]
  | .mark _ _ _, _, _ => []
  | .fails run _, true, _ => [.failed run.currentStep]
  | .complete _ _, _, _ => []
  | .create _ _, _, _ => []
  | .note _, _, _ => []
  | .undone _ _ _, _, _ => []
  | .suspend run directive, true, _ =>
    [.checkpoint, .suspended run.currentStep directive.signalKey now directive.timeout]
  | _, true, _ => [.checkpoint]
  | _, false, _ => []

/-! ## The goroutines that wait, and the whole process -/

/-- The run as `StartOrResumeRun` is given it. -/
structure Request where
  identity : Identity
  currentStep : ℕ
  entries : Entries

def Request.run (request : Request) : Run where
  identity := request.identity
  status := .pending
  currentStep := request.currentStep
  context := ⟨request.entries, none⟩
  awaitingSignal := ""
  error := ""

/-- A goroutine without the lock. -/
inductive Caller where
  /-- `Deliver` looks for the run that waits for the signal. -/
  | find (signal : Signal)
  /-- `Deliver` has found it and waits for the lock. -/
  | await (run : Run) (signal : Signal)
  /-- `Advance` waits for the lock. -/
  | advance
  | tryAdvance
  /-- `StartOrResumeRun` reads the run. -/
  | start (request : Request)
  | insert (request : Request)
  /-- `StartOrResumeRun` could not create the run and reads it again. -/
  | adopt (request : Request)
  /-- `SweepTimers` marks a timer fired. -/
  | fire (timer : ℕ)

/-- The store, the clock, and the goroutines of the process.  Those of the timer sweep
carry the timer that they deliver. -/
structure System where
  store : Store
  now : ℤ
  callers : List (Caller × Option ℕ)
  driver : Option (Driver × Option ℕ)
  log : List Event

/-- What happens next. -/
inductive Move where
  | deliver (signal : Signal)
  | startOrResumeRun (request : Request)
  | advance
  | pollRuns
  | sweepTimers (timer : ℕ)
  /-- Another run of the tenant arms a timer. -/
  | otherTimer (timer : Timer)
  /-- The next call of a goroutine without the lock. -/
  | call (i : ℕ) (outcome : Outcome)
  /-- The next call of the goroutine that has the lock. -/
  | drive (outcome : Outcome)
  /-- The step function or the compensation that runs returns. -/
  | returns (edits : List Edit) (result : Except String StepResult)
  | tick (duration : ℕ)
  /-- The process stops and is started again. -/
  | stop

namespace System

/-- `SweepTimers` after `Deliver`: the timer is marked fired. -/
def settled : Option ℕ → List (Caller × Option ℕ)
  | some timer => [(.fire timer, none)]
  | none => []

/-- Whether the run waits for the signal. -/
def Awaits (run : Run) (key : String) : Prop :=
  run.status = .suspended ∧ run.awaitingSignal = key

instance (run : Run) (key : String) : Decidable (Awaits run key) :=
  inferInstanceAs (Decidable (_ ∧ _))

/-- The next call of a goroutine without the lock; `rest` are the other ones. -/
def callNext (s : System) (rest : List (Caller × Option ℕ)) (tag : Option ℕ) (outcome : Outcome) :
    Caller → Option System
  | .find signal =>
    match outcome, s.store.run with
    | .ok, some run =>
      if Awaits run signal.key then
        some { s with
          callers := rest ++ [(.await run { signal with
            deliverAt := signal.deliverAt.or (some s.now), delivery := s.log.length }, tag)]
          log := s.log ++ [.found run.currentStep] }
      else some { s with callers := rest ++ settled tag }
    | .ok, none => some { s with callers := rest ++ settled tag }
    | .fails _, _ => some { s with callers := rest }
    -- The signal goes to another run that waits for the same key.
    | .lost _, _ => some { s with callers := rest ++ settled tag }
  | .await run signal =>
    match s.driver with
    | some _ => none
    | none => some { s with callers := rest, driver := some (.deliver run signal, tag) }
  | .advance =>
    match s.driver with
    | some _ => none
    | none => some { s with callers := rest, driver := some (.load, tag) }
  | .tryAdvance =>
    match s.driver with
    | some _ => some { s with callers := rest }
    | none => some { s with callers := rest, driver := some (.load, tag) }
  | .start request =>
    match outcome, s.store.run with
    | .ok, some existing =>
      if sameRunIdentity existing.identity request.identity then
        some { s with callers := rest ++ [(.advance, tag)] }
      else some { s with callers := rest }
    | .ok, none => some { s with callers := rest ++ [(.insert request, tag)] }
    | _, _ => some { s with callers := rest }
  | .insert request =>
    match s.store.write outcome (s.store.createRun request.run) with
    | ⟨store, .done, _⟩ => some { s with store := store, callers := rest ++ [(.advance, tag)] }
    | ⟨store, _, _⟩ =>
      some { s with store := store, callers := rest ++ [(.adopt request, tag)] }
  | .adopt request =>
    match outcome, s.store.run with
    | .ok, some existing =>
      if sameRunIdentity existing.identity request.identity then
        some { s with callers := rest ++ [(.advance, tag)] }
      else some { s with callers := rest }
    | _, _ => some { s with callers := rest }
  | .fire timer =>
    match outcome with
    | .fails _ => some { s with callers := rest }
    | _ => some { s with callers := rest, store := s.store.markTimerFired timer }

/-- The next call of the goroutine that has the lock. -/
def driveNext (w : Definition) (s : System) (outcome : Outcome) : Option System := do
  let (driver, tag) ← s.driver
  let command ← driver.command w s.now
  let done := s.store.execute outcome command
  let s := { s with store := done.store, log := s.log ++ driver.events s.now done }
  match driver.resume w done.reply with
  | .goes driver => some { s with driver := some (driver, tag) }
  | .returns true => some { s with driver := none, callers := s.callers ++ settled tag }
  | .returns false => some { s with driver := none }

def act (w : Definition) (s : System) : Move → Option System
  | .deliver signal => some { s with callers := s.callers ++ [(.find signal, none)] }
  | .startOrResumeRun request =>
    some { s with callers := s.callers ++ [(.start request, none)] }
  | .advance => some { s with callers := s.callers ++ [(.advance, none)] }
  | .pollRuns =>
    match s.store.run with
    | none => none
    | some run =>
      if run.status = .pending ∨ run.status = .running ∨ run.status = .compensating then
        some { s with callers := s.callers ++ [(.tryAdvance, none)] }
      else none
  | .sweepTimers id =>
    match s.store.timers[id]? with
    | none => none
    | some timer =>
      if timer.fired = false ∧ timer.fireAt ≤ s.now then
        some { s with callers := s.callers ++
          [(.find ⟨timer.signalKey, "", true, some s.now, 0⟩, some id)] }
      else none
  | .otherTimer timer =>
    some { s with store := { s.store with timers := s.store.timers ++ [timer] } }
  | .call i outcome =>
    match s.callers[i]? with
    | none => none
    | some (caller, tag) => s.callNext (s.callers.eraseIdx i) tag outcome caller
  | .drive outcome => s.driveNext w outcome
  | .returns edits result => do
      let (driver, tag) ← s.driver
      let driver ← driver.returned edits result
      some { s with
        driver := some (driver, tag), log := s.log ++ [.edited (edits.map Prod.fst)] }
  | .tick duration => some { s with now := s.now + duration }
  | .stop => some { s with callers := [], driver := none }

/-- Before the run is created. -/
def initial (now : ℤ) : System := ⟨⟨none, ∅, []⟩, now, [], none, []⟩

end System

/-- The life of one run. -/
def life : Machine System Move where
  init s := ∃ now, s = .initial now
  step s move s' := s.act w move = some s'

lemma enacted : (life w).Enacts (System.act w) (.initial 0) := ⟨⟨0, rfl⟩, fun _ _ _ => id⟩

/-- `StartOrResumeRun` creates a run, and its `Advance` gets the lock. -/
def startingMoves : List Move :=
  [.startOrResumeRun ⟨⟨"run", "tenant", "service_migration", "", "", "", ""⟩, 0, ∅⟩,
    .call 0 .ok, .call 0 .ok, .call 0 .ok]

/-- `advance` goes on up to the function of the first step. -/
def firstStepMoves : List Move := startingMoves ++ List.replicate 5 (.drive .ok)

/-- A step function that succeeds and leaves the context as it is. -/
def succeeds : Move := .returns [] (.ok ⟨"", none, false⟩)

/-! ## What a move can do -/

/-- An invocation is logged when the step is marked running. -/
lemma invoked_of_events {driver : Driver} {now : ℤ} {done : Executed} {i : ℕ}
    {signal : Option Signal} {row : Step} (mem : .invoked i signal row ∈ driver.events now done) :
    ∃ run, driver = .mark run row signal ∧ run.currentStep = i := by
  obtain ⟨store, reply, wrote⟩ := done
  cases driver with
  | mark run step signal' =>
    cases reply <;> simp [Driver.events] at mem
    obtain ⟨rfl, rfl, rfl⟩ := mem
    exact ⟨run, rfl, rfl⟩
  | _ => cases wrote <;> simp [Driver.events] at mem

/-- The row that `CreateRun` inserts. -/
def Request.created (request : Request) : Run :=
  { request.run with context := request.run.context.stored }

/-- What becomes of the goroutine that has the lock, and what is logged, while the rows of the
run stay as they are. -/
inductive System.Passes (s : System) (move : Move) (s' : System) : List Event → Prop where
  | quiet (driver : s'.driver = s.driver) : Passes s move s' []
  | found (i : ℕ) (driver : s'.driver = s.driver) : Passes s move s' [.found i]
  | stopped (driver : s'.driver = none) (moves : move = .stop) : Passes s move s' []
  /-- A goroutine gets the lock. -/
  | locked (free : s.driver = none) (next : Driver) (tag : Option ℕ)
      (driver : s'.driver = some (next, tag)) (starts : next = .load ∨ ∃ run signal,
        (.await run signal, tag) ∈ s.callers ∧ next = .deliver run signal) : Passes s move s' []
  /-- The function that the driver has called returns. -/
  | returned (driver next : Driver) (tag : Option ℕ) (edits : List Edit)
      (result : Except String StepResult) (held : s.driver = some (driver, tag))
      (returns : driver.returned edits result = some next) (driver' : s'.driver = some (next, tag))
      (moves : move = .returns edits result) : Passes s move s' [.edited (edits.map Prod.fst)]

/-- The effect of a move on the rows of the run and on the goroutine that has the lock. -/
inductive System.Happens (w : Definition) (s : System) (move : Move) (s' : System) : Prop where
  | passes (new : List Event) (run : s'.store.run = s.store.run)
      (steps : s'.store.steps = s.store.steps) (log : s'.log = s.log ++ new)
      (passes : s.Passes move s' new)
  | created (absent : s.store.run = none) (request : Request)
      (run : s'.store.run = some request.created) (steps : s'.store.steps = s.store.steps)
      (driver : s'.driver = s.driver) (log : s'.log = s.log)
  /-- The driver makes its next call. -/
  | driven (driver : Driver) (tag : Option ℕ) (command : Command) (outcome : Outcome)
      (held : s.driver = some (driver, tag)) (commands : driver.command w s.now = some command)
      (store : s'.store = (s.store.execute outcome command).store)
      (log : s'.log = s.log ++ driver.events s.now (s.store.execute outcome command))
      (turns : ∀ next tag', s'.driver = some (next, tag') ↔
        driver.resume w (s.store.execute outcome command).reply = .goes next ∧ tag = tag')
      (moves : move = .drive outcome)

variable {caller : Caller} {outcome : Outcome}

namespace System

variable {w : Definition} {s s' : System} {move : Move}

/-- A signal as `Deliver` completes it when it has found the run. -/
def stamped (s : System) (signal : Signal) : Signal :=
  { signal with deliverAt := signal.deliverAt.or (some s.now), delivery := s.log.length }

/-- The goroutine is a `Deliver`. -/
def delivers : Caller → Bool
  | .find _ => true
  | .await _ _ => true
  | _ => false

lemma settled_silent {tag tag' : Option ℕ} (mem : (caller, tag) ∈ settled tag')
    : delivers caller = false := by
  rcases tag' with _ | timer
  · simp [settled] at mem
  · obtain ⟨rfl, -⟩ := Prod.mk.inj (mem_singleton.mp mem)
    rfl

/-- The store after the call of a goroutine without the lock. -/
def Called.Stores (s : System) (store : Store) : Prop :=
  store = s.store ∨ (∃ timer, store = s.store.markTimerFired timer) ∨
    s.store.run = none ∧ ∃ request : Request,
      store = { s.store with run := some request.created }

/-- What the next call of a goroutine without the lock leaves of it. -/
inductive Called (s : System) (rest : List (Caller × Option ℕ)) (tag : Option ℕ)
    (outcome : Outcome) : Caller → System → Prop where
  /-- `Deliver` has found the run. -/
  | found (signal : Signal) (run : Run) (present : s.store.run = some run)
      (awaits : Awaits run signal.key) (ok : outcome = .ok) :
      Called s rest tag outcome (.find signal) { s with
        callers := rest ++ [(.await run (s.stamped signal), tag)]
        log := s.log ++ [.found run.currentStep] }
  /-- It gets the lock. -/
  | locked (caller : Caller) (driver : Driver) (free : s.driver = none)
      (starts : driver = .load ∨ ∃ run signal,
        caller = .await run signal ∧ driver = .deliver run signal) :
      Called s rest tag outcome caller
        { s with callers := rest, driver := some (driver, tag) }
  /-- It goes on with calls that deliver nothing. -/
  | leaves (caller : Caller) (more : List (Caller × Option ℕ)) (store : Store)
      (silent : ∀ caller' tag', (caller', tag') ∈ more → delivers caller' = false)
      (stored : Called.Stores s store) :
      Called s rest tag outcome caller { s with store := store, callers := rest ++ more }

lemma Called.unstored {rest : List (Caller × Option ℕ)} {tag : Option ℕ}
    (more : List (Caller × Option ℕ))
    (silent : ∀ caller' tag', (caller', tag') ∈ more → delivers caller' = false) :
    Called s rest tag outcome caller { s with callers := rest ++ more } :=
  .leaves caller more s.store silent (.inl rfl)

lemma Called.returns {rest : List (Caller × Option ℕ)} {tag : Option ℕ} :
    Called s rest tag outcome caller { s with callers := rest } := by
  have left : Called s rest tag outcome caller { s with callers := rest ++ [] } :=
    .unstored [] (by simp)
  simpa using left

lemma called_of_callNext {rest : List (Caller × Option ℕ)} {tag : Option ℕ}
    (acted : s.callNext rest tag outcome caller = some s') :
    Called s rest tag outcome caller s' := by
  cases caller with
  | find signal =>
    simp only [callNext] at acted
    split at acted
    · split_ifs at acted <;> cases acted
      · exact .found signal _ ‹_› ‹_› rfl
      · exact .unstored _ fun _ _ => settled_silent
    · cases acted
      exact .unstored _ fun _ _ => settled_silent
    · cases acted
      exact .returns
    · cases acted
      exact .unstored _ fun _ _ => settled_silent
  | await run signal =>
    simp only [callNext] at acted
    split at acted <;> cases acted
    exact .locked _ _ ‹_› (.inr ⟨run, signal, rfl, rfl⟩)
  | advance =>
    simp only [callNext] at acted
    split at acted <;> cases acted
    exact .locked _ _ ‹_› (.inl rfl)
  | tryAdvance =>
    simp only [callNext] at acted
    split at acted <;> cases acted
    · exact .returns
    · exact .locked _ _ ‹_› (.inl rfl)
  | start request | adopt request =>
    simp only [callNext] at acted
    split at acted
    · split_ifs at acted <;> cases acted
      · exact .unstored _ (by simp [delivers])
      · exact .returns
    all_goals
      cases acted
      first | exact .returns | exact .unstored _ (by simp [delivers])
  | insert request =>
    have stored : Called.Stores s (s.store.write outcome (s.store.createRun request.run)).store := by
      obtain ⟨same, -⟩ | ⟨store', inserted, written, -⟩ :=
        Store.write_cases outcome (s.store.createRun request.run) s.store
      · exact .inl same
      · unfold Store.createRun at inserted
        split at inserted <;> cases inserted
        exact .inr (.inr ⟨‹_›, request, written⟩)
    simp only [callNext] at acted
    split at acted <;> cases acted <;> simp only [*] at stored <;>
      exact .leaves _ _ _ (by simp [delivers]) stored
  | fire timer =>
    simp only [callNext] at acted
    split at acted <;> cases acted
    · exact .returns
    · have left : Called s rest tag outcome (.fire timer)
          { s with store := s.store.markTimerFired timer, callers := rest ++ [] } :=
        .leaves _ [] _ (by simp) (.inr (.inl ⟨timer, rfl⟩))
      simpa using left

lemma Happens.quiet (run : s'.store.run = s.store.run) (steps : s'.store.steps = s.store.steps)
    (driver : s'.driver = s.driver) (log : s'.log = s.log) : Happens w s move s' :=
  .passes [] run steps (by simpa using log) (.quiet driver)

lemma callNext_happens {i : ℕ} {tag : Option ℕ} (waits : s.callers[i]? = some (caller, tag))
    (acted : s.callNext (s.callers.eraseIdx i) tag outcome caller = some s') :
    Happens w s move s' := by
  cases called_of_callNext acted with
  | found signal run => exact .passes _ rfl rfl rfl (.found _ rfl)
  | locked _ driver free starts =>
    refine .passes [] rfl rfl (by simp) (.locked free driver tag rfl (starts.imp id ?_))
    rintro ⟨run, signal, rfl, rfl⟩
    exact ⟨run, signal, mem_of_getElem? waits, rfl⟩
  | leaves _ more store _ stored =>
    rcases stored with rfl | ⟨timer, rfl⟩ | ⟨absent, request, rfl⟩
    · exact .quiet rfl rfl rfl rfl
    · exact .quiet rfl rfl rfl rfl
    · exact .created absent request rfl rfl rfl rfl

lemma driveNext_happens (acted : s.driveNext w outcome = some s') :
    Happens w s (.drive outcome) s' := by
  unfold driveNext at acted
  simp only [bind_eq_bind, bind_eq_some_iff] at acted
  obtain ⟨⟨driver, tag⟩, held, command, commands, acted⟩ := acted
  simp only at commands acted
  split at acted <;> rename_i turn <;> cases acted <;>
    exact .driven driver tag command outcome held commands rfl rfl (by simp [turn]) rfl

/-- **Every move does one of these things.** -/
lemma happens_of_act (acted : s.act w move = some s') : Happens w s move s' := by
  cases move with
  | deliver | startOrResumeRun | advance | otherTimer | tick =>
    cases acted
    exact .quiet rfl rfl rfl rfl
  | pollRuns | sweepTimers =>
    simp only [act] at acted
    split at acted
    · simp at acted
    · split_ifs at acted
      cases acted
      exact .quiet rfl rfl rfl rfl
  | call i outcome =>
    simp only [act] at acted
    split at acted
    · simp at acted
    · exact callNext_happens ‹_› acted
  | drive outcome => exact driveNext_happens acted
  | returns edits result =>
    simp only [act, bind_eq_bind, bind_eq_some_iff] at acted
    obtain ⟨⟨driver, tag⟩, held, next, returns, acted⟩ := acted
    cases acted
    exact .passes _ rfl rfl rfl (.returned driver next tag edits result held returns rfl rfl)
  | stop =>
    cases acted
    exact .passes [] rfl rfl (by simp) (.stopped rfl rfl)

/-! ## Where a goroutine without the lock comes from -/

/-- A goroutine without the lock that a move adds. -/
inductive Arrives (s : System) (move : Move) (s' : System) : Caller → Option ℕ → Prop where
  /-- `Deliver` has found the run. -/
  | found (i : ℕ) (signal : Signal) (tag : Option ℕ) (run : Run)
      (waits : s.callers[i]? = some (.find signal, tag)) (present : s.store.run = some run)
      (awaits : Awaits run signal.key) (store : s'.store = s.store) (driver : s'.driver = s.driver)
      (log : s'.log = s.log ++ [.found run.currentStep]) (moves : move = .call i .ok) :
      Arrives s move s' (.await run (s.stamped signal)) tag
  /-- `Deliver` is called from outside. -/
  | delivered (signal : Signal) : Arrives s move s' (.find signal) none
  /-- `SweepTimers` calls `Deliver` for a timer that is due. -/
  | swept (id : ℕ) (timer : Timer) (present : s.store.timers[id]? = some timer)
      (unfired : timer.fired = false) (due : timer.fireAt ≤ s.now) :
      Arrives s move s' (.find ⟨timer.signalKey, "", true, some s.now, 0⟩) (some id)
  | other (caller : Caller) (tag : Option ℕ) (silent : delivers caller = false) :
      Arrives s move s' caller tag

/-- Of the goroutines after the next call of one, those that were not there before. -/
lemma callNext_arrives {i : ℕ} {caller caller' : Caller} {tag tag' : Option ℕ}
    (waits : s.callers[i]? = some (caller', tag'))
    (acted : s.callNext (s.callers.eraseIdx i) tag' outcome caller' = some s')
    (mem : (caller, tag) ∈ s'.callers) :
    (caller, tag) ∈ s.callers ∨ Arrives s (.call i outcome) s' caller tag := by
  cases called_of_callNext acted with
  | found signal run present awaits ok =>
    refine (mem_append.mp mem).imp mem_of_mem_eraseIdx fun new => ?_
    obtain ⟨rfl, rfl⟩ := Prod.mk.inj (mem_singleton.mp new)
    exact .found i signal tag run waits present awaits rfl rfl rfl (by rw [ok])
  | locked => exact .inl (mem_of_mem_eraseIdx mem)
  | leaves _ more store silent =>
    exact (mem_append.mp mem).imp mem_of_mem_eraseIdx fun new => .other _ _ (silent _ _ new)

/-- **Every goroutine without the lock was there before or has arrived.** -/
lemma arrives_of_act {tag : Option ℕ} (acted : s.act w move = some s')
    (mem : (caller, tag) ∈ s'.callers) :
    (caller, tag) ∈ s.callers ∨ Arrives s move s' caller tag := by
  have joined : ∀ {added : Caller} {t : Option ℕ},
      (caller, tag) ∈ s.callers ++ [(added, t)] → Arrives s move s' added t →
      (caller, tag) ∈ s.callers ∨ Arrives s move s' caller tag := by
    intro added t inside arrives
    rcases mem_append.mp inside with before | new
    · exact .inl before
    · obtain ⟨rfl, rfl⟩ := Prod.mk.inj (mem_singleton.mp new)
      exact .inr arrives
  cases move with
  | deliver signal =>
    cases acted
    exact joined mem (.delivered signal)
  | startOrResumeRun | advance =>
    cases acted
    exact joined mem (.other _ _ rfl)
  | otherTimer | tick =>
    cases acted
    exact .inl mem
  | stop =>
    cases acted
    simp at mem
  | pollRuns =>
    simp only [act] at acted
    split at acted
    · simp at acted
    · split_ifs at acted
      cases acted
      exact joined mem (.other _ _ rfl)
  | sweepTimers id =>
    simp only [act] at acted
    split at acted
    · simp at acted
    · rename_i timer present
      split_ifs at acted with due
      cases acted
      exact joined mem (.swept id timer present due.1 due.2)
  | call i outcome =>
    simp only [act] at acted
    split at acted
    · simp at acted
    · rename_i caller' tag' waits
      exact callNext_arrives waits acted mem
  | drive outcome =>
    simp only [act, driveNext, bind_eq_bind, bind_eq_some_iff] at acted
    obtain ⟨⟨driver, tag'⟩, held, command, commands, acted⟩ := acted
    simp only at acted
    split at acted <;> cases acted
    · exact .inl mem
    · rcases mem_append.mp mem with before | new
      · exact .inl before
      · exact .inr (.other _ _ (settled_silent new))
    · exact .inl mem
  | returns edits result =>
    simp only [act, bind_eq_bind, bind_eq_some_iff] at acted
    obtain ⟨⟨driver, tag'⟩, held, next, returns, acted⟩ := acted
    cases acted
    exact .inl mem

end System

end TechStack.Workflow
