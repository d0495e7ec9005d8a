import TechStack.Lib.Transition

/-!
# A job in the queue

The in-memory job queue as one of its jobs sees it.  The queue passes the pointer of a job from
hand to hand: `Enqueue` and the resume timers put it into the channel of pending jobs, a worker
takes it out, begins an execution, calls the handler and settles what the handler returned.
Where the pointer is, is the job's `Position`.  Nothing else sends it, so there is one position,
however many workers there are; what the other jobs do only decides when the steps of this one
happen.

Calls of `Cancel`, `SupersedeWaitingJob`, `DetachFencedExecution` and `Stop` come at any time.
What they do after their locked section, ending the resume timer and then the context of an
execution, is done in steps of their own; `CancelCall` remembers how far a call is.

Every section under a lock and every read or end of a context is one step.
-/

namespace TechStack.Jobs

open Lib

/-! ### The job -/

inductive JobState where
  | pending
  | waiting
  | running
  | completed
  | failed
  | cancelled
  deriving DecidableEq

/-- `isTerminalJobState`. -/
def JobState.terminal : JobState → Bool
  | .completed | .failed | .cancelled => true
  | .pending | .waiting | .running => false

/-- The fields of a job that its execution reads and writes.  Executions are numbered, and
`cancelFunc` ends the context of the one it was made for. -/
structure Job where
  type : String
  state : JobState
  waitReason : String
  error : String
  attempts : ℕ
  maxAttempts : ℕ
  cancelFunc : Option ℕ
  cancellationRequested : Bool
  cancellationReason : String
  suppressPersistence : Bool

/-- `jobExecutionAttempt`: what the job was before the execution began. -/
structure Attempt where
  previousState : JobState
  previousWaitReason : String
  previousAttempts : ℕ
  deriving DecidableEq

def canceledByUser : String := "Job canceled by user request"
def canceledInShutdown : String := "Job canceled during orchestrator shutdown"
def noHandlerForType (type : String) : String := "no handler for job type: " ++ type

/-- Why a durable claim was not won. -/
inductive ClaimError where
  | nodeMaintenance
  | targetBusy
  | fenced
  | unavailable
  deriving DecidableEq

/-- `WaitReason` of a job whose claim is put off. -/
def ClaimError.waitReason : ClaimError → String
  | .nodeMaintenance => "waiting_node_maintenance"
  | .targetBusy => "waiting_stack_execution"
  | .fenced | .unavailable => "waiting_execution_claim"

/-- What a handler returns. -/
inductive HandlerResult where
  | success
  | wait (reason : String)
  | retryable (message : String)
  | permanent (message : String)
  deriving DecidableEq

/-- What the worker makes of it. -/
inductive Settlement where
  | complete
  | fail (message : String)
  | retry
  | wait (reason : String)
  deriving DecidableEq

/-- Where the pointer of the job is. -/
inductive Position where
  /-- `Enqueue` has put the job into the map and is about to send it. -/
  | enqueuing
  /-- In the channel of pending jobs. -/
  | queued
  /-- With a worker that has not begun an execution. -/
  | popped
  /-- The durable claim is outstanding. -/
  | claiming (attempt : Attempt)
  | claimFailed (attempt : Attempt) (error : ClaimError)
  /-- About to ask, before the handler is called, whether a cancellation was requested. -/
  | checking
  /-- The answer under the lock is known; the context is still to be looked at. -/
  | checked (requested : Bool) (reason : String)
  /-- In `cancelJobInternal`. -/
  | cancelling (reason : String)
  /-- The execution is to go ahead and the handler is not called yet. -/
  | starting
  | handling
  /-- The handler has returned; about to ask again. -/
  | returned (result : HandlerResult)
  | finished (result : HandlerResult) (requested : Bool) (reason : String)
  | settling (settlement : Settlement)
  /-- The job waits and its resume is not scheduled yet. -/
  | scheduling
  /-- With the resume timer. -/
  | resuming
  /-- The timer has fired and found the job waiting; about to send it. -/
  | sending
  | gone
  deriving DecidableEq

namespace Job

/-- `Enqueue`'s job. -/
def new (type : String) (maxAttempts : ℕ) : Job where
  type
  state := .pending
  waitReason := ""
  error := ""
  attempts := 0
  maxAttempts := if maxAttempts = 0 then 3 else maxAttempts
  cancelFunc := none
  cancellationRequested := false
  cancellationReason := ""
  suppressPersistence := false

variable (job : Job)

/-- `beginJobExecution` may take the job. -/
def startable : Bool :=
  !job.suppressPersistence && (job.state == .pending || job.state == .waiting)

/-- The locked section of `beginJobExecution`. -/
def begin (execution : ℕ) : Job :=
  { job with
    cancelFunc := some execution
    cancellationRequested := false
    cancellationReason := ""
    state := .running
    waitReason := ""
    attempts := job.attempts + 1 }

def attempt : Attempt := ⟨job.state, job.waitReason, job.attempts⟩

/-- `restoreUnclaimedExecutionLocked`. -/
def restoreUnclaimedExecution (attempt : Attempt) : Job :=
  { job with
    state := attempt.previousState
    waitReason := attempt.previousWaitReason
    attempts := attempt.previousAttempts
    cancelFunc := none }

/-- The rest of the locked section in `deferExecutionClaim`. -/
def deferExecutionClaim (waitReason : String) : Job :=
  { job with
    state := .waiting
    attempts := job.attempts - 1
    waitReason
    error := ""
    cancelFunc := none }

/-- `cancelJobInternal`, `failJob`: an end the job is put to unless it has come to one. -/
def endUnlessTerminal (state : JobState) (error : String) : Job :=
  if job.state.terminal then job
  else { job with state, waitReason := "", error, cancelFunc := none }

def cancelInternal (reason : String) : Job := job.endUnlessTerminal .cancelled reason

def fail (message : String) : Job := job.endUnlessTerminal .failed message

/-- `completeJob`. -/
def complete : Job :=
  if job.state = .running then
    { job with state := .completed, waitReason := "", cancelFunc := none }
  else job

/-- The locked section of `deferJobRetry`. -/
def deferRetry : Job :=
  { job with state := .waiting, waitReason := "waiting_retry_backoff", cancelFunc := none }

/-- The locked section of `waitJob`. -/
def wait (reason : String) : Job :=
  { job with
    attempts := job.attempts - 1
    state := .waiting
    waitReason := if reason = "" then "waiting_dependency" else reason
    error := ""
    cancelFunc := none }

/-- The locked section of `Cancel`, for a job that has not ended. -/
def cancel : Job :=
  if job.state = .running then
    { job with cancellationRequested := true, cancellationReason := canceledByUser }
  else
    { job with state := .cancelled, waitReason := "", error := canceledByUser, cancelFunc := none }

/-- `SupersedeWaitingJob` once the handover is persisted. -/
def supersede : Job :=
  { job with
    state := .cancelled
    waitReason := ""
    error := "Job superseded by exact managed rollout recovery"
    cancelFunc := none }

/-- The locked section of `DetachFencedExecution`. -/
def detach (reason : String) : Job :=
  let job := if job.state = .running then
      { job with cancellationRequested := true, cancellationReason := reason }
    else job
  if job.state.terminal then job else { job with suppressPersistence := true }

/-- The locked section of `cancelJobsForShutdown`. -/
def shutDown : Job :=
  match job.state with
  | .pending | .waiting => { job with suppressPersistence := true, cancelFunc := none }
  | .running =>
    { job with cancellationRequested := true, cancellationReason := canceledInShutdown }
  | .completed | .failed | .cancelled => job

/-- `handleJobExecutionError` and the success case: what a result calls for. -/
def settlement : HandlerResult → Settlement
  | .success => .complete
  | .wait reason => .wait reason
  | .permanent message => .fail message
  | .retryable message =>
    if job.attempts < job.maxAttempts then .retry
    else .fail s!"max attempts reached ({job.attempts}/{job.maxAttempts}): {message}"

end Job

/-! ### Calls on the queue -/

/-- How far a call is after its locked section. -/
inductive CallStage where
  /-- About to end the resume timer. -/
  | resume
  /-- About to end the context of the execution. -/
  | context
  /-- About to return. -/
  | returning
  | returned
  deriving DecidableEq

/-- A call that has been through its locked section: whether it is one of `Cancel`, and the
`cancelFunc` it found. -/
structure CancelCall where
  cancels : Bool
  cancelFunc : Option ℕ
  stage : CallStage

/-- The queue as far as one job is concerned. -/
structure Queue where
  job : Job
  position : Position
  /-- The number of executions begun. -/
  executions : ℕ
  /-- The context of the last execution has ended. -/
  ended : Bool
  /-- The context of the queue has ended. -/
  closed : Bool
  /-- The context the workers were started with has ended. -/
  stopped : Bool
  resumesClosed : Bool
  /-- `q.resumes` has the job's schedule. -/
  scheduled : Bool
  /-- The context of the resume timer has ended. -/
  resumeEnded : Bool
  /-- `q.jobs` has the job. -/
  known : Bool
  calls : List CancelCall
  /-- How often the handler was called. -/
  invocations : ℕ

/-- The steps of the workers and of the resume timer. -/
inductive WorkerMove where
  /-- `Enqueue` sends the job, or finds the channel full and takes it back. -/
  | enqueue (room : Bool)
  | pop
  /-- A worker returns because a context has ended before the execution begins. -/
  | leave
  | begin
  | claim (error : Option ClaimError)
  | claimError
  | check
  | look
  | cancelInternal
  | invoke
  | noHandler
  | handlerReturns (result : HandlerResult)
  | settle
  | schedule
  /-- The wait is not acknowledged: the durable state fences it. -/
  | fenceResume
  | fire
  | send
  | giveUp
  /-- `waitJob` looks at the job once more after it has scheduled the resume. -/
  | recheck
  deriving DecidableEq

/-- What else happens to the job. -/
inductive QueueMove where
  | work (move : WorkerMove)
  | cancel
  | supersede (type reason : String)
  | detach (reason : String)
  | stopQueue
  | stopResumes
  | stopJob
  | stopWorkers
  /-- A context that has ended ends the one of the execution. -/
  | endContext
  /-- A call goes on after its locked section. -/
  | proceed (call : ℕ)
  /-- `cleanupOldJobs` takes a job that has ended out of the map. -/
  | forget
  deriving DecidableEq

namespace Queue

/-- A job that `Enqueue` has just put into the map. -/
def new (type : String) (maxAttempts : ℕ) : Queue where
  job := .new type maxAttempts
  position := .enqueuing
  executions := 0
  ended := false
  closed := false
  stopped := false
  resumesClosed := false
  scheduled := false
  resumeEnded := false
  known := true
  calls := []
  invocations := 0

variable (q : Queue)

/-- `cancelResume`: a schedule that is there is cancelled and deleted. -/
def cancelResume : Queue :=
  { q with scheduled := false, resumeEnded := q.resumeEnded || q.scheduled }

/-- The context of an execution ends. -/
def endExecution (cancelFunc : Option ℕ) : Queue :=
  { q with ended := q.ended || cancelFunc == some q.executions }

/-- `jobCancellation` once the lock is released: the context is looked at, and a reason is
made up when there is none. -/
def cancellation (requested : Bool) (reason : String) : Option String :=
  if requested || q.ended then
    some (if reason = "" then (if q.closed then canceledInShutdown else canceledByUser)
      else reason)
  else none

/-- `handleExecutionClaimError`. -/
def handleExecutionClaimError (attempt : Attempt) (error : ClaimError) : Queue :=
  if q.job.cancellationRequested || q.ended then
    let job := q.job.restoreUnclaimedExecution attempt
    if q.closed || q.job.cancellationReason == canceledInShutdown then
      { q with job := { job with suppressPersistence := true }, position := .gone }
    else
      let reason := q.job.cancellationReason
      { q with job, position := .cancelling (if reason = "" then canceledByUser else reason) }
  else
    match error with
    | .fenced =>
      { q with
        job := { q.job.restoreUnclaimedExecution attempt with suppressPersistence := true }
        position := .gone }
    | .nodeMaintenance | .targetBusy | .unavailable =>
      { q with job := q.job.deferExecutionClaim error.waitReason, position := .scheduling }

/-- `scheduleResume`. -/
def scheduleResume : Queue :=
  if q.resumesClosed then { q with position := .gone }
  else { q with scheduled := true, resumeEnded := false, position := .resuming }

/-- The locked section that follows a handler. -/
def settle : Settlement → Queue
  | .complete => { q with job := q.job.complete, position := .gone }
  | .fail message => { q.cancelResume with job := q.job.fail message, position := .gone }
  | .retry =>
    if q.job.state = .running then { q with job := q.job.deferRetry, position := .scheduling }
    else { q with position := .gone }
  | .wait reason =>
    if q.job.state = .running then { q with job := q.job.wait reason, position := .scheduling }
    else { q with position := .gone }

/-- The resume timer returns, and `clearResume` takes its schedule away. -/
def leaveResume (position : Position) : Queue :=
  { q with scheduled := false, position }

/-- The steps of the workers and of the resume timer, when they can be taken. -/
def work : WorkerMove → Option Queue
  | .enqueue room =>
    if q.position = .enqueuing then
      if room then some { q with position := .queued }
      else some { q with position := .gone, known := false }
    else none
  | .pop => if q.position = .queued then some { q with position := .popped } else none
  | .leave =>
    if q.position = .popped ∧ (q.closed ∨ q.stopped) then some { q with position := .gone }
    else none
  | .begin =>
    if q.position = .popped then
      if q.job.startable then
        some { q with
          job := q.job.begin (q.executions + 1)
          executions := q.executions + 1
          ended := false
          position := .claiming q.job.attempt }
      else some { q with position := .gone }
    else none
  | .claim error =>
    match q.position with
    | .claiming attempt =>
      match error with
      | none => some { q with position := .checking }
      | some error => some { q with position := .claimFailed attempt error }
    | _ => none
  | .claimError =>
    match q.position with
    | .claimFailed attempt error => some (q.handleExecutionClaimError attempt error)
    | _ => none
  | .check =>
    let requested := q.job.cancellationRequested
    let reason := q.job.cancellationReason
    match q.position with
    | .checking => some { q with position := .checked requested reason }
    | .returned result => some { q with position := .finished result requested reason }
    | _ => none
  | .look =>
    match q.position with
    | .checked requested reason =>
      match q.cancellation requested reason with
      | some reason => some { q with position := .cancelling reason }
      | none => some { q with position := .starting }
    | .finished result requested reason =>
      match q.cancellation requested reason with
      | some reason => some { q with position := .cancelling reason }
      | none => some { q with position := .settling (q.job.settlement result) }
    | _ => none
  | .cancelInternal =>
    match q.position with
    | .cancelling reason =>
      some { q.cancelResume with job := q.job.cancelInternal reason, position := .gone }
    | _ => none
  | .invoke =>
    if q.position = .starting then
      some { q with position := .handling, invocations := q.invocations + 1 }
    else none
  | .noHandler =>
    if q.position = .starting then
      some { q.cancelResume with
        job := q.job.fail (noHandlerForType q.job.type), position := .gone }
    else none
  | .handlerReturns result =>
    if q.position = .handling then some { q with position := .returned result } else none
  | .settle =>
    match q.position with
    | .settling settlement => some (q.settle settlement)
    | _ => none
  | .schedule => if q.position = .scheduling then some q.scheduleResume else none
  | .fenceResume =>
    if q.position = .resuming then
      if q.job.state = .waiting then
        some ({ q with job.suppressPersistence := true }.leaveResume .gone)
      else some (q.leaveResume .gone)
    else none
  | .fire =>
    if q.position = .resuming then
      if q.job.state = .waiting then some { q with position := .sending }
      else some (q.leaveResume .gone)
    else none
  | .send => if q.position = .sending then some (q.leaveResume .queued) else none
  | .giveUp =>
    if (q.position = .resuming ∨ q.position = .sending) ∧
        (q.resumeEnded ∨ q.closed ∨ q.stopped) then
      some (q.leaveResume .gone)
    else none
  | .recheck =>
    if (q.position = .resuming ∨ q.position = .sending) ∧ q.job.state ≠ .waiting then
      some q.cancelResume
    else none

/-- A call goes on after its locked section. -/
def proceed (i : ℕ) : Option Queue :=
  match q.calls[i]? with
  | some ⟨cancels, cancelFunc, .resume⟩ =>
    some { q.cancelResume with calls := q.calls.set i ⟨cancels, cancelFunc, .context⟩ }
  | some ⟨cancels, cancelFunc, .context⟩ =>
    some { q.endExecution cancelFunc with
      calls := q.calls.set i ⟨cancels, cancelFunc, .returning⟩ }
  | some ⟨cancels, cancelFunc, .returning⟩ =>
    some { q with calls := q.calls.set i ⟨cancels, cancelFunc, .returned⟩ }
  | some ⟨_, _, .returned⟩ | none => none

/-- The locked section of a call, which goes on from a stage. -/
def call (q : Queue) (job : Job) (call : CancelCall) : Queue :=
  { q with job, calls := q.calls ++ [call] }

/-- What a step does, when it can be taken. -/
def act : QueueMove → Option Queue
  | .work move => q.work move
  | .cancel =>
    -- A job that has ended is refused, as is one that is not in the map.
    if q.known ∧ q.job.state.terminal = false then
      some (q.call q.job.cancel ⟨true, q.job.cancelFunc, .resume⟩)
    else none
  | .supersede type reason =>
    if q.known ∧ q.job.state = .waiting ∧ q.job.type = type ∧ q.job.waitReason = reason ∧
        reason ≠ "" then
      some (q.call q.job.supersede ⟨false, none, .resume⟩)
    else none
  | .detach reason =>
    let cancelFunc := if q.job.state = .running then q.job.cancelFunc else none
    if q.known then some (q.call (q.job.detach reason) ⟨false, cancelFunc, .context⟩)
    else none
  | .stopQueue => some { q with closed := true }
  | .stopResumes =>
    if q.closed then some { q.cancelResume with resumesClosed := true } else none
  | .stopJob =>
    let cancelFunc := if q.job.state = .running then q.job.cancelFunc else none
    if q.closed ∧ q.known then some (q.call q.job.shutDown ⟨false, cancelFunc, .context⟩)
    else none
  | .stopWorkers => some { q with stopped := true }
  | .endContext => if q.closed ∨ q.stopped then some { q with ended := true } else none
  | .proceed i => q.proceed i
  | .forget =>
    if q.job.state.terminal then some { q with known := false } else none

/-- The queue and a job of it, under any interleaving. -/
def machine (type : String) (maxAttempts : ℕ) : Machine Queue QueueMove where
  init q := q = new type maxAttempts
  step q move q' := q.act move = some q'

end Queue

end TechStack.Jobs
