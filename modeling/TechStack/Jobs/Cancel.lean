import TechStack.Jobs.Queue
import TechStack.Lib.Slots

/-!
# Cancelled jobs

What is left of a job once `Cancel` has returned without an error.  `Cancel` ends a job that
waits or is pending at once.  At a job that runs it leaves a request, and the worker asks twice
whether there is one: before it calls the handler and after the handler has returned.  A request
that comes after the worker has asked is missed: the handler is called, or a job whose handler
has asked to wait or to be retried goes on waiting, and the next execution forgets the request.
So does a worker that gives a claim back while the queue shuts down: it leaves the job pending
or waiting.

`Heeded` names the steps that keep out of these windows.  In the runs made of them a request is
followed by no call of the handler, and a worker can always bring the job nearer to its end
(`cancel_heeded`).  All this is about a job whose ID is enqueued once.
-/

namespace TechStack.Jobs

open Option Lib Job Queue Position

/-! ### Positions -/

variable {position : Position}

namespace Position

/-- A worker has begun an execution and has not given it up. -/
def executing : Position → Bool
  | .claiming _ | .claimFailed _ _ | .checking | .checked _ _ | .starting | .handling
  | .returned _ | .finished _ _ _ | .settling _ => true
  | .enqueuing | .queued | .popped | .cancelling _ | .scheduling | .resuming | .sending
  | .gone => false

/-- The handler has been called in this execution. -/
def inHand : Position → Bool
  | .handling | .returned _ | .finished _ _ _ | .settling _ => true
  | _ => false

def cancels : Position → Bool
  | .cancelling _ => true
  | _ => false

lemma cancels_of_executing (executing : position.executing = true) :
    position.cancels = false := by
  cases position <;> first | rfl | cases executing

/-- The steps of a worker that are left at most until a request has been followed. -/
def rank : Position → ℕ
  | .claiming _ => 9
  | .claimFailed _ _ => 8
  | .checking => 7
  | .checked _ _ => 6
  | .handling => 5
  | .returned _ => 4
  | .finished _ _ _ => 3
  | .settling _ => 2
  | .cancelling _ => 1
  | _ => 0

end Position

/-- The settlement ends the job. -/
def Settlement.ends : Settlement → Bool
  | .complete | .fail _ => true
  | .retry | .wait _ => false

variable {job : Job}

namespace Job

lemma startable_state (startable : job.startable = true) :
    job.state = .pending ∨ job.state = .waiting := by
  simp only [Job.startable, Bool.and_eq_true, Bool.or_eq_true, beq_iff_eq] at startable
  exact startable.2

lemma startable_unended (startable : job.startable = true) : job.state.terminal = false := by
  rcases startable_state startable with state | state <;> rw [state] <;> rfl

/-- A job that is put to an end has come to one. -/
lemma endUnlessTerminal_terminal {state : JobState} {error : String}
    (ends : state.terminal = true) : (job.endUnlessTerminal state error).state.terminal = true := by
  unfold endUnlessTerminal
  split
  · assumption
  · exact ends

end Job

namespace Queue

variable (q : Queue)

/-- What the worker still has to do follows a request made now. -/
def heeds : Bool :=
  match q.position with
  | .claiming _ | .claimFailed _ _ | .checking | .handling | .returned _ => true
  | .checked requested _ => requested
  | .finished result requested _ => requested || (q.job.settlement result).ends
  | .settling settlement => settlement.ends
  | _ => false

/-- `Cancel` has been through its locked section. -/
def asked : Bool := q.calls.any (·.cancels)

/-- `Cancel` has returned without an error. -/
def accepted : Bool := q.calls.any fun call => call.cancels && call.stage == .returned

/-- A claim of a job that is to be cancelled has failed while the queue shuts down. -/
def abandoned : Bool :=
  match q.position with
  | .claimFailed _ _ =>
    q.asked && (q.closed || q.job.cancellationReason == canceledInShutdown)
  | _ => false

/-- The steps that miss no request: `Cancel` does not come between the worker's last look and
what it does next, and a claim of a job that is to be cancelled does not fail in a shutdown. -/
def Heeded (move : QueueMove) : Prop :=
  (move = .cancel → q.position.executing = true → q.heeds = true) ∧
    ∀ q', q.act move = some q' → q'.abandoned = false

/-! ### What a worker does -/

/-- The changes a worker or the resume timer makes. -/
inductive Works (q : Queue) : Queue → Prop where
  /-- Nothing is executed, before or after. -/
  | idle (q' : Queue) : q.position.executing = false → q.position.cancels = false →
      q'.position.executing = false → q'.position.cancels = false →
      q'.job.state = q.job.state → q'.calls = q.calls → q'.invocations = q.invocations →
      q.Works q'
  | begins : q.position = .popped → q.job.startable = true →
      q.Works { q with
        job := q.job.begin (q.executions + 1)
        executions := q.executions + 1
        ended := false
        position := .claiming q.job.attempt }
  | claims (attempt : Attempt) : q.position = .claiming attempt →
      q.Works { q with position := .checking }
  | claimFails (attempt : Attempt) (error : ClaimError) : q.position = .claiming attempt →
      q.Works { q with position := .claimFailed attempt error }
  /-- A request is followed, and the claim was not won. -/
  | restores (attempt : Attempt) (error : ClaimError) (reason : String) :
      q.position = .claimFailed attempt error →
      q.Works { q with
        job := q.job.restoreUnclaimedExecution attempt
        position := .cancelling reason }
  /-- The execution is left to others. -/
  | detaches (attempt : Attempt) (error : ClaimError) :
      q.position = .claimFailed attempt error →
      (q.job.cancellationRequested = true →
        q.closed = true ∨ q.job.cancellationReason = canceledInShutdown) →
      q.Works { q with
        job := { q.job.restoreUnclaimedExecution attempt with suppressPersistence := true }
        position := .gone }
  | defers (attempt : Attempt) (error : ClaimError) :
      q.position = .claimFailed attempt error → q.job.cancellationRequested = false →
      q.Works { q with
        job := q.job.deferExecutionClaim error.waitReason
        position := .scheduling }
  | checks : q.position = .checking →
      q.Works { q with
        position := .checked q.job.cancellationRequested q.job.cancellationReason }
  | rechecks (result : HandlerResult) : q.position = .returned result →
      q.Works { q with
        position := .finished result q.job.cancellationRequested q.job.cancellationReason }
  | follows (reason : String) : (∃ requested reason, q.position = .checked requested reason) ∨
      (∃ result requested reason, q.position = .finished result requested reason) →
      q.Works { q with position := .cancelling reason }
  | starts (reason : String) : q.position = .checked false reason →
      q.Works { q with position := .starting }
  | decides (result : HandlerResult) (reason : String) :
      q.position = .finished result false reason →
      q.Works { q with position := .settling (q.job.settlement result) }
  | invokes : q.position = .starting →
      q.Works { q with position := .handling, invocations := q.invocations + 1 }
  | returns (result : HandlerResult) : q.position = .handling →
      q.Works { q with position := .returned result }
  | cancels (reason : String) : q.position = .cancelling reason →
      q.Works { q.cancelResume with job := q.job.cancelInternal reason, position := .gone }
  | refuses (message : String) : q.position = .starting →
      q.Works { q.cancelResume with job := q.job.fail message, position := .gone }
  | completes : q.position = .settling .complete →
      q.Works { q with job := q.job.complete, position := .gone }
  | fails (message : String) : q.position = .settling (.fail message) →
      q.Works { q.cancelResume with job := q.job.fail message, position := .gone }
  | waits (settlement : Settlement) (job : Job) : q.position = .settling settlement →
      settlement.ends = false → job.state = .waiting →
      q.Works { q with job, position := .scheduling }
  | drops (settlement : Settlement) : q.position = .settling settlement →
      q.job.state ≠ .running → q.Works { q with position := .gone }

/-- A claim that was not won. -/
lemma works_claimError {q : Queue} {attempt : Attempt} {error : ClaimError}
    (here : q.position = .claimFailed attempt error) :
    q.Works (q.handleExecutionClaimError attempt error) := by
  unfold handleExecutionClaimError
  split
  case isTrue requested =>
    split
    case isTrue shutdown =>
      refine .detaches attempt error here fun _ => ?_
      simpa using shutdown
    case isFalse => exact .restores attempt error _ here
  case isFalse quiet =>
    have unasked : q.job.cancellationRequested = false := by
      simp only [Bool.or_eq_true, not_or, Bool.not_eq_true] at quiet
      exact quiet.1
    cases error with
    | fenced =>
      refine .detaches attempt .fenced here fun asked => ?_
      cases unasked.symm.trans asked
    | nodeMaintenance | targetBusy | unavailable => exact .defers attempt _ here unasked

/-- A handler's result is settled. -/
lemma works_settle {q : Queue} {settlement : Settlement}
    (here : q.position = .settling settlement) : q.Works (q.settle settlement) := by
  cases settlement with
  | complete => exact .completes here
  | fail message => exact .fails message here
  | retry =>
    simp only [settle]
    split
    · exact .waits .retry q.job.deferRetry here rfl rfl
    · exact .drops .retry here ‹_›
  | wait reason =>
    simp only [settle]
    split
    · exact .waits (.wait reason) (q.job.wait reason) here rfl rfl
    · exact .drops (.wait reason) here ‹_›

/-- No cancellation is found, so none was requested. -/
lemma unrequested_of_cancellation {q : Queue} {requested : Bool} {reason : String}
    (none : q.cancellation requested reason = none) : requested = false := by
  unfold cancellation at none
  split at none
  · cases none
  case isFalse quiet =>
    simp only [Bool.or_eq_true, not_or, Bool.not_eq_true] at quiet
    exact quiet.1

/-- Every step of a worker is one of these changes. -/
lemma works_of_work {q q' : Queue} {move : WorkerMove} (stepped : q.work move = some q') :
    q.Works q' := by
  cases move with
  | enqueue room =>
    obtain ⟨here, stepped⟩ := ite_none_right_eq_some.mp stepped
    cases room <;> cases stepped <;>
      exact .idle _ (here ▸ rfl) (here ▸ rfl) rfl rfl rfl rfl rfl
  | pop | send =>
    obtain ⟨here, ⟨⟩⟩ := ite_none_right_eq_some.mp stepped
    exact .idle _ (here ▸ rfl) (here ▸ rfl) rfl rfl rfl rfl rfl
  | leave =>
    obtain ⟨⟨here, -⟩, ⟨⟩⟩ := ite_none_right_eq_some.mp stepped
    exact .idle _ (here ▸ rfl) (here ▸ rfl) rfl rfl rfl rfl rfl
  | begin =>
    obtain ⟨here, stepped⟩ := ite_none_right_eq_some.mp stepped
    split at stepped <;> cases stepped
    · exact .begins here ‹_›
    · exact .idle _ (here ▸ rfl) (here ▸ rfl) rfl rfl rfl rfl rfl
  | claim error =>
    simp only [work] at stepped
    split at stepped
    case h_1 attempt here =>
      cases error <;> cases stepped
      · exact .claims attempt here
      · exact .claimFails attempt _ here
    case h_2 => cases stepped
  | claimError =>
    simp only [work] at stepped
    split at stepped <;> cases stepped
    exact works_claimError ‹_›
  | check =>
    simp only [work] at stepped
    split at stepped <;> cases stepped
    · exact .checks ‹_›
    · exact .rechecks _ ‹_›
  | look =>
    simp only [work] at stepped
    split at stepped
    case h_1 requested reason here =>
      split at stepped <;> cases stepped
      · exact .follows _ (.inl ⟨_, _, here⟩)
      case h_2 quiet =>
        rw [unrequested_of_cancellation quiet] at here
        exact .starts _ here
    case h_2 result requested reason here =>
      split at stepped <;> cases stepped
      · exact .follows _ (.inr ⟨_, _, _, here⟩)
      case h_2 quiet =>
        rw [unrequested_of_cancellation quiet] at here
        exact .decides result _ here
    case h_3 => cases stepped
  | cancelInternal =>
    simp only [work] at stepped
    split at stepped <;> cases stepped
    exact .cancels _ ‹_›
  | invoke =>
    obtain ⟨here, ⟨⟩⟩ := ite_none_right_eq_some.mp stepped
    exact .invokes here
  | noHandler =>
    obtain ⟨here, ⟨⟩⟩ := ite_none_right_eq_some.mp stepped
    exact .refuses _ here
  | handlerReturns result =>
    obtain ⟨here, ⟨⟩⟩ := ite_none_right_eq_some.mp stepped
    exact .returns result here
  | settle =>
    simp only [work] at stepped
    split at stepped <;> cases stepped
    exact works_settle ‹_›
  | schedule =>
    obtain ⟨here, ⟨⟩⟩ := ite_none_right_eq_some.mp stepped
    unfold scheduleResume
    split <;> exact .idle _ (here ▸ rfl) (here ▸ rfl) rfl rfl rfl rfl rfl
  | fenceResume | fire =>
    obtain ⟨here, stepped⟩ := ite_none_right_eq_some.mp stepped
    split at stepped <;> cases stepped <;>
      exact .idle _ (here ▸ rfl) (here ▸ rfl) rfl rfl rfl rfl rfl
  | giveUp =>
    obtain ⟨⟨here | here, -⟩, ⟨⟩⟩ := ite_none_right_eq_some.mp stepped <;>
      exact .idle _ (here ▸ rfl) (here ▸ rfl) rfl rfl rfl rfl rfl
  | recheck =>
    obtain ⟨⟨here | here, -⟩, ⟨⟩⟩ := ite_none_right_eq_some.mp stepped <;>
      exact .idle _ (here ▸ rfl) (here ▸ rfl) (here ▸ rfl) (here ▸ rfl) rfl rfl rfl

/-- A call other than `Cancel` leaves the execution alone: it may leave a request, and it may
end a job that waits. -/
structure Stirs (q q' : Queue) : Prop where
  position : q'.position = q.position
  state : q'.job.state = q.job.state ∨ q.job.state = .waiting ∧ q'.job.state = .cancelled
  requested : q.job.cancellationRequested = true → q'.job.cancellationRequested = true
  attempts : q'.job.attempts = q.job.attempts
  maxAttempts : q'.job.maxAttempts = q.job.maxAttempts
  invocations : q'.invocations = q.invocations
  asked : q'.asked = q.asked

/-- The changes to a job and its place in the queue. -/
inductive Happens (q : Queue) (move : QueueMove) (q' : Queue) : Prop where
  | works (works : q.Works q')
  | cancels (asks : move = .cancel) (open_ : q.job.state.terminal = false)
      (q'_eq : q' = q.call q.job.cancel ⟨true, q.job.cancelFunc, .resume⟩)
  | stirs (stirs : q.Stirs q')

/-- The locked section of a call other than `Cancel`. -/
lemma stirs_call {q : Queue} {f : Option ℕ} {stage : CallStage}
    (state : job.state = q.job.state ∨ q.job.state = .waiting ∧ job.state = .cancelled)
    (requested : q.job.cancellationRequested = true → job.cancellationRequested = true)
    (attempts : job.attempts = q.job.attempts) (most : job.maxAttempts = q.job.maxAttempts) :
    q.Stirs (q.call job ⟨false, f, stage⟩) :=
  ⟨rfl, state, requested, attempts, most, rfl, by simp [asked, call]⟩

/-- A call that goes on. -/
lemma stirs_proceed {q q' : Queue} {i : ℕ} (stepped : q.proceed i = some q') : q.Stirs q' := by
  have same {cancels : Bool} {f : Option ℕ} {stage : CallStage} (stage' : CallStage)
      (here : q.calls[i]? = some ⟨cancels, f, stage⟩) :
      (q.calls.set i ⟨cancels, f, stage'⟩).any (·.cancels) = q.calls.any (·.cancels) := by
    rw [Bool.eq_iff_iff, List.any_eq_true, List.any_eq_true]
    constructor
    · rintro ⟨call, mem, yes⟩
      rcases List.mem_or_eq_of_mem_set mem with old | rfl
      · exact ⟨call, old, yes⟩
      · exact ⟨_, List.mem_of_getElem? here, yes⟩
    · exact fun some_ => exists_mem_set some_ here id
  unfold proceed at stepped
  split at stepped
  all_goals cases stepped
  all_goals
    rename_i here
    exact ⟨rfl, .inl rfl, id, rfl, rfl, rfl, same _ here⟩

variable {move : QueueMove}

/-- A step of others than the workers and `Cancel`. -/
lemma stirs_of_act {q q' : Queue} (stepped : q.act move = some q')
    (unworked : ∀ worker, move ≠ .work worker) (uncancelled : move ≠ .cancel) : q.Stirs q' := by
  cases move with
  | work worker => exact absurd rfl (unworked worker)
  | cancel => exact absurd rfl uncancelled
  | supersede type reason =>
    obtain ⟨⟨-, waiting, -⟩, ⟨⟩⟩ := ite_none_right_eq_some.mp stepped
    exact stirs_call (.inr ⟨waiting, rfl⟩) id rfl rfl
  | detach reason =>
    obtain ⟨-, ⟨⟩⟩ := ite_none_right_eq_some.mp stepped
    refine stirs_call (.inl ?_) ?_ ?_ ?_
    all_goals
      unfold detach
      split <;> dsimp only <;> split <;> simp
  | stopQueue | stopWorkers =>
    cases stepped
    exact ⟨rfl, .inl rfl, id, rfl, rfl, rfl, rfl⟩
  | stopJob =>
    obtain ⟨-, ⟨⟩⟩ := ite_none_right_eq_some.mp stepped
    refine stirs_call (.inl ?_) ?_ ?_ ?_
    all_goals
      unfold shutDown
      split <;> simp
  | stopResumes | endContext | forget =>
    obtain ⟨-, ⟨⟩⟩ := ite_none_right_eq_some.mp stepped
    exact ⟨rfl, .inl rfl, id, rfl, rfl, rfl, rfl⟩
  | proceed i => exact stirs_proceed stepped

/-- Every step is one of these changes. -/
lemma happens_of_act {q q' : Queue} (stepped : q.act move = some q') : q.Happens move q' := by
  cases move with
  | work move => exact .works (works_of_work stepped)
  | cancel =>
    obtain ⟨⟨-, unended⟩, ⟨⟩⟩ := ite_none_right_eq_some.mp stepped
    exact .cancels rfl unended rfl
  | _ => exact .stirs (stirs_of_act stepped nofun nofun)

/-! ### The invariant -/

/-- What is true of a job in a run that misses no request. -/
structure Sound (q : Queue) : Prop where
  /-- A job that is executed runs. -/
  running : q.position.executing = true → q.job.state = .running
  /-- A job that runs is in the hands of a worker. -/
  held : q.job.state = .running → q.position.executing = true ∨ q.position.cancels = true
  previous : ∀ attempt, (q.position = .claiming attempt ∨
    ∃ error, q.position = .claimFailed attempt error) →
    attempt.previousState = .pending ∨ attempt.previousState = .waiting
  calm : q.abandoned = false
  /-- A request is met by an end, or the worker is about to follow it. -/
  heeded : q.asked = true → q.job.state.terminal = true ∨ q.position.cancels = true ∨
    q.job.cancellationRequested = true ∧ q.heeds = true

lemma asked_eq {q q' : Queue} (calls : q'.calls = q.calls) : q'.asked = q.asked := by
  rw [asked, asked, calls]

lemma executing_of_heeds {q : Queue} (heeds : q.heeds = true) : q.position.executing = true := by
  unfold Queue.heeds at heeds
  cases here : q.position <;> rw [here] at heeds <;> first | rfl | cases heeds

namespace Sound

variable {q q' : Queue}

/-- A worker that executes a job has not come to its end. -/
lemma unended (sound : q.Sound) (executing : q.position.executing = true) :
    q.job.state.terminal = false := by
  rw [sound.running executing]
  rfl

/-- A worker that executes a job follows a request. -/
lemma follows (sound : q.Sound) (asked : q.asked = true) (executing : q.position.executing = true) :
    q.job.cancellationRequested = true ∧ q.heeds = true := by
  rcases sound.heeded asked with ended | cancels | heeds
  · rw [sound.unended executing] at ended
    cases ended
  · rw [cancels_of_executing executing] at cancels
    cases cancels
  · exact heeds

/-- A job that no worker has in hand has come to its end. -/
lemma over_of_idle (sound : q.Sound) (asked : q.asked = true)
    (idle : q.position.executing = false) (quiet : q.position.cancels = false) :
    q.job.state.terminal = true := by
  rcases sound.heeded asked with ended | cancels | ⟨-, heeds⟩
  · exact ended
  · cases quiet.symm.trans cancels
  · rw [executing_of_heeds heeds] at idle
    cases idle

/-- The job is taken out of the worker's hands: it does not run, and it has come to its end if
that was asked for. -/
lemma of_idle (calm : q'.abandoned = false) (idle : q'.position.executing = false)
    (still : q'.job.state = .running → q'.position.cancels = true)
    (over_ : q'.asked = true → q'.job.state.terminal = true ∨ q'.position.cancels = true) :
    q'.Sound where
  running executing := by
    cases idle.symm.trans executing
  held runs := .inr (still runs)
  previous attempt here := by
    rcases here with here | ⟨error, here⟩ <;> rw [here] at idle <;> cases idle
  calm := calm
  heeded asked := (over_ asked).imp_right .inl

/-- The job has come to its end. -/
lemma of_ended (calm : q'.abandoned = false) (idle : q'.position.executing = false)
    (ended : q'.job.state.terminal = true) : q'.Sound :=
  .of_idle calm idle (fun runs => by rw [runs] at ended; cases ended) fun _ => .inl ended

/-- The worker goes on with the execution. -/
lemma of_executing (sound : q.Sound) (q'_job : q'.job = q.job)
    (q'_position : q'.position = position) (calm : q'.abandoned = false)
    (executing : q.position.executing = true) (executing' : position.executing = true)
    (previous : ∀ attempt, (position = .claiming attempt ∨
      ∃ error, position = .claimFailed attempt error) →
      attempt.previousState = .pending ∨ attempt.previousState = .waiting)
    (heeds : q'.asked = true → q.job.cancellationRequested = true → q.heeds = true →
      q'.heeds = true) (asked : q'.asked = q.asked) : q'.Sound where
  running _ := by
    rw [q'_job]
    exact sound.running executing
  held _ := .inl (q'_position ▸ executing')
  previous attempt here := previous attempt (q'_position ▸ here)
  calm := calm
  heeded asks := by
    obtain ⟨requested, follows⟩ := sound.follows (asked ▸ asks) executing
    exact .inr (.inr ⟨q'_job ▸ requested, heeds asks requested follows⟩)

lemma new (type : String) (maxAttempts : ℕ) : (new type maxAttempts).Sound :=
  .of_idle rfl rfl nofun nofun

/-- What a worker does keeps the invariant, as long as no claim is abandoned. -/
lemma works (sound : q.Sound) (works : q.Works q') (calm : q'.abandoned = false) : q'.Sound := by
  cases works with
  | idle _ idle quiet idle' quiet' state calls =>
    refine .of_idle calm idle' (fun runs => ?_) (fun asked => .inl ?_)
    · rcases sound.held (state ▸ runs) with executing | cancels
      · cases idle.symm.trans executing
      · cases quiet.symm.trans cancels
    · rw [state]
      have asked' : q.asked = true := by rwa [asked_eq calls] at asked
      exact sound.over_of_idle asked' idle quiet
  | begins here startable =>
    refine ⟨fun _ => rfl, fun _ => .inl rfl, ?_, calm, fun asked => ?_⟩
    · rintro attempt (⟨⟨⟩⟩ | ⟨error, ⟨⟩⟩)
      exact startable_state startable
    · have over_ := sound.over_of_idle asked (here ▸ rfl) (here ▸ rfl)
      rw [Job.startable_unended startable] at over_
      cases over_
  | claims attempt here | returns result here =>
    exact .of_executing sound rfl rfl calm (here ▸ rfl) rfl (by simp) (fun _ _ _ => rfl) rfl
  | claimFails attempt error here =>
    refine .of_executing sound rfl rfl calm (here ▸ rfl) rfl ?_ (fun _ _ _ => rfl) rfl
    rintro attempt' (⟨⟨⟩⟩ | ⟨error', ⟨⟩⟩)
    exact sound.previous attempt (.inl here)
  | restores attempt error reason here =>
    exact .of_idle calm rfl (fun _ => rfl) (fun _ => .inr rfl)
  | detaches attempt error here shutdown =>
    refine .of_idle calm rfl (fun runs => ?_) (fun asked => ?_)
    · have runs' : attempt.previousState = .running := runs
      rcases sound.previous attempt (.inr ⟨error, here⟩) with before | before <;>
        rw [before] at runs' <;> cases runs'
    · -- A worker that follows a request gives a claim back only in a shutdown.
      obtain ⟨requested, -⟩ := sound.follows asked (here ▸ rfl)
      have calm := sound.calm
      have asked' : q.asked = true := asked
      rcases shutdown requested with closed | reason
      · simp [abandoned, here, asked', closed] at calm
      · simp [abandoned, here, asked', reason] at calm
  | defers attempt error here quiet =>
    refine .of_idle calm rfl nofun (fun asked => ?_)
    obtain ⟨requested, -⟩ := sound.follows asked (here ▸ rfl)
    cases quiet.symm.trans requested
  | checks here =>
    exact .of_executing sound rfl rfl calm (here ▸ rfl) rfl (by simp)
      (fun _ requested _ => requested) rfl
  | rechecks result here =>
    refine .of_executing sound rfl rfl calm (here ▸ rfl) rfl (by simp)
      (fun _ requested _ => ?_) rfl
    simp [heeds, requested]
  | follows reason here => exact .of_idle calm rfl (fun _ => rfl) (fun _ => .inr rfl)
  | starts reason here =>
    refine .of_executing sound rfl rfl calm (here ▸ rfl) rfl (by simp)
      (fun _ _ follows => ?_) rfl
    simp [heeds, here] at follows
  | decides result reason here =>
    refine .of_executing sound rfl rfl calm (here ▸ rfl) rfl (by simp)
      (fun _ _ follows => ?_) rfl
    simpa [heeds, here] using follows
  | invokes here =>
    refine .of_executing sound rfl rfl calm (here ▸ rfl) rfl (by simp) (fun _ _ _ => rfl) rfl
  | cancels | refuses | fails =>
    exact .of_ended calm rfl (endUnlessTerminal_terminal rfl)
  | completes here =>
    refine .of_ended calm rfl ?_
    have runs := sound.running (here ▸ rfl)
    simp [complete, runs, JobState.terminal]
  | waits settlement job here goes_on waiting =>
    refine .of_idle calm rfl (fun runs => ?_) (fun asked => ?_)
    · rw [show job.state = .running from runs] at waiting
      cases waiting
    · obtain ⟨-, follows⟩ := sound.follows asked (here ▸ rfl)
      simp [heeds, here, goes_on] at follows
  | drops settlement here stopped =>
    exact absurd (sound.running (here ▸ rfl)) stopped

/-- `Cancel` keeps the invariant when it does not come too late. -/
lemma cancelled (sound : q.Sound) (timely : q.position.executing = true → q.heeds = true)
    (calm : (q.call q.job.cancel ⟨true, q.job.cancelFunc, .resume⟩).abandoned = false) :
    (q.call q.job.cancel ⟨true, q.job.cancelFunc, .resume⟩).Sound := by
  by_cases runs : q.job.state = .running
  · have job : q.job.cancel = { q.job with
        cancellationRequested := true, cancellationReason := canceledByUser } := if_pos runs
    refine ⟨fun _ => ?_, fun _ => sound.held runs, sound.previous, calm, fun _ => ?_⟩
    · rw [← runs]
      simp [call, job]
    · rcases sound.held runs with executing | cancels
      · refine .inr (.inr ⟨by simp [call, job], ?_⟩)
        have follows := timely executing
        simpa [heeds, call, job, settlement] using follows
      · exact .inr (.inl cancels)
  · have job : q.job.cancel.state = .cancelled := by rw [cancel, if_neg runs]
    have idle : q.position.executing = false := by
      apply Bool.eq_false_iff.mpr
      intro executing
      exact runs (sound.running executing)
    refine .of_idle calm idle (fun runs' => ?_) (fun _ => .inl ?_)
    · rw [show q.job.cancel.state = .running from runs'] at job
      cases job
    · show q.job.cancel.state.terminal = true
      rw [job]
      rfl

/-- The other calls keep the invariant. -/
lemma stirred (sound : q.Sound) (stirs : q.Stirs q') (calm : q'.abandoned = false) :
    q'.Sound := by
  have state : q.job.state ≠ .waiting → q'.job.state = q.job.state := fun awake =>
    stirs.state.resolve_right fun handed => awake handed.1
  constructor
  case running =>
    intro executing
    have runs := sound.running (stirs.position ▸ executing)
    rw [state (by rw [runs]; decide), runs]
  case held =>
    intro runs
    rw [stirs.position]
    apply sound.held
    rcases stirs.state with same | ⟨-, ended⟩
    · exact same ▸ runs
    · cases runs.symm.trans ended
  case previous => rw [stirs.position]; exact sound.previous
  case calm => exact calm
  case heeded =>
    intro asked
    rcases sound.heeded (stirs.asked ▸ asked) with ended | cancels | ⟨requested, follows⟩
    · refine .inl ?_
      rcases stirs.state with same | ⟨-, cancelled⟩
      · rw [same, ended]
      · rw [cancelled]
        rfl
    · exact .inr (.inl (stirs.position ▸ cancels))
    · refine .inr (.inr ⟨stirs.requested requested, ?_⟩)
      simpa [heeds, stirs.position, settlement, stirs.attempts, stirs.maxAttempts] using follows

/-- Every step that misses no request keeps the invariant. -/
lemma kept (sound : q.Sound) (heeded : q.Heeded move) (stepped : q.act move = some q')
    : q'.Sound := by
  have calm := heeded.2 q' stepped
  cases happens_of_act stepped with
  | works works => exact sound.works works calm
  | cancels asks _ q'_eq =>
    subst q'_eq
    exact sound.cancelled (heeded.1 asks) calm
  | stirs stirs => exact sound.stirred stirs calm

/-- The invariant holds in every run that misses no request. -/
lemma of_reaches {type : String} {maxAttempts : ℕ}
    (reached : (machine type maxAttempts).Reaches Heeded q) : q.Sound :=
  reached.invariant Sound (by rintro _ rfl; exact .new type maxAttempts)
    fun _ _ _ sound heeded stepped => sound.kept heeded stepped

end Sound

/-! ### After a request -/

/-- The steps of a worker that are left at most until the job has come to its end. -/
def remaining (q : Queue) : ℕ := if q.job.state.terminal then 0 else q.position.rank

/-- What a step does to a job that is to be cancelled. -/
structure Follows (q q' : Queue) : Prop where
  asked : q'.asked = true
  invocations : q'.invocations = q.invocations
  inHand : q'.position.inHand = true → q.position.inHand = true
  produced : q'.job.state = .completed ∨ q'.job.state = .failed →
    q'.job.state = q.job.state ∨ q.position.inHand = true
  remaining : q'.remaining ≤ q.remaining

namespace Follows

variable {q q' : Queue}

/-- The job is as it was and the worker has less left to do. -/
lemma of_position (asked : q.asked = true)
    (inHand : position.inHand = true → q.position.inHand = true)
    (less : position.rank ≤ q.position.rank) : q.Follows { q with position } where
  asked := asked
  invocations := rfl
  inHand := inHand
  produced _ := .inl rfl
  remaining := by
    unfold Queue.remaining
    split
    · exact le_rfl
    · exact less

/-- The job has come to its end. -/
lemma of_ended (asked : q'.asked = true) (invocations : q'.invocations = q.invocations)
    (gone : q'.position.inHand = false) (ended : q'.job.state.terminal = true)
    (produced : q'.job.state = .completed ∨ q'.job.state = .failed →
      q'.job.state = q.job.state ∨ q.position.inHand = true) : q.Follows q' where
  asked := asked
  invocations := invocations
  inHand held := by
    cases gone.symm.trans held
  produced := produced
  remaining := by
    rw [Queue.remaining, if_pos ended]
    exact Nat.zero_le _

/-- What a worker does with a job that is to be cancelled. -/
lemma of_works (sound : q.Sound) (asked : q.asked = true) (works : q.Works q') :
    q.Follows q' := by
  cases works with
  | idle _ idle quiet idle' quiet' state calls invocations =>
    have over_ := sound.over_of_idle asked idle quiet
    refine .of_ended ((asked_eq calls).trans asked) invocations ?_ (state ▸ over_)
      fun _ => .inl state
    cases there : q'.position <;> rw [there] at idle' <;> first | rfl | cases idle'
  | begins here startable =>
    have over_ := sound.over_of_idle asked (here ▸ rfl) (here ▸ rfl)
    rw [Job.startable_unended startable] at over_
    cases over_
  | claims attempt here | claimFails attempt error here =>
    exact .of_position asked nofun (by simp [here, rank])
  | restores attempt error reason here =>
    have before := sound.previous attempt (.inr ⟨error, here⟩)
    have unended := sound.unended (here ▸ rfl)
    refine ⟨asked, rfl, nofun, fun produced => ?_, ?_⟩
    · have produced' : attempt.previousState = .completed ∨ attempt.previousState = .failed :=
        produced
      rcases before with before | before <;> rw [before] at produced' <;>
        rcases produced' with impossible | impossible <;> cases impossible
    · unfold Queue.remaining
      rw [unended, here]
      split
      · exact Nat.zero_le _
      · exact Nat.le_of_lt (by decide : 1 < 8)
  | detaches attempt error here shutdown =>
    obtain ⟨requested, -⟩ := sound.follows asked (here ▸ rfl)
    have calm := sound.calm
    rcases shutdown requested with closed | reason
    · simp [abandoned, here, asked, closed] at calm
    · simp [abandoned, here, asked, reason] at calm
  | defers attempt error here quiet =>
    obtain ⟨requested, -⟩ := sound.follows asked (here ▸ rfl)
    cases quiet.symm.trans requested
  | checks here => exact .of_position asked nofun (by simp [here, rank])
  | rechecks result here | decides result reason here | returns result here =>
    exact .of_position asked (fun _ => by rw [here]; rfl) (by simp [here, rank])
  | follows reason here =>
    refine .of_position asked nofun ?_
    rcases here with ⟨_, _, here⟩ | ⟨_, _, _, here⟩ <;> simp [here, rank]
  | starts reason here | invokes here | refuses message here =>
    obtain ⟨-, follows⟩ := sound.follows asked (here ▸ rfl)
    simp [heeds, here] at follows
  | cancels reason here =>
    refine .of_ended asked rfl rfl (endUnlessTerminal_terminal rfl) fun produced => ?_
    -- The job is cancelled unless it had come to an end before.
    unfold cancelInternal endUnlessTerminal at produced ⊢
    split
    · exact .inl rfl
    · rename_i unended
      rw [if_neg unended] at produced
      rcases produced with impossible | impossible <;> cases impossible
  | completes here =>
    have runs := sound.running (here ▸ rfl)
    exact .of_ended asked rfl rfl (by simp [complete, runs, JobState.terminal])
      fun _ => .inr (here ▸ rfl)
  | fails message here =>
    exact .of_ended asked rfl rfl (endUnlessTerminal_terminal rfl) fun _ => .inr (here ▸ rfl)
  | waits settlement job here goes_on =>
    obtain ⟨-, follows⟩ := sound.follows asked (here ▸ rfl)
    simp [heeds, here, goes_on] at follows
  | drops settlement here stopped =>
    exact absurd (sound.running (here ▸ rfl)) stopped

/-- Another call leaves the worker where it is. -/
lemma of_stirs (asked : q.asked = true) (stirs : q.Stirs q') : q.Follows q' where
  asked := stirs.asked ▸ asked
  invocations := stirs.invocations
  inHand held := stirs.position ▸ held
  produced produced := by
    rcases stirs.state with same | ⟨-, cancelled⟩
    · exact .inl same
    · rw [cancelled] at produced
      rcases produced with impossible | impossible <;> cases impossible
  remaining := by
    unfold Queue.remaining
    rcases stirs.state with same | ⟨-, cancelled⟩
    · rw [same, stirs.position]
    · rw [if_pos (by rw [cancelled]; rfl)]
      exact Nat.zero_le _

/-- `Cancel` once more. -/
lemma of_cancel (unended : q.job.state.terminal = false) :
    q.Follows (q.call q.job.cancel ⟨true, q.job.cancelFunc, .resume⟩) where
  asked := by simp [Queue.asked, call]
  invocations := rfl
  inHand := id
  produced produced := by
    refine .inl ?_
    show q.job.cancel.state = q.job.state
    have produced' : q.job.cancel.state = .completed ∨ q.job.cancel.state = .failed := produced
    unfold cancel at produced' ⊢
    split
    · rfl
    · rename_i awake
      rw [if_neg awake] at produced'
      rcases produced' with impossible | impossible <;> cases impossible
  remaining := by
    unfold Queue.remaining
    rw [unended]
    split
    · exact Nat.zero_le _
    · exact le_rfl

/-- Every step that misses no request follows one that was made. -/
lemma of_act (sound : q.Sound) (asked : q.asked = true) (stepped : q.act move = some q')
    : q.Follows q' := by
  cases happens_of_act stepped with
  | works works => exact .of_works sound asked works
  | cancels _ unended q'_eq =>
    subst q'_eq
    exact .of_cancel unended
  | stirs stirs => exact .of_stirs asked stirs

end Follows

/-- While the job has not come to its end, the worker that has it in hand can go on. -/
lemma Sound.progress {q : Queue} (sound : q.Sound) (asked : q.asked = true)
    (unended : q.job.state.terminal = false) :
    ∃ move q', q.Heeded (.work move) ∧ q.act (.work move) = some q' ∧
      q'.remaining < q.remaining := by
  have now : q.remaining = q.position.rank := by
    rw [Queue.remaining, if_neg (by rw [unended]; decide)]
  -- It is enough to name a step to a place that is nearer the end.
  have goes (move : WorkerMove) (q' : Queue) (stepped : q.work move = some q')
      (calm : q'.abandoned = false) (less : q'.position.rank < q.position.rank) :
      ∃ move q', q.Heeded (.work move) ∧ q.act (.work move) = some q' ∧
        q'.remaining < q.remaining := by
    refine ⟨move, q', ⟨nofun, ?_⟩, stepped, ?_⟩
    · intro q'' stepped'
      cases stepped.symm.trans stepped'
      exact calm
    · rw [now, Queue.remaining]
      split
      · exact Nat.zero_lt_of_lt less
      · exact less
  rcases sound.heeded asked with ended | cancels | ⟨requested, follows⟩
  · cases unended.symm.trans ended
  · cases here : q.position with
    | cancelling reason =>
      exact goes .cancelInternal
        { q.cancelResume with job := q.job.cancelInternal reason, position := .gone }
        (by simp only [work, here]) rfl (by simp [here, rank])
    | _ => rw [here] at cancels; cases cancels
  · cases here : q.position with
    | claiming attempt =>
      exact goes (.claim none) { q with position := .checking } (by simp only [work, here]) rfl
        (by simp [here, rank])
    | claimFailed attempt error =>
      -- The claim is not abandoned, so the request is followed.
      have calm := sound.calm
      simp only [abandoned, here, asked, Bool.true_and] at calm
      refine goes .claimError
        { q with
          job := q.job.restoreUnclaimedExecution attempt
          position := .cancelling (if q.job.cancellationReason = "" then canceledByUser
            else q.job.cancellationReason) } ?_ rfl (by simp [here, rank])
      simp only [work, here, handleExecutionClaimError, requested, Bool.true_or, calm]
      rfl
    | checking =>
      exact goes .check
        { q with
          position := .checked q.job.cancellationRequested q.job.cancellationReason }
        (by simp only [work, here]) rfl (by simp [here, rank])
    | checked asked' reason =>
      have yes : asked' = true := by simpa [heeds, here] using follows
      rcases found : q.cancellation asked' reason with _ | because
      · rw [unrequested_of_cancellation found] at yes
        cases yes
      · exact goes .look { q with position := .cancelling because }
          (by simp only [work, here, found]) rfl (by simp [here, rank])
    | handling =>
      exact goes (.handlerReturns .success) { q with position := .returned .success }
        (by simp only [work, here, if_true]) rfl (by simp [here, rank])
    | returned result =>
      exact goes .check
        { q with
          position :=
            .finished result q.job.cancellationRequested q.job.cancellationReason }
        (by simp only [work, here]) rfl (by simp [here, rank])
    | finished result asked' reason =>
      rcases found : q.cancellation asked' reason with _ | because
      · exact goes .look { q with position := .settling (q.job.settlement result) }
          (by simp only [work, here, found]) rfl (by simp [here, rank])
      · exact goes .look { q with position := .cancelling because }
          (by simp only [work, here, found]) rfl (by simp [here, rank])
    | settling settlement =>
      have ends : settlement.ends = true := by simpa [heeds, here] using follows
      cases settlement with
      | complete =>
        exact goes .settle (q.settle .complete) (by simp only [work, here]) rfl
          (by simp [here, rank, settle])
      | fail message =>
        exact goes .settle (q.settle (.fail message)) (by simp only [work, here]) rfl
          (by simp [here, rank, settle])
      | retry | wait reason => cases ends
    | _ => simp [heeds, here] at follows

/-- A request is kept as long as the calls are. -/
lemma asked_of_accepted {q : Queue} (accepted : q.accepted = true) : q.asked = true := by
  simp only [Queue.accepted, Queue.asked, List.any_eq_true, Bool.and_eq_true] at accepted ⊢
  obtain ⟨call, mem, cancels, -⟩ := accepted
  exact ⟨call, mem, cancels⟩

/-- **Cancelled means cancelled, when no request is missed.**  In a run of heeded steps, from a
state in which a call of `Cancel` has returned without an error:

* the handler is not called again;
* the job is pending or waiting only while a worker is about to cancel it;
* if it is completed or failed in the end, it was so before or a handler had it in hand;
* until it has come to its end there is a heeded step of a worker that brings it nearer to the
  end, and no heeded step takes it further away. -/
theorem cancel_heeded {type : String} {maxAttempts : ℕ} {q q' : Queue}
    (reached : (machine type maxAttempts).Reaches Heeded q) (accepted : q.accepted = true)
    (later : (machine type maxAttempts).Later Heeded q q') :
    q'.invocations = q.invocations ∧
    (q'.job.state = .pending ∨ q'.job.state = .waiting → q'.position.cancels = true) ∧
    (q'.job.state = .completed ∨ q'.job.state = .failed →
      q'.job.state = q.job.state ∨ q.position.inHand = true) ∧
    (q'.job.state.terminal = false → ∃ move q'', q'.Heeded (.work move) ∧
      q'.act (.work move) = some q'' ∧ q''.remaining < q'.remaining) ∧
    ∀ move q'', q'.Heeded move → q'.act move = some q'' → q''.remaining ≤ q'.remaining := by
  have sound := Sound.of_reaches (reached.later later)
  obtain ⟨asked, same, inHand, produced⟩ := later.keeps
    (fun q' => q'.asked = true ∧ q'.invocations = q.invocations ∧
      (q'.position.inHand = true → q.position.inHand = true) ∧
      (q'.job.state = .completed ∨ q'.job.state = .failed →
        q'.job.state = q.job.state ∨ q.position.inHand = true))
    (by
      rintro s move s' reached ⟨asked, same, inHand, produced⟩ heeded stepped
      have follows := Follows.of_act (Sound.of_reaches reached) asked stepped
      refine ⟨follows.asked, follows.invocations.trans same,
        fun held => inHand (follows.inHand held), fun ended => ?_⟩
      rcases follows.produced ended with before | held
      · rw [before] at ended ⊢
        exact produced ended
      · exact .inr (inHand held))
    reached ⟨asked_of_accepted accepted, rfl, id, fun _ => .inl rfl⟩
  refine ⟨same, ?_, produced, sound.progress asked,
    fun move q'' _ stepped => (Follows.of_act sound asked stepped).remaining⟩
  intro awake
  rcases sound.heeded asked with ended | cancels | ⟨-, follows⟩
  · rcases awake with state | state <;> rw [state] at ended <;> cases ended
  · exact cancels
  · have runs := sound.running (executing_of_heeds follows)
    rcases awake with state | state <;> rw [state] at runs <;> cases runs

instance (q : Queue) (move : QueueMove) : Decidable (q.Heeded move) :=
  inferInstanceAs (Decidable ((_ → _ → _) ∧ ∀ q' ∈ q.act move, q'.abandoned = false))

lemma enacted : (machine "deploy" 3).Enacts act (new "deploy" 3) := ⟨rfl, fun _ _ _ => id⟩

/-- The steps up to the call of the handler. -/
def untilHandler : List QueueMove :=
  [.work (.enqueue true), .work .pop, .work .begin, .work (.claim none), .work .check,
    .work .look, .work .invoke]

/-- `Cancel`, from its locked section to its return. -/
def cancelled : List QueueMove := [.cancel, .proceed 0, .proceed 0, .proceed 0]

/-- A request that comes while the handler runs cancels the job, although the handler asks to
wait. -/
theorem cancel_heeded_handling : ∃ q q', (machine "deploy" 3).Reaches Heeded q ∧ q.accepted = true ∧
      (machine "deploy" 3).Later Heeded q q' ∧ q'.job.state = .cancelled ∧
      q'.invocations = q.invocations := by
  obtain ⟨q, q', reached, later, accepted, ended⟩ := enacted.reaches_later
    (fun q move => q.Heeded move) (fun _ _ => of_decide_eq_true) (untilHandler ++ cancelled)
    [.work (.handlerReturns (.wait "")), .work .check, .work .look, .work .cancelInternal]
    (fun q q' => q.accepted = true ∧ q'.job.state = .cancelled) (by decide +kernel)
  exact ⟨q, q', reached, accepted, later, ended, (cancel_heeded reached accepted later).1⟩

/-- A request that comes when the worker has just found that there is none is missed: the job
goes on waiting, and the handler is called again. -/
theorem missed_request_invokes :
    ∃ q q', (machine "deploy" 3).Reaches (fun _ _ => True) q ∧ q.accepted = true ∧
      (machine "deploy" 3).Later (fun _ _ => True) q q' ∧ q.invocations = 1 ∧
      q'.invocations = 2 := by
  obtain ⟨q, q', reached, later, accepted, calls⟩ := enacted.reaches_later (fun _ _ => true)
    (fun _ _ _ => trivial) (untilHandler ++ [.work (.handlerReturns (.wait "")), .work .check,
      .work .look] ++ cancelled)
    [.work .settle, .work .schedule, .work .fire, .work .send, .work .pop, .work .begin,
      .work (.claim none), .work .check, .work .look, .work .invoke]
    (fun q q' => q.accepted = true ∧ q.invocations = 1 ∧ q'.invocations = 2) (by decide +kernel)
  exact ⟨q, q', reached, accepted, later, calls⟩

end Queue

end TechStack.Jobs
