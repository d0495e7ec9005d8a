import TechStack.Jobs.Cancel

/-!
# Attempts of a job

`Attempts` counts an execution when it begins.  It gives it back when the handler asks to wait and
when the claim is put off, but not when the job is cancelled after the handler has asked
(`cancelled_wait_counts`).  `Accounts` says, position by position, how far the count is from the
number of failures that may be retried.  It holds in every run of a job that is enqueued once.
-/

namespace TechStack.Jobs

open Option Lib Job

/-- The handler ends in an error that may be retried. -/
def HandlerResult.fails : HandlerResult → Bool
  | .retryable _ => true
  | .success | .wait _ | .permanent _ => false

/-- What `Enqueue` writes into the job it is given, before it looks whether the ID is taken. -/
def Job.enqueue (job : Job) : Job :=
  { job with
    maxAttempts := if job.maxAttempts = 0 then 3 else job.maxAttempts
    state := .pending
    waitReason := "" }

namespace Queue

/-- The failures that a step adds. -/
def failure : QueueMove → ℕ
  | .work (.handlerReturns result) => result.fails.toNat
  | _ => 0

/-- The last execution has ended in a request to wait or in a claim that was not won, as far as is
known after a step. -/
def asks (q : Queue) (asked : Bool) : QueueMove → Bool
  | .work (.handlerReturns (.wait _)) | .work (.claim (some _)) => true
  | .work .begin => asked && !q.job.startable
  | _ => asked

/-- The queue with the failures so far. -/
structure Count where
  queue : Queue
  failures : ℕ
  asked : Bool

/-- A step of the queue, counted. -/
def Count.act (s : Count) (move : QueueMove) : Option Count :=
  (s.queue.act move).map (⟨·, s.failures + failure move, s.queue.asks s.asked move⟩)

/-- The queue and its failures, for any job that `Enqueue` may be given.  A `MaxAttempts` below 0
allows what 0 does. -/
def counting : Machine Count QueueMove where
  init s := s.queue.position = .enqueuing ∧ s.queue.job.attempts = 0 ∧ s.failures = 0 ∧
    s.asked = false
  step s move s' := s.act move = some s'

/-- Another execution may fail. -/
def Allows (q : Queue) (failures : ℕ) : Prop := failures = 0 ∨ failures < q.job.maxAttempts

/-- The execution is counted beside the failures. -/
def Open (q : Queue) (failures : ℕ) : Prop :=
  q.job.state = .running ∧ q.job.attempts = failures + 1 ∧ q.Allows failures

/-- What `Attempts` is, by position. -/
def Accounts (q : Queue) (failures : ℕ) : Prop :=
  failures ≤ max 1 q.job.maxAttempts ∧ match q.position with
  | .claiming attempt | .claimFailed attempt _ =>
    q.Open failures ∧ attempt.previousAttempts = failures
  | .checking | .checked _ _ | .starting | .handling | .settling (.wait _) => q.Open failures
  | .returned result | .finished result _ _ =>
    if result.fails then q.job.state = .running ∧ q.job.attempts = failures else q.Open failures
  | .settling .retry =>
    q.job.state = .running ∧ q.job.attempts = failures ∧ failures < q.job.maxAttempts
  | .settling .complete | .settling (.fail _) => q.job.state = .running
  | .cancelling _ | .gone => True
  | .enqueuing | .queued | .popped | .scheduling | .resuming | .sending =>
    q.job.state.terminal = false → q.job.attempts = failures ∧ q.Allows failures

/-- What becomes of `Attempts` after a request to wait or a claim that was not won. -/
def GivesBack (q : Queue) (failures : ℕ) : Prop :=
  match q.position with
  | .claimFailed _ _ => True
  | .returned result | .finished result _ _ => ∃ reason, result = .wait reason
  | .settling settlement => ∃ reason, settlement = .wait reason
  | .cancelling _ => q.job.attempts = failures ∨ q.job.state = .running
  | .claiming _ | .checking | .checked _ _ | .starting | .handling => False
  | .enqueuing | .queued | .popped | .scheduling | .resuming | .sending | .gone =>
    q.job.attempts = failures ∨ q.job.state = .cancelled

variable {q q' : Queue} {n : ℕ} {asked : Bool} {move : QueueMove} {worker : WorkerMove}

/-- What a step makes of the account, and of a job that has ended. -/
def Keeps (q q' : Queue) (failures : ℕ) : Prop :=
  q'.Accounts failures ∧ (q.job.state.terminal = true → q'.job.state = q.job.state)

namespace Accounts

/-- A step of a worker or of the resume timer. -/
lemma work (accounts : q.Accounts n) (stepped : q.work worker = some q') :
    q.Keeps q' (n + failure (.work worker)) := by
  cases worker with
  | claimError | look | schedule | recheck =>
    cases here : q.position <;> simp [Queue.work, here] at stepped
    all_goals try cases ‹ClaimError›
    all_goals try cases ‹HandlerResult›
    all_goals
      simp only [Accounts, here] at accounts
      grind [Keeps, Accounts, failure, Allows, Open, JobState.terminal, HandlerResult.fails,
        scheduleResume, cancelResume, handleExecutionClaimError,
        restoreUnclaimedExecution, deferExecutionClaim, settlement]
  | _ =>
    -- The job is as it was or is written once; the two positions say what is to be shown.
    simp only [Queue.work] at stepped
    grind [Keeps, Accounts, failure, Allows, Open, begin, attempt, startable, JobState.terminal,
      HandlerResult.fails, leaveResume, Queue.settle, wait, deferRetry, cancelResume,
      cancelInternal, fail, endUnlessTerminal, complete]

/-- What was asked for is given back, step by step, or the job is cancelled. -/
lemma givesBack_work (accounts : q.Accounts n) (givesBack : asked = true → q.GivesBack n)
    (stepped : q.work worker = some q') (still : q.asks asked (.work worker) = true) :
    q'.GivesBack (n + failure (.work worker)) := by
  cases worker with
  | claim | claimError | look | handlerReturns | schedule | recheck =>
    all_goals try cases ‹Option ClaimError›
    all_goals cases here : q.position <;> simp [Queue.work, here] at stepped
    all_goals try cases ‹ClaimError›
    all_goals try cases ‹HandlerResult›
    all_goals
      simp only [Accounts, GivesBack, here] at accounts givesBack
      grind [GivesBack, failure, asks, Open, scheduleResume, cancelResume,
        handleExecutionClaimError, restoreUnclaimedExecution,
        deferExecutionClaim, settlement]
  | _ =>
    simp only [Queue.work] at stepped
    grind [Accounts, GivesBack, failure, asks, Open, begin, startable, JobState.terminal,
      HandlerResult.fails, leaveResume, Queue.settle, wait, cancelResume,
      cancelInternal, endUnlessTerminal]

/-- A call leaves the count alone, and cancels the job only when it waits or is pending. -/
lemma call (accounts : q.Accounts n) (givesBack : asked = true → q.GivesBack n)
    (position : q'.position = q.position) (attempts : q'.job.attempts = q.job.attempts)
    (most : q'.job.maxAttempts = q.job.maxAttempts)
    (state : q'.job.state = q.job.state ∨ q.job.state ≠ .running ∧
      q.job.state.terminal = false ∧ q'.job.state = .cancelled) :
    q.Keeps q' n ∧ (asked = true → q'.GivesBack n) := by
  simp only [Keeps, Accounts, GivesBack, Open, Allows, position, attempts, most]
    at accounts givesBack ⊢
  cases here : q.position <;> grind [JobState.terminal]

lemma act (accounts : q.Accounts n) (givesBack : asked = true → q.GivesBack n)
    (stepped : q.act move = some q') : q.Keeps q' (n + failure move) ∧
      (q.asks asked move = true → q'.GivesBack (n + failure move)) := by
  cases move with
  | work worker => exact ⟨accounts.work stepped, accounts.givesBack_work givesBack stepped⟩
  | cancel =>
    obtain ⟨⟨-, open_⟩, ⟨⟩⟩ := ite_none_right_eq_some.mp stepped
    refine accounts.call givesBack rfl ?_ ?_ ?_ <;> grind [Queue.call, cancel, JobState.terminal]
  | _ =>
    have stirs := stirs_of_act stepped (by simp) (by simp)
    refine accounts.call givesBack stirs.position stirs.attempts stirs.maxAttempts
      (stirs.state.imp_right ?_)
    rintro ⟨waiting, ended⟩
    simp [waiting, ended, JobState.terminal]

/-- The account holds in every run. -/
lemma of_reaches {s : Count} (reached : counting.Reaches (fun _ _ => True) s) :
    s.queue.Accounts s.failures ∧ (s.asked = true → s.queue.GivesBack s.failures) := by
  refine reached.invariant (fun s => s.queue.Accounts s.failures ∧
    (s.asked = true → s.queue.GivesBack s.failures)) ?_ ?_
  · rintro ⟨q, n, asked⟩ ⟨here, attempts, rfl, rfl⟩
    simp_all [Accounts, Allows]
  · rintro s move s' ⟨accounts, givesBack⟩ _ counted
    obtain ⟨q', stepped, rfl⟩ := map_eq_some_iff.mp counted
    exact (accounts.act givesBack stepped).imp_left And.left

end Accounts

/-- **Attempts are accounted for**, whatever happens.  The failures are no more than `MaxAttempts`
allows.  Once a worker has dealt with a handler that asked to wait, or with a claim that was not
won, `Attempts` is their number or the job is cancelled.  And a job that has ended never changes its
state. -/
theorem attempts_accounted {s : Count} (reached : counting.Reaches (fun _ _ => True) s) :
    s.failures ≤ max 1 s.queue.job.maxAttempts ∧
      (s.asked = true → s.queue.position.executing = false → s.queue.position.cancels = false →
        s.queue.job.attempts = s.failures ∨ s.queue.job.state = .cancelled) ∧
      (s.queue.job.state.terminal = true → ∀ s', counting.Later (fun _ _ => True) s s' →
        s'.queue.job.state = s.queue.job.state) := by
  obtain ⟨accounts, givesBack⟩ := Accounts.of_reaches reached
  refine ⟨accounts.1, fun asked idle calm => ?_, fun ended s' later => ?_⟩
  · have back := givesBack asked
    unfold GivesBack at back
    cases here : s.queue.position <;> simp_all [Position.executing, Position.cancels]
  · refine later.keeps (fun s' => s'.queue.job.state = s.queue.job.state) ?_ reached rfl
    intro s₁ move s₂ reached' same _ counted
    obtain ⟨q', stepped, rfl⟩ := map_eq_some_iff.mp counted
    obtain ⟨accounts, givesBack⟩ := Accounts.of_reaches reached'
    exact ((accounts.act givesBack stepped).1.2 (same ▸ ended)).trans same

lemma counted (maxAttempts : ℕ) : counting.Enacts Count.act ⟨new "deploy" maxAttempts, 0, false⟩ :=
  ⟨⟨rfl, rfl, rfl, rfl⟩, fun _ _ _ => id⟩

/-- The handler asks to wait while a request to cancel is outstanding: the job is cancelled and the
attempt is not given back.  And a job that has ended is pending again when `Enqueue` is given it
once more. -/
theorem cancelled_wait_counts : ∃ s, counting.Reaches (fun _ _ => True) s ∧ s.asked = true ∧
    s.queue.position = .gone ∧ s.failures = 0 ∧ s.queue.job.attempts = 1 ∧
    s.queue.job.state = .cancelled ∧ s.queue.job.enqueue.state = .pending := by
  obtain ⟨s, reached, facts⟩ := (counted 3).reaches_any (untilHandler ++ [.cancel,
      .work (.handlerReturns (.wait "")), .work .check, .work .look, .work .cancelInternal])
    (fun s => s.asked = true ∧ s.queue.position = .gone ∧ s.failures = 0 ∧
      s.queue.job.attempts = 1 ∧ s.queue.job.state = .cancelled) (by decide +kernel)
  exact ⟨s, reached, facts.1, facts.2.1, facts.2.2.1, facts.2.2.2.1, facts.2.2.2.2, rfl⟩

/-- The handler of a job that may be tried twice fails and then asks to wait. -/
theorem attempts_accounted_wait : ∃ s, counting.Reaches (fun _ _ => True) s ∧ s.failures = 1 ∧
    s.asked = true ∧ (s.queue.job.attempts = s.failures ∨ s.queue.job.state = .cancelled) := by
  obtain ⟨s, reached, facts⟩ := (counted 2).reaches_any (untilHandler ++
      [.work (.handlerReturns (.retryable "")), .work .check, .work .look, .work .settle,
        .work .schedule, .work .fire, .work .send] ++ untilHandler.tail ++
      [.work (.handlerReturns (.wait "")), .work .check, .work .look, .work .settle])
    (fun s => s.failures = 1 ∧ s.asked = true ∧ s.queue.position = .scheduling) (by decide +kernel)
  obtain ⟨failed, asked, here⟩ := facts
  exact ⟨s, reached, failed, asked, (attempts_accounted reached).2.1 asked (by rw [here]; rfl)
    (by rw [here]; rfl)⟩

end Queue

end TechStack.Jobs
