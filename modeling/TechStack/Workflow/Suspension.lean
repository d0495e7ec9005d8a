import TechStack.Workflow.Progress

/-!
# Leaving a suspension

A suspended run is left when `Deliver` writes it as a running one.  Three other things
happen to it in the code.  `advance` has no case for a suspended run: a caller that
retries `StartOrResumeRun`, or a poll that has listed the run before it was suspended,
drives it on.  A `Deliver` that has found an earlier suspension before it got the lock
resumes a later one.  And timers are never cancelled and are matched by their key only, so
a timer of an earlier suspension, or of another run, resumes a later suspension on the
same key before its time.

Without these (`Dormant`) a suspension stands until a `Deliver` with its key comes, from
outside or from its own timer when that is due.
-/

namespace TechStack.Workflow

open List Event System Store Driver Definition

open Lib (Machine)

variable {w : Definition} {store : Store} {outcome : Outcome} {command : Command} {now : ℤ}
  {s s' : System} {move : Move}

/-! ## The suspension in place -/

/-- A suspension of the run: by which step, on which key, since when and for how long. -/
structure Suspension where
  stepIndex : ℕ
  key : String
  since : ℤ
  timeout : ℤ

def Event.suspension (last : Option Suspension) : Event → Option Suspension
  | suspended stepIndex key since timeout => some ⟨stepIndex, key, since, timeout⟩
  | _ => last

variable (log : List Event)

/-- The last suspension that was stored. -/
def lastSuspension : Option Suspension := log.foldl Event.suspension none

/-- A stored write of the run. -/
def Event.writes : Event → Bool
  | checkpoint => true
  | suspended _ _ _ _ => true
  | _ => false

lemma lastSuspension_append (log new : List Event) :
    lastSuspension (log ++ new) = new.foldl suspension (lastSuspension log) := by
  simp [lastSuspension]

lemma lastSuspension_quiet {log new : List Event} (quiet : ∀ event ∈ new, event.writes = false) :
    lastSuspension (log ++ new) = lastSuspension log := by
  rw [lastSuspension_append]
  induction new using List.reverseRecOn with
  | nil => rfl
  | append_singleton new event ih =>
    rw [foldl_append, ih fun e mem => quiet e (by simp [mem])]
    have := quiet event (by simp)
    cases event <;> simp_all [Event.writes, suspension]

/-- The run has not been written since a call of `Deliver` found it. -/
def Unwritten (signal : Signal) : Prop :=
  ∀ event ∈ log.drop signal.delivery, event.writes = false

/-- A timer that the last suspension has armed. -/
def Armed (timer : Timer) : Prop :=
  ∃ suspension, lastSuspension log = some suspension ∧ suspension.key = timer.signalKey ∧
    0 < suspension.timeout ∧ timer.fireAt = suspension.since + suspension.timeout

/-- A signal from outside, or from a timer at or after the time of the last suspension. -/
def Due (signal : Signal) (tag : Option ℕ) : Prop :=
  tag = none ∨ ∃ suspension time, lastSuspension log = some suspension ∧
    0 < suspension.timeout ∧ signal.deliverAt = some time ∧
    suspension.since + suspension.timeout ≤ time

/-- `advance` does not read a suspended run; `Deliver` writes only a run that has not been written
since it was found; and a timer that finds the run suspended on its key was armed by that
suspension. -/
structure Dormant (s : System) (move : Move) : Prop where
  awake : EntersAwake s move
  unwritten : ∀ run signal tag outcome, s.driver = some (.deliver run signal, tag) →
    move = .drive outcome → Unwritten s.log signal
  armed : ∀ i outcome signal id run timer, move = .call i outcome →
    s.callers[i]? = some (.find signal, some id) → s.store.run = some run →
    System.Awaits run signal.key → s.store.timers[id]? = some timer → Armed s.log timer

/-! ## The invariant -/

/-- What a `Deliver` that has found the run holds, as long as the run is not written. -/
def Holding (s : System) (run : Run) (signal : Signal) (tag : Option ℕ) : Prop :=
  signal.delivery < s.log.length ∧ (Unwritten s.log signal →
    s.store.run = some run ∧ System.Awaits run signal.key ∧ Due s.log signal tag)

/-- The timer that a `Deliver` of the sweep carries is one that is due. -/
def Sweeps (s : System) (signal : Signal) (id : ℕ) : Prop :=
  ∃ timer time, s.store.timers[id]? = some timer ∧ timer.signalKey = signal.key ∧
    signal.deliverAt = some time ∧ timer.fireAt ≤ time

/-- What holds of suspensions in every state. -/
structure Suspended (s : System) : Prop where
  row : ∀ run, s.store.run = some run → run.status = .suspended → ∃ since timeout,
    lastSuspension s.log = some ⟨run.currentStep, run.awaitingSignal, since, timeout⟩
  waits : ∀ run signal tag, (.await run signal, tag) ∈ s.callers → Holding s run signal tag
  finds : ∀ signal id, (.find signal, some id) ∈ s.callers → Sweeps s signal id
  driver : ∀ run signal tag, s.driver = some (.deliver run signal, tag) →
    Holding s run signal tag

lemma Suspended.initial (now : ℤ) : Suspended (.initial now) where
  row run held := by simp [System.initial] at held
  waits run signal tag mem := by simp [System.initial] at mem
  finds signal id mem := by simp [System.initial] at mem
  driver run signal tag held := by simp [System.initial] at held

variable {run : Run} {tag : Option ℕ}

/-- What a `Deliver` holds it holds until the run is written. -/
lemma Holding.kept {signal : Signal} {new : List Event} (holding : Holding s run signal tag)
    (log : s'.log = s.log ++ new)
    (row : (∀ event ∈ new, event.writes = false) → s.store.run = some run →
      s'.store.run = s.store.run) : Holding s' run signal tag := by
  obtain ⟨lt, holds⟩ := holding
  refine ⟨by rw [log, length_append]; omega, ?_⟩
  intro unwritten
  rw [Unwritten, log, drop_append_of_le_length lt.le] at unwritten
  have quiet : ∀ event ∈ new, event.writes = false :=
    fun event mem => unwritten event (mem_append_right _ mem)
  obtain ⟨present, awaits, due⟩ := holds fun event mem =>
    unwritten event (mem_append_left _ mem)
  refine ⟨by rw [row quiet present, present], awaits, ?_⟩
  rw [Due, log, lastSuspension_quiet quiet]
  exact due

/-! ## What a move does to the timers -/

/-- The timers of a store stay in another, with their keys and times. -/
def TimersStay (store store' : Store) : Prop :=
  ∀ (id : ℕ) (timer : Timer), store.timers[id]? = some timer →
    ∃ timer', store'.timers[id]? = some timer' ∧ timer'.signalKey = timer.signalKey ∧
      timer'.fireAt = timer.fireAt

lemma TimersStay.of_eq {store' : Store} (timers : store'.timers = store.timers) :
    TimersStay store store' :=
  fun id timer present => ⟨timer, by rw [timers, present], rfl, rfl⟩

lemma TimersStay.of_append {store' : Store} (more : List Timer)
    (timers : store'.timers = store.timers ++ more) : TimersStay store store' := by
  intro id timer present
  obtain ⟨lt, -⟩ := List.getElem?_eq_some_iff.mp present
  exact ⟨timer, by rw [timers, List.getElem?_append_left lt, present], rfl, rfl⟩

lemma TimersStay.markTimerFired (store : Store) (fired : ℕ) :
    TimersStay store (store.markTimerFired fired) := by
  intro id timer present
  by_cases same : fired = id
  · exact ⟨{ timer with fired := true }, by simp [Store.markTimerFired, present, same], rfl, rfl⟩
  · exact ⟨timer, by simp [Store.markTimerFired, present, same], rfl, rfl⟩

lemma TimersStay.execute (store : Store) (outcome : Outcome) (command : Command) :
    TimersStay store (store.execute outcome command).store := by
  rcases execute_cases outcome command store with ⟨same, -⟩ | taken
  · exact .of_eq (by rw [same])
  cases command with
  | getRun | getStep | listSteps => exact .of_eq (by simp [Store.execute])
  | updateRun run =>
    obtain ⟨current, -, -, after⟩ := Store.updateRun_ok taken
    exact .of_eq (by rw [after])
  | suspendRun run timer =>
    obtain ⟨current, -, -, after⟩ := suspendRun_ok taken
    exact .of_append timer.toList (by rw [after])
  | createStep step =>
    obtain ⟨-, after⟩ := createStep_ok taken
    exact .of_eq (by rw [after])
  | updateStep step =>
    obtain ⟨current, -, -, after⟩ := updateStep_ok taken
    exact .of_eq (by rw [after])

/-- A goroutine without the lock leaves the timers, or marks one fired. -/
lemma callNext_timers {rest : List (Caller × Option ℕ)} {caller : Caller}
    (acted : s.callNext rest tag outcome caller = some s') : TimersStay s.store s'.store := by
  cases called_of_callNext acted with
  | found | locked => exact .of_eq rfl
  | leaves _ _ _ _ stored =>
    rcases stored with rfl | ⟨timer, rfl⟩ | ⟨-, request, rfl⟩
    · exact .of_eq rfl
    · exact .markTimerFired s.store timer
    · exact .of_eq rfl

/-- A timer keeps its key and its time. -/
lemma timers_stay (acted : s.act w move = some s') : TimersStay s.store s'.store := by
  cases move with
  | deliver | startOrResumeRun | advance | tick | stop =>
    cases acted
    exact .of_eq rfl
  | otherTimer timer =>
    cases acted
    exact .of_append [timer] rfl
  | pollRuns | sweepTimers =>
    simp only [act] at acted
    split at acted
    · simp at acted
    · split_ifs at acted
      cases acted
      exact .of_eq rfl
  | call i outcome =>
    simp only [act] at acted
    split at acted
    · simp at acted
    · exact callNext_timers acted
  | drive outcome =>
    simp only [act, driveNext, Option.bind_eq_bind, Option.bind_eq_some_iff] at acted
    obtain ⟨⟨driver, tag⟩, held, command, commands, acted⟩ := acted
    simp only at acted
    split at acted <;> cases acted <;>
      exact .execute s.store outcome command
  | returns edits result =>
    simp only [act, Option.bind_eq_bind, Option.bind_eq_some_iff] at acted
    obtain ⟨⟨driver, tag⟩, held, next, returns, acted⟩ := acted
    cases acted
    exact .of_eq rfl

lemma Sweeps.kept {signal : Signal} {id : ℕ} (sweeps : Sweeps s signal id)
    (stay : TimersStay s.store s'.store) : Sweeps s' signal id := by
  obtain ⟨timer, time, present, key, at_, due⟩ := sweeps
  obtain ⟨timer', present', key', fireAt⟩ := stay id timer present
  exact ⟨timer', time, present', key'.trans key, at_, by rw [fireAt]; exact due⟩

/-! ## Writes of the run and the log -/

variable {driver : Driver}

lemma writes_of_written {done : Executed} (commands : driver.command w now = some command)
    (writes : command.written = some run) (wrote : done.wrote = true)
    : ∃ event ∈ driver.events now done, event.writes = true := by
  obtain ⟨store', reply, wrote'⟩ := done
  obtain rfl : wrote' = true := wrote
  cases writes_of_command commands writes <;>
    exact ⟨.checkpoint, by simp [Driver.events], rfl⟩

lemma quiet_of_unwritten {done : Executed} (commands : driver.command w now = some command)
    (unwritten : done.wrote = false ∨ command.written = none ∧
      ∃ (store : Store) (outcome : Outcome), done = store.execute outcome command) :
    ∀ event ∈ driver.events now done, event.writes = false := by
  rcases unwritten with quiet | ⟨unwritten, store, outcome, rfl⟩
  · obtain ⟨store', reply, wrote'⟩ := done
    obtain rfl : wrote' = false := quiet
    cases driver with
    | mark => cases reply <;> simp [Driver.events, Event.writes]
    | _ => simp [Driver.events, Event.writes]
  · by_cases load : driver = .load
    · subst load
      simp [Driver.events, Event.writes]
    · intro event mem
      have silent := events_silent outcome commands unwritten load event mem
      cases event <;> simp_all [Event.silent, Event.writes]

/-- A write of the run that takes effect overwrites the row. -/
lemma execute_written (writes : command.written = some run)
    (wrote : (store.execute outcome command).wrote = true) :
    ∃ current, store.run = some current ∧ current.status.Steps run.status ∧
      (store.execute outcome command).store.run = some (current.overwrite run) := by
  rcases execute_cases outcome command store with ⟨-, quiet⟩ | taken
  · simp [quiet] at wrote
  cases command with
  | updateRun run' =>
    cases writes
    obtain ⟨current, held, steps, after⟩ := Store.updateRun_ok taken
    exact ⟨current, held, steps, by rw [after]⟩
  | suspendRun run' timer =>
    cases writes
    obtain ⟨current, held, steps, after⟩ := suspendRun_ok taken
    exact ⟨current, held, steps, by rw [after]⟩
  | getRun | getStep | createStep | updateStep | listSteps => simp [Command.written] at writes

/-- The row stays as it is while no write of the run is logged. -/
lemma run_of_quiet (commands : driver.command w now = some command)
    (quiet : ∀ event ∈ driver.events now (store.execute outcome command), event.writes = false) :
    (store.execute outcome command).store.run = store.run := by
  obtain same | ⟨run, current, writes, held, -, written⟩ :=
    execute_run outcome command store
  · exact same
  · cases wrote : (store.execute outcome command).wrote with
    | false => rw [execute_unwritten wrote]
    | true =>
      obtain ⟨event, mem, is⟩ := writes_of_written commands writes wrote
      simp [quiet event mem] at is

/-- A move that logs no write of the run leaves the row of a run that is there. -/
lemma System.Happens.run_of_quiet (happens : s.Happens w move s') {new : List Event}
    (log : s'.log = s.log ++ new) (quiet : ∀ event ∈ new, event.writes = false)
    (held : s.store.run = some run) : s'.store.run = s.store.run := by
  cases happens with
  | passes new run => exact run
  | created absent => simp [absent] at held
  | driven driver tag command outcome held' commands store log' =>
    rw [log'] at log
    obtain rfl := append_cancel_left log
    rw [store, Workflow.run_of_quiet commands quiet]

/-- The suspension in place after a call of the driver. -/
lemma Suspended.row_drive (suspended : Suspended s) (runs : UnderWay s) (saga : Saga w s)
    (held : s.driver = some (driver, tag)) (commands : driver.command w s.now = some command)
    (present : (s.store.execute outcome command).store.run = some run)
    (status : run.status = .suspended) :
    ∃ since timeout,
      lastSuspension (s.log ++ driver.events s.now (s.store.execute outcome command)) =
        some ⟨run.currentStep, run.awaitingSignal, since, timeout⟩ := by
  -- Nothing is written, or a row of a step, or the run.
  cases wrote : (s.store.execute outcome command).wrote with
  | false =>
    rw [lastSuspension_quiet (quiet_of_unwritten commands (.inl wrote))]
    rw [execute_unwritten wrote] at present
    exact suspended.row run present status
  | true =>
    rcases writes : command.written with _ | run'
    · have quiet := quiet_of_unwritten commands (.inr ⟨writes, s.store, outcome, rfl⟩)
      rw [lastSuspension_quiet quiet]
      rw [Workflow.run_of_quiet commands quiet] at present
      exact suspended.row run present status
    · obtain ⟨current, -, -, written⟩ := execute_written writes wrote
      cases written.symm.trans present
      obtain ⟨before, directive, rfl, rfl⟩ :=
        runs.written_suspended saga held commands writes status
      refine ⟨s.now, directive.timeout, ?_⟩
      rw [lastSuspension_append]
      simp only [Driver.events, wrote]
      simp [suspension, Run.overwrite, Run.suspendedOn]

/-- The loops of `advance` do not lead back to `Deliver`. -/
lemma next_ne_deliver (held : Run) (pending : Option Signal) (run : Run) (signal : Signal) :
    w.next held pending ≠ .deliver run signal := by
  unfold Definition.next
  split_ifs <;> simp

lemma rollback_ne_deliver (held : Run) (steps : List Step) (run : Run) (signal : Signal) :
    w.rollback held steps ≠ .deliver run signal := by
  induction steps with
  | nil => simp [rollback]
  | cons step rest ih =>
    unfold rollback
    split_ifs
    · simp
    · exact ih

lemma enter_ne_deliver (held run : Run) (signal : Signal) :
    w.enter held ≠ .goes (.deliver run signal) := by
  unfold enter
  split_ifs <;> simp [next_ne_deliver]

lemma resume_ne_deliver {reply : Reply} (run : Run) (signal : Signal) :
    driver.resume w reply ≠ .goes (.deliver run signal) := by
  intro goes
  cases driver with
  | load =>
    cases reply with
    | run held => exact enter_ne_deliver held run signal goes
    | _ => simp [resume] at goes
  | fetch held pending =>
    cases reply with
    | step step =>
      simp only [resume] at goes
      split_ifs at goes <;> simp at goes
    | failed error => cases error <;> simp [resume] at goes
    | _ => simp [resume] at goes
  | fails held step =>
    cases reply with
    | done =>
      simp only [resume] at goes
      split_ifs at goes <;> simp at goes
    | _ => simp [resume] at goes
  | checkpoint held step rest result =>
    cases reply with
    | done =>
      cases result with
      | error cause => simp [resume] at goes
      | ok result =>
        simp only [resume] at goes
        split_ifs at goes
        simp at goes
    | _ => simp [resume] at goes
  | _ => cases reply <;> simp [resume, next_ne_deliver, rollback_ne_deliver] at goes

lemma returned_ne_deliver {edits : List Edit} {result : Except String StepResult} (run : Run)
    (signal : Signal) :
    driver.returned edits result ≠ some (.deliver run signal) := by
  intro returns
  cases driver with
  | invoke held step signal' =>
    rcases result with cause | result
    · simp [returned] at returns
    · simp only [returned] at returns
      split at returns <;> simp at returns
  | _ => simp [returned] at returns

/-- **One admitted move keeps what holds of suspensions.** -/
lemma Suspended.kept (suspended : Suspended s) (runs : UnderWay s) (saga : Saga w s)
    (admitted : Dormant s move) (acted : s.act w move = some s') : Suspended s' := by
  have happens := happens_of_act acted
  obtain ⟨new, log⟩ := happens.log
  have stay := timers_stay acted
  have holding : ∀ {run signal tag}, Holding s run signal tag → Holding s' run signal tag :=
    fun holds => holds.kept log fun quiet present => happens.run_of_quiet log quiet present
  refine ⟨?_, ?_, ?_, ?_⟩
  · -- The row
    intro run present status
    cases happens with
    | passes new kept steps log' passes =>
      rw [log', lastSuspension_quiet (by cases passes <;> simp [Event.writes])]
      exact suspended.row run (by rw [← kept, present]) status
    | created absent request created =>
      cases created.symm.trans present
      simp [Request.created, Request.run] at status
    | driven driver tag command outcome held commands store log' =>
      rw [log']
      exact suspended.row_drive runs saga held commands (by rw [← store, present]) status
  · -- A `Deliver` that waits for the lock
    intro run signal tag mem
    rcases arrives_of_act acted mem with before | arrives
    · exact holding (suspended.waits run signal tag before)
    · cases arrives with
      | found i asked tag run waits present awaits store driver found moves =>
        refine ⟨by simp [found, stamped], fun _ => ⟨by rw [store, present], awaits, ?_⟩⟩
        rcases tag with _ | id
        · exact .inl rfl
        · obtain ⟨timer, time, stored, key, at_, due⟩ :=
            suspended.finds asked id (mem_of_getElem? waits)
          obtain ⟨suspension, last, -, positive, fireAt⟩ :=
            admitted.armed i .ok asked id run timer moves waits present awaits stored
          refine .inr ⟨suspension, time, ?_, positive, by simp [stamped, at_], ?_⟩
          · rw [found, lastSuspension_quiet (by simp [Event.writes]), last]
          · rw [← fireAt]
            exact due
      | other caller tag silent => simp [delivers] at silent
  · -- A `Deliver` of the sweep
    intro signal id mem
    rcases arrives_of_act acted mem with before | arrives
    · exact (suspended.finds signal id before).kept stay
    · cases arrives with
      | swept id timer present unfired due =>
        exact Sweeps.kept ⟨timer, s.now, present, rfl, rfl, due⟩ stay
      | other caller tag silent => simp [delivers] at silent
  · -- A `Deliver` that has the lock
    intro run signal tag held'
    cases happens with
    | passes new kept steps log' passes =>
      cases passes with
      | quiet driver | found i driver =>
        exact holding (suspended.driver run signal tag (by rw [← driver, held']))
      | stopped driver => simp [driver] at held'
      | locked free next tag' driver starts =>
        cases driver.symm.trans held'
        rcases starts with starts | ⟨run', signal', mem, starts⟩ <;> cases starts
        exact holding (suspended.waits _ _ _ mem)
      | returned driver next tag' edits result held returns driver' =>
        cases driver'.symm.trans held'
        exact absurd returns (returned_ne_deliver run signal)
    | created absent request created steps driver =>
      exact holding (suspended.driver run signal tag (by rw [← driver, held']))
    | driven driver tag' command outcome held commands store log' turns =>
      exact absurd ((turns _ tag).mp held').1 (resume_ne_deliver run signal)

/-! ## Leaving it -/

/-- Only `Deliver` writes a suspended run. -/
lemma deliver_of_suspended (runs : UnderWay s) (saga : Saga w s)
    (held : s.driver = some (driver, tag)) (notLoad : driver ≠ .load)
    (suspended : s.RunIs .suspended) : ∃ run signal, driver = .deliver run signal := by
  have knows := saga.knows driver tag held
  have other : ∀ {status : RunStatus}, status ≠ .suspended →
      ¬ ∃ row, s.store.run = some row ∧ row.status = status := by
    intro status ne is
    exact ne (System.RunIs.unique is suspended)
  have asleep : driver.underWay ≠ true := by
    intro underWay
    exact absurd ((runs driver tag held underWay).unique suspended) (by simp)
  cases driver with
  | deliver run signal => exact ⟨run, signal, rfl⟩
  | load => exact absurd rfl notLoad
  | starts => exact absurd knows.2 (other (by simp))
  | list => exact absurd knows.2 (other (by simp))
  | undo | checkpoint | undone => exact absurd knows.1.2 (other (by simp))
  | note => exact absurd knows.1 (other (by simp))
  | fail => exact absurd knows.2.1 (other (by simp))
  | fetch | create | skip | mark | invoke | fails | complete | progress | suspend | abort
  | finish => exact absurd rfl asleep

/-- How a suspended run changes in one move. -/
lemma Suspended.leaves (suspended : Suspended s) (runs : UnderWay s) (saga : Saga w s)
    (admitted : Dormant s move) (happens : s.Happens w move s') {row : Run}
    (held : s.store.run = some row) (status : row.status = .suspended) :
    s'.store.run = some row ∨ ∃ signal tag, s.driver = some (.deliver row signal, tag) ∧
        signal.key = row.awaitingSignal ∧ Due s.log signal tag ∧
        s'.store.run = some (row.overwrite (row.resumed signal)) := by
  cases happens with
  | passes new run => exact .inl (by rw [run, held])
  | created absent => simp [absent] at held
  | driven driver tag command outcome present commands store log turns moves =>
    obtain same | ⟨run, current, writes, before, -, written⟩ :=
      execute_run outcome command s.store
    · exact .inl (by rw [store, same, held])
    · have notLoad : driver ≠ .load := by
        rintro rfl
        cases commands
        simp [Command.written] at writes
      obtain ⟨found, signal, rfl⟩ := deliver_of_suspended runs saga present notLoad
        ⟨row, held, status⟩
      obtain ⟨-, holds⟩ := suspended.driver found signal tag present
      obtain ⟨unchanged, ⟨-, key⟩, due⟩ :=
        holds (admitted.unwritten found signal tag outcome present moves)
      rw [held] at unchanged before
      cases unchanged
      cases before
      cases commands
      cases writes
      exact .inr ⟨signal, tag, present, key.symm, due, by rw [store, written]⟩

/-- **A suspension is left only by its signal or its timeout.**  In every run in which `advance`
is not entered on a suspended run, `Deliver` writes only a run that was not written since it
was found, and a timer that finds the run suspended on its key was armed by that suspension:
while the run is stored as suspended, on the key and since the time of the last suspension, no
step function is invoked, and the row stays as it is until a `Deliver` with that key writes it,
which comes from outside or from a timer at or after the time at which the suspension ends. -/
theorem suspension_kept (w : Definition) (s : System) (reached : (life w).Reaches Dormant s)
    (row : Run) (held : s.store.run = some row) (status : row.status = .suspended) :
    ∃ since timeout,
      lastSuspension s.log = some ⟨row.currentStep, row.awaitingSignal, since, timeout⟩ ∧
      (∀ i, ¬ s.Invokes i) ∧
      ∀ move s', Dormant s move → s.act w move = some s' → s'.store.run = some row ∨
        ∃ signal tag, s.driver = some (.deliver row signal, tag) ∧ signal.key = row.awaitingSignal ∧
          s'.store.run = some (row.overwrite (row.resumed signal)) ∧
          (tag = none ∨ 0 < timeout ∧
            ∃ time, signal.deliverAt = some time ∧ since + timeout ≤ time) := by
  obtain ⟨saga, runs, suspended⟩ := invariant_of_awake (fun _ _ admitted => admitted.awake)
    Suspended.initial (fun _ _ _ suspended => suspended.kept) reached
  obtain ⟨since, timeout, last⟩ := suspended.row row held status
  refine ⟨since, timeout, last, ?_, ?_⟩
  · rintro i ⟨run, step, signal, tag, driver, -⟩
    have running := runs _ tag driver rfl
    simpa using running.unique ⟨row, held, status⟩
  · intro move s' admitted acted
    refine (suspended.leaves runs saga admitted (System.happens_of_act acted) held status).imp id ?_
    rintro ⟨signal, tag, driver, key, due, written⟩
    refine ⟨signal, tag, driver, key, written, due.imp id ?_⟩
    rintro ⟨suspension, time, last', positive, deliverAt, le⟩
    cases last.symm.trans last'
    exact ⟨positive, time, deliverAt, le⟩

/-- A run is suspended, and its caller retries `StartOrResumeRun`. -/
def retriedMoves : List Move :=
  firstStepMoves ++ [suspends "go" 0, .drive .ok] ++
    startingMoves.take 3 ++ List.replicate 3 (.drive .ok)

def invokedAsleep (s : System) : Bool :=
  (match s.driver with
    | some (.invoke run _ _, _) => run.currentStep = 0
    | _ => false) &&
  (s.store.run).any fun run => run.status = .suspended

/-- **A retry invokes the step of a suspended run.** -/
theorem retry_invokes_suspended : ∃ s, (life copyThenSwitch).Reaches (fun _ _ => True) s ∧
    s.RunIs .suspended ∧ s.Invokes 0 := by
  obtain ⟨s, reached, passes⟩ := (enacted copyThenSwitch).reaches_any retriedMoves (invokedAsleep ·)
    (by decide +kernel)
  unfold invokedAsleep at passes
  rw [Bool.and_eq_true, Option.any_eq_true] at passes
  obtain ⟨invokes, run, held, suspended⟩ := passes
  refine ⟨s, reached, ⟨run, held, of_decide_eq_true suspended⟩, ?_⟩
  split at invokes
  · rename_i run step signal tag driver
    exact ⟨run, step, signal, tag, driver, of_decide_eq_true invokes⟩
  · simp at invokes

/-- No timer delivers, no `Deliver` is about to write, and `advance` does not read a suspended
run. -/
def sleeps (s : System) (_ : Move) : Bool :=
  (s.callers.all fun caller => caller.2.isNone) &&
  match s.driver with
  | some (.deliver _ _, _) => false
  | some (.load, _) => (s.store.run).all fun run => run.status ≠ .suspended
  | _ => true

lemma dormant_of_sleeps (ok : sleeps s move = true) : Dormant s move := by
  unfold sleeps at ok
  rw [Bool.and_eq_true, all_eq_true] at ok
  obtain ⟨callers, driver⟩ := ok
  refine ⟨?_, ?_, ?_⟩
  · rintro tag outcome held - ⟨run, present, suspended⟩
    simp [held, present, suspended] at driver
  · intro run signal tag outcome held
    simp [held] at driver
  · intro i outcome signal id run timer _ waits
    simpa using callers _ (mem_of_getElem? waits)

/-- The run stands suspended after its first step has asked for a signal. -/
theorem suspension_kept_standing : ∃ s row, (life copyThenSwitch).Reaches Dormant s ∧
    s.store.run = some row ∧ row.status = .suspended ∧ ∀ i, ¬ s.Invokes i := by
  obtain ⟨s, reached, row, held, status⟩ := (enacted copyThenSwitch).reaches sleeps
    (fun _ _ => dormant_of_sleeps) (firstStepMoves ++ [suspends "go" 60, .drive .ok])
    (fun s => ∃ run ∈ s.store.run, run.status = .suspended) (by decide +kernel)
  obtain ⟨since, timeout, -, idle, -⟩ :=
    suspension_kept copyThenSwitch s reached row held status
  exact ⟨s, row, reached, held, status, idle⟩

end TechStack.Workflow
