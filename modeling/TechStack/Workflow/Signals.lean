import TechStack.Workflow.UnderWay

/-!
# Whom a signal reaches

`Deliver` puts the signal into the context of the run and writes the run; `advance` takes
it out in memory and hands it to the first step that runs.  The stored context loses it
only with the next write of the run, which for a step that completes comes after the
write of the step.  If that one is stored and the write of the run is not, the next
`advance` finds the signal and a completed step, goes on to the step after it, and hands
it the signal of the step before.  The same happens when a `Deliver` that had read the run
before it got the lock writes it back after the step was completed.  And when `advance` is
entered on a suspended run and its step completes, the run stays suspended, now at the
next step, which then gets the signal.

Without these (`SignalFits`) a signal reaches only the step that asked for it, and the
signal of one call of `Deliver` only one step.
-/

namespace TechStack.Workflow

open List

variable {w : Definition} {store : Store} {outcome : Outcome} {command : Command} {now : ℤ}
  {s s' : System} {move : Move}

/-! ## What fits -/

/-- A step has suspended the run on a key. -/
def Asked (log : List Event) (i : ℕ) (key : String) : Prop :=
  ∃ since timeout, .suspended i key since timeout ∈ log

/-- The call of `Deliver` that brought the signal found the run at a step that had asked for
the signal's key. -/
def Fits (log : List Event) (signal : Signal) (i : ℕ) : Prop :=
  Asked log i signal.key ∧ log[signal.delivery]? = some (.found i)

variable {log : List Event}

lemma Asked.append {i : ℕ} {key : String} (asked : Asked log i key) (new : List Event)
    : Asked (log ++ new) i key := by
  obtain ⟨since, timeout, mem⟩ := asked
  exact ⟨since, timeout, mem_append_left _ mem⟩

lemma found_append {i n : ℕ} (found : log[n]? = some (.found i)) (new : List Event)
    : (log ++ new)[n]? = some (.found i) := by
  obtain ⟨lt, -⟩ := List.getElem?_eq_some_iff.mp found
  rw [List.getElem?_append_left lt, found]

variable {signal : Signal}

lemma Fits.append {i : ℕ} (fits : Fits log signal i) (new : List Event)
    : Fits (log ++ new) signal i :=
  ⟨fits.1.append new, found_append fits.2 new⟩

/-- A signal that a run holds fits its current step. -/
def Run.Fits (log : List Event) (run : Run) : Prop :=
  ∀ signal, run.context.signal = some signal → Workflow.Fits log signal run.currentStep

variable {run : Run}

lemma Run.Fits.of_none (none : run.context.signal = none) : run.Fits log := by
  intro signal held
  simp [none] at held

/-- A stored run waits only for what its current step has asked for, and holds only a signal
that fits. -/
def Run.Sound (log : List Event) (run : Run) : Prop :=
  run.Fits log ∧ (run.status = .suspended → Asked log run.currentStep run.awaitingSignal)

lemma Run.Sound.append (sound : run.Sound log) (new : List Event) : run.Sound (log ++ new) :=
  ⟨fun signal held => (sound.1 signal held).append new,
    fun suspended => (sound.2 suspended).append new⟩

/-- The step is stored as completed. -/
def Store.Completed (store : Store) (i : ℕ) : Prop :=
  ∃ row, store.steps[i]? = some row ∧ row.status = .completed

/-- The signals that the driver holds. -/
def Driver.Carries (log : List Event) (store : Store) : Driver → Prop
  | deliver run signal => Workflow.Fits log signal run.currentStep
  | load => True
  | starts run pending => run.context.signal = none ∧ ∀ signal, pending = some signal →
      Workflow.Fits log signal run.currentStep ∧ ¬ store.Completed run.currentStep
  | fetch run pending => run.context.signal = none ∧ ∀ signal, pending = some signal →
      Workflow.Fits log signal run.currentStep ∧ ¬ store.Completed run.currentStep
  | create run pending => run.context.signal = none ∧ ∀ signal, pending = some signal →
      Workflow.Fits log signal run.currentStep
  | skip run pending => run.context.signal = none ∧ pending = none
  | mark run _ signal => run.context.signal = none ∧ ∀ held, signal = some held →
      Workflow.Fits log held run.currentStep
  | invoke run _ signal => run.context.signal = none ∧ ∀ held, signal = some held →
      Workflow.Fits log held run.currentStep
  | fails run _ => run.context.signal = none
  | complete run _ => run.context.signal = none
  | progress run => run.context.signal = none
  | suspend run _ => run.context.signal = none
  | abort run => run.context.signal = none
  | finish run => run.context.signal = none
  | list run => run.Fits log
  | undo run _ _ => run.Fits log
  | checkpoint run _ _ _ => run.Fits log
  | note _ => True
  | undone run _ _ => run.Fits log
  | fail run => run.Fits log

variable {driver : Driver}

/-- What is carried depends on the log as far as it goes, and on the steps. -/
lemma Driver.Carries.append {store' : Store} (carries : driver.Carries log store)
    (new : List Event) (steps : store'.steps = store.steps)
    : driver.Carries (log ++ new) store' := by
  have fits : ∀ {run : Run}, run.Fits log → run.Fits (log ++ new) :=
    fun fits signal held => (fits signal held).append new
  have completed : ∀ i, store'.Completed i ↔ store.Completed i := by
    intro i
    simp only [Store.Completed, steps]
  cases driver with
  | deliver => exact Workflow.Fits.append carries new
  | starts | fetch =>
    refine ⟨carries.1, fun signal held => ?_⟩
    rw [completed]
    exact ⟨(carries.2 signal held).1.append new, (carries.2 signal held).2⟩
  | create | mark | invoke =>
    exact ⟨carries.1, fun signal held => (carries.2 signal held).append new⟩
  | load | note => trivial
  | skip | fails | complete | progress | suspend | abort | finish => exact carries
  | list | undo | checkpoint | undone | fail => exact fits carries

/-! ## What a call does -/

lemma next_carries {pending : Option Signal} (none : run.context.signal = none)
    (fits : ∀ signal, pending = some signal →
      Fits log signal run.currentStep ∧ ¬ store.Completed run.currentStep) :
    (w.next run pending).Carries log store := by
  unfold Definition.next
  split_ifs
  · exact ⟨none, fits⟩
  · exact none

lemma rollback_carries (fits : run.Fits log) (steps : List Step)
    : (w.rollback run steps).Carries log store := by
  induction steps with
  | nil => exact fits
  | cons step rest ih =>
    unfold Definition.rollback
    split_ifs
    · exact fits
    · exact ih

lemma enter_carries {next : Driver} (fits : run.Fits log)
    (incomplete : run.context.signal.isSome → ¬ store.Completed run.currentStep)
    (enters : w.enter run = .goes next) : next.Carries log store := by
  have pending : ∀ signal, run.context.signal = some signal →
      Fits log signal run.currentStep ∧ ¬ store.Completed run.currentStep :=
    fun signal held => ⟨fits signal held, incomplete (by simp [held])⟩
  unfold Definition.enter at enters
  split_ifs at enters <;> cases enters
  · exact fits
  · exact ⟨rfl, pending⟩
  · exact next_carries rfl pending

/-- **The next call of the driver passes signals on as they fit.** -/
lemma Driver.Carries.drive {driver next : Driver} (carries : driver.Carries log store)
    (row : ∀ run, store.run = some run → run.Fits log)
    (entered : driver = .load → ∀ run, store.run = some run →
      run.context.signal.isSome → ¬ store.Completed run.currentStep)
    (commands : driver.command w now = some command)
    (goes : driver.resume w (store.execute outcome command).reply = .goes next) :
    next.Carries log (store.execute outcome command).store := by
  -- A write of the run leaves the steps as they are.
  have rows : ∀ {run : Run}, command = .updateRun run →
      (store.execute outcome command).store.steps = store.steps := by
    rintro run rfl
    obtain same | ⟨step, is, -⟩ | ⟨step, current, is, -⟩ :=
      Store.execute_steps outcome (.updateRun run) store
    · exact same
    · simp at is
    · simp at is
  have completed : ∀ {run : Run}, command = .updateRun run → ∀ i,
      (store.execute outcome command).store.Completed i ↔ store.Completed i := by
    intro run is i
    simp only [Store.Completed, rows is]
  cases Driver.goes_of_resume commands goes with
  | deliver | blames => trivial
  | load present enters =>
    rw [Store.execute, Store.read_store]
    exact enter_carries (row _ present) (entered rfl _ present) enters
  | starts =>
    refine next_carries carries.1 fun signal held => ?_
    rw [completed rfl]
    exact carries.2 signal held
  | absent | found => exact ⟨carries.1, fun signal held => (carries.2 signal held).1⟩
  | passes present done =>
    -- A signal does not pass a completed step.
    refine ⟨carries.1, ?_⟩
    by_contra held
    obtain ⟨signal, held⟩ := Option.ne_none_iff_exists'.mp held
    exact (carries.2 signal held).2 ⟨_, present, done⟩
  | create | mark | spent | lost | complete | checkpoint => exact carries
  | skip =>
    refine next_carries carries.1 fun signal held => ?_
    simp [carries.2] at held
  | unmarked => exact carries.1
  | retry => exact ⟨carries, by simp⟩
  | progress => exact next_carries carries (by simp)
  | abort => exact Run.Fits.of_none carries
  | list | undone => exact rollback_carries carries _

/-- A function that returns leaves the signals as they are. -/
lemma Driver.Carries.returned {driver next : Driver} {edits : List Edit}
    {result : Except String StepResult} (carries : driver.Carries log store)
    (returns : driver.returned edits result = some next) : next.Carries log store := by
  cases driver with
  | invoke run step signal =>
    rcases result with cause | result
    · cases returns
      exact carries.1
    · simp only [Driver.returned] at returns
      split at returns <;> cases returns <;> exact carries.1
  | undo run step rest =>
    cases returns
    exact carries
  | _ => simp [Driver.returned] at returns

lemma stored_signal {context : Context} (held : context.stored.signal = some signal)
    : context.signal = some signal := by
  unfold Context.stored at held
  split_ifs at held
  exact held

/-- A run that the driver writes holds only a signal that fits. -/
lemma Driver.Carries.written (carries : driver.Carries log store)
    (commands : driver.command w now = some command) (writes : command.written = some run)
    : run.Fits log := by
  cases Driver.writes_of_command commands writes with
  | deliver =>
    intro held is
    cases is
    exact carries
  | starts | skip => exact .of_none carries.1
  | progress | abort | finish => exact .of_none carries
  | @suspend held directive =>
    have none : (held.suspendedOn directive).context.signal = none := carries
    exact .of_none none
  | checkpoint | fail => exact carries

/-! ## The invariant -/

/-- `advance` does not read a suspended run, nor a run that holds a signal although its current
step is completed. -/
def SignalFits (s : System) (move : Move) : Prop :=
  EntersAwake s move ∧
  ∀ tag outcome run, s.driver = some (.load, tag) → move = .drive outcome →
    s.store.run = some run → run.context.signal.isSome → ¬ s.StepIs run.currentStep .completed

/-- Every signal, wherever it is, fits. -/
structure Signals (s : System) : Prop where
  row : ∀ run, s.store.run = some run → run.Sound s.log
  callers : ∀ run signal tag, (.await run signal, tag) ∈ s.callers →
    Fits s.log signal run.currentStep
  driver : ∀ driver tag, s.driver = some (driver, tag) → driver.Carries s.log s.store
  asked : ∀ earlier later i signal row,
    s.log = earlier ++ .invoked i (some signal) row :: later → Asked earlier i signal.key
  reached : ∀ i signal row, .invoked i (some signal) row ∈ s.log →
    s.log[signal.delivery]? = some (.found i)

lemma Signals.initial (now : ℤ) : Signals (.initial now) where
  row run held := by simp [System.initial] at held
  callers run signal tag mem := by simp [System.initial] at mem
  driver driver tag held := by simp [System.initial] at held
  asked earlier later i signal row log := by simp [System.initial] at log
  reached i signal row mem := by simp [System.initial] at mem

/-- A `Deliver` that waits for the lock has a signal that fits. -/
lemma Signals.await {new : List Event} (signals : Signals s) (acted : s.act w move = some s')
    (log : s'.log = s.log ++ new) {tag : Option ℕ} (mem : (.await run signal, tag) ∈ s'.callers) :
    Fits s'.log signal run.currentStep := by
  rcases System.arrives_of_act acted mem with before | arrives
  · rw [log]
    exact (signals.callers run signal tag before).append new
  · cases arrives with
    | found i asked tag run waits present awaits store driver found =>
      rw [found]
      obtain ⟨suspended, key⟩ := awaits
      refine ⟨?_, ?_⟩
      · have := (signals.row run present).2 suspended
        rw [key] at this
        exact this.append _
      · simp [System.stamped]
    | other caller tag silent => simp [System.delivers] at silent

/-- The invocations that a move adds to the log are those whose signal the driver carries. -/
lemma Signals.logged {new : List Event} (signals : Signals s) (log : s'.log = s.log ++ new)
    (invoked : ∀ i signal row, .invoked i (some signal) row ∈ new → Fits s.log signal i) :
    (∀ earlier later i signal row,
      s'.log = earlier ++ .invoked i (some signal) row :: later → Asked earlier i signal.key) ∧
    ∀ i signal row, .invoked i (some signal) row ∈ s'.log →
      s'.log[signal.delivery]? = some (.found i) := by
  constructor
  · intro earlier later i signal row split
    rw [log, append_eq_append_iff] at split
    rcases split with ⟨middle, rfl, split⟩ | ⟨middle, split, rest⟩
    · have mem : .invoked i (some signal) row ∈ new := by rw [split]; simp
      exact (invoked i signal row mem).1.append middle
    · rcases middle with _ | ⟨event, middle⟩
      · have mem : .invoked i (some signal) row ∈ new := by
          rw [nil_append] at rest
          rw [← rest]
          simp
        have := (invoked i signal row mem).1
        rw [split, append_nil] at this
        exact this
      · rw [cons_append, List.cons.injEq] at rest
        obtain ⟨rfl, -⟩ := rest
        exact signals.asked earlier middle i signal row split
  · intro i signal row mem
    rw [log] at mem ⊢
    rcases mem_append.mp mem with old | added
    · exact found_append (signals.reached i signal row old) new
    · exact found_append (invoked i signal row added).2 new

/-- The row of the run after a call of the driver. -/
lemma Signals.row_drive (signals : Signals s) (runs : UnderWay s) (saga : Saga w s)
    {tag : Option ℕ} (held : s.driver = some (driver, tag))
    (commands : driver.command w s.now = some command)
    (present : (s.store.execute outcome command).store.run = some run) :
    run.Sound (s.log ++ driver.events s.now (s.store.execute outcome command)) := by
  obtain same | ⟨run', current, writes, -, -, written⟩ :=
    Store.execute_run outcome command s.store
  · exact (signals.row run (by rw [← same, present])).append _
  · cases written.symm.trans present
    have fits := (signals.driver driver tag held).written commands writes
    constructor
    · intro signal is
      exact (fits signal (stored_signal is)).append _
    · intro suspended
      obtain ⟨before, directive, rfl, rfl⟩ := runs.written_suspended saga held commands writes
        suspended
      cases commands
      cases wrote : (s.store.execute outcome (.suspendRun (before.suspendedOn directive)
          (directive.timer s.now))).wrote with
      | false =>
        -- A suspension that is not stored leaves the run that was there.
        rw [execute_unwritten wrote] at written
        exact ((signals.row _ written).append _).2 suspended
      | true =>
        refine ⟨s.now, directive.timeout, mem_append_right _ ?_⟩
        simp only [Driver.events, wrote]
        simp [Run.overwrite, Run.suspendedOn]

/-- **One admitted move leaves every signal where it fits.** -/
lemma Signals.kept (signals : Signals s) (runs : UnderWay s) (saga : Saga w s)
    (admitted : SignalFits s move) (acted : s.act w move = some s') : Signals s' := by
  cases System.happens_of_act acted with
  | passes new run steps log passes =>
    obtain ⟨asked, reached⟩ := signals.logged log (by cases passes <;> simp)
    refine ⟨?_, fun run signal tag mem => signals.await acted log mem, ?_, asked, reached⟩
    · intro row held
      rw [log]
      exact (signals.row row (by rw [← run, held])).append new
    · intro d tag held
      rw [log]
      cases passes with
      | quiet driver | found i driver =>
        exact (signals.driver d tag (by rw [← driver, held])).append _ steps
      | stopped driver => simp [driver] at held
      | locked free next tag' driver starts =>
        cases driver.symm.trans held
        rcases starts with rfl | ⟨run, signal, mem, rfl⟩
        · trivial
        · exact (signals.callers run signal tag mem).append []
      | returned driver next tag' edits result held' returns driver' =>
        cases driver'.symm.trans held
        exact ((signals.driver driver tag held').returned returns).append _ steps
  | created absent request run steps driver log =>
    have log : s'.log = s.log ++ [] := by simpa using log
    obtain ⟨asked, reached⟩ := signals.logged log (by simp)
    refine ⟨?_, fun run signal tag mem => signals.await acted log mem, ?_, asked, reached⟩
    · intro row held
      cases run.symm.trans held
      constructor
      · intro signal is
        simpa [Request.created, Request.run] using stored_signal is
      · intro suspended
        simp [Request.created, Request.run] at suspended
    · intro d tag held
      rw [log]
      exact (signals.driver d tag (by rw [← driver, held])).append [] steps
  | driven driver tag command outcome held commands store log turns moves =>
    have carries := signals.driver driver tag held
    obtain ⟨asked, reached⟩ := signals.logged log (by
      intro i signal row mem
      obtain ⟨run, rfl, rfl⟩ := invoked_of_events mem
      exact carries.2 signal rfl)
    refine ⟨?_, fun run signal tag mem => signals.await acted log mem, ?_, asked, reached⟩
    · intro run present
      rw [log]
      exact signals.row_drive runs saga held commands (by rw [← store, present])
    · intro d tag' held'
      rw [log, store]
      refine Driver.Carries.append ?_ _ rfl
      refine carries.drive (fun run present => (signals.row run present).1) ?_ commands
        ((turns d tag').mp held').1
      rintro rfl run present signal
      exact admitted.2 tag outcome run held moves present signal

/-- **A signal reaches only the step that asked for it.**  In every run in which `advance` is not
entered on a suspended run, nor on a run that holds a signal although its current step is
completed: a step that is invoked with a signal had suspended the run on the key of that
signal, and the signal of one call of `Deliver` is seen by one step only. -/
theorem signal_reaches_asker (w : Definition) (s : System)
    (reached : (life w).Reaches SignalFits s) :
    (∀ earlier later i signal row, s.log = earlier ++ .invoked i (some signal) row :: later →
      ∃ since timeout, .suspended i signal.key since timeout ∈ earlier) ∧
    ∀ i j signal signal' row row', .invoked i (some signal) row ∈ s.log →
      .invoked j (some signal') row' ∈ s.log → signal.delivery = signal'.delivery → i = j := by
  obtain ⟨-, -, signals⟩ := invariant_of_awake (fun _ _ admitted => admitted.1) Signals.initial
    (fun _ _ _ signals => signals.kept) reached
  refine ⟨signals.asked, ?_⟩
  intro i j signal signal' row row' first second same
  have found := signals.reached i signal row first
  rw [same, signals.reached j signal' row' second] at found
  simpa using (Option.some.inj found).symm

/-- A step function that suspends the run. -/
def suspends (key : String) (timeout : ℤ) : Move :=
  .returns [] (.ok ⟨"", some ⟨key, timeout, none⟩, false⟩)

/-- The first step suspends the run on a key, the signal is delivered, and `advance` goes on up
to the function of that step. -/
def signalledMoves : List Move :=
  firstStepMoves ++ [suspends "go" 0, .drive .ok, .deliver ⟨"go", "", false, none, 0⟩,
    .call 0 .ok, .call 0 .ok] ++ List.replicate 4 (.drive .ok)

/-- The step completes; its row is written, and the write of the run fails.  The poll loop takes
the run up again. -/
def leftOverMoves : List Move :=
  signalledMoves ++ [succeeds, .drive .ok, .drive (.fails "connection reset"), .pollRuns,
    .call 0 .ok] ++ List.replicate 6 (.drive .ok)

/-- Both steps have seen one signal, and the second one never asked for any. -/
def strays (s : System) : Bool :=
  (s.log.any fun event =>
    match event with
    | .invoked 0 (some signal) _ => s.log.any fun event' =>
      match event' with
      | .invoked 1 (some signal') _ => signal = signal'
      | _ => false
    | _ => false) &&
  s.log.all fun event =>
    match event with
    | .suspended 1 _ _ _ => false
    | _ => true

/-- **The next step gets the signal of a step that has completed.** -/
theorem signal_strays : ∃ s, (life copyThenSwitch).Reaches (fun _ _ => True) s ∧
    (∃ signal row row', .invoked 0 (some signal) row ∈ s.log ∧
      .invoked 1 (some signal) row' ∈ s.log) ∧
    ∀ key since timeout, .suspended 1 key since timeout ∉ s.log := by
  obtain ⟨s, reached, passes⟩ := (enacted copyThenSwitch).reaches_any leftOverMoves (strays ·)
    (by decide +kernel)
  unfold strays at passes
  rw [Bool.and_eq_true, any_eq_true, all_eq_true] at passes
  obtain ⟨⟨event, member, seen⟩, silent⟩ := passes
  refine ⟨s, reached, ?_, ?_⟩
  · split at seen
    · rename_i signal row
      rw [any_eq_true] at seen
      obtain ⟨event', member', seen⟩ := seen
      split at seen
      · rename_i signal' row'
        obtain rfl := of_decide_eq_true seen
        exact ⟨signal, row, row', member, member'⟩
      · simp at seen
    · simp at seen
  · intro key since timeout asked
    simpa using silent _ asked

/-- `advance` may read the run. -/
def fits (s : System) (_ : Move) : Bool :=
  match s.driver, s.store.run with
  | some (.load, _), some run => run.status ≠ .suspended ∧
      (run.context.signal.isSome →
        (s.store.steps[run.currentStep]?).all fun row => row.status ≠ .completed)
  | _, _ => true

lemma signalFits_of_fits (ok : fits s move = true) : SignalFits s move := by
  constructor
  · rintro tag outcome held - ⟨run, present, suspended⟩
    simp [fits, held, present, suspended] at ok
  · rintro tag outcome run held - present signal ⟨row, stored, completed⟩
    simp [fits, held, present, signal, stored, completed] at ok

/-- The first step has got the signal that it asked for. -/
theorem signal_reaches_asker_once : ∃ s, (life copyThenSwitch).Reaches SignalFits s ∧
    ∃ signal row, .invoked 0 (some signal) row ∈ s.log ∧
      ∃ since timeout, .suspended 0 signal.key since timeout ∈ s.log := by
  obtain ⟨s, reached, event, member, seen⟩ := (enacted copyThenSwitch).reaches fits
    (fun _ _ => signalFits_of_fits) signalledMoves
    (fun s => ∃ event ∈ s.log, (match event with
      | .invoked 0 (some _) _ => true
      | _ => false) = true)
    (by decide +kernel)
  split at seen
  · rename_i signal row
    obtain ⟨earlier, later, log⟩ := append_of_mem member
    obtain ⟨since, timeout, asked⟩ :=
      (signal_reaches_asker copyThenSwitch s reached).1 earlier later 0 signal row log
    exact ⟨s, reached, signal, row, member, since, timeout,
      by rw [log]; exact mem_append_left _ asked⟩
  · simp at seen

end TechStack.Workflow
