import TechStack.Workflow.Engine

/-!
# The order of a saga

What the goroutine that has the lock knows of the store at each of its positions
(`Driver.Knows`).  Nobody else writes the rows while it has the lock, so what it has
read or written stays true until its own next write; the one exception is `Deliver`,
which comes with a run that it read before, and knows nothing.

From this the order of forward steps and compensations follows, for every
interleaving, with stops and with failing calls of the store: a completed step is not
invoked again, there are no forward steps once the run is compensating, compensations
go from the last step to the first, and a terminal run stays as it is.
-/

namespace TechStack.Workflow

open Std (ExtTreeMap)

/-! ## What a command does to the rows -/

/-- The run that a command writes. -/
def Command.written : Command → Option Run
  | updateRun run => some run
  | suspendRun run _ => some run
  | _ => none

namespace Store

variable {store : Store} {outcome : Outcome} {command : Command}

/-- What a command does to the store where it takes effect. -/
def apply (command : Command) (store : Store) : Except StoreError Store :=
  match command with
  | .updateRun run => store.updateRun run
  | .suspendRun run timer => store.suspendRun run timer
  | .createStep step => store.createStep step
  | .updateStep step => store.updateStep step
  | .getRun | .getStep _ | .listSteps => .ok store

/-- The command takes effect. -/
def Takes (store : Store) (outcome : Outcome) (command : Command) : Prop :=
  store.apply command = .ok (store.execute outcome command).store

/-- A call has no effect or takes effect. -/
lemma execute_cases (outcome : Outcome) (command : Command) (store : Store) :
    (store.execute outcome command).store = store ∧
        (store.execute outcome command).wrote = false ∨ store.Takes outcome command := by
  have write : ∀ result : Except StoreError Store,
      (store.write outcome result).store = store ∧ (store.write outcome result).wrote = false ∨
        result = .ok (store.write outcome result).store := by
    intro result
    obtain ⟨same, quiet, -⟩ | ⟨store', ok, written, -⟩ := write_cases outcome result store
    · exact .inl ⟨same, quiet⟩
    · exact .inr (by rw [written, ok])
  cases command with
  | getRun | getStep | listSteps => exact .inl (by simp [execute])
  | updateRun | suspendRun | createStep | updateStep => exact write _

/-- The row of the run stays, or it is overwritten and its status makes a step. -/
lemma execute_run (outcome : Outcome) (command : Command) (store : Store) :
    (store.execute outcome command).store.run = store.run ∨
      ∃ run current, command.written = some run ∧ store.run = some current ∧
        current.status.Steps run.status ∧
        (store.execute outcome command).store.run = some (current.overwrite run) := by
  rcases execute_cases outcome command store with ⟨same, -⟩ | taken
  · exact .inl (by rw [same])
  cases command with
  | getRun | getStep | listSteps => exact .inl (by simp [execute])
  | updateRun run =>
    obtain ⟨current, held, steps, after⟩ := updateRun_ok taken
    exact .inr ⟨run, current, rfl, held, steps, by rw [after]⟩
  | suspendRun run timer =>
    obtain ⟨current, held, steps, after⟩ := suspendRun_ok taken
    exact .inr ⟨run, current, rfl, held, steps, by rw [after]⟩
  | createStep step =>
    obtain ⟨-, after⟩ := createStep_ok taken
    exact .inl (by rw [after])
  | updateStep step =>
    obtain ⟨current, -, -, after⟩ := updateStep_ok taken
    exact .inl (by rw [after])

/-- The rows of the steps stay, or one is created, or one is overwritten and its status
makes a step. -/
lemma execute_steps (outcome : Outcome) (command : Command) (store : Store) :
    (store.execute outcome command).store.steps = store.steps ∨
      (∃ step, command = .createStep step ∧ store.steps[step.stepIndex]? = none ∧
        (store.execute outcome command).store.steps = store.steps.insert step.stepIndex step) ∨
      ∃ step current, command = .updateStep step ∧
        store.steps[step.stepIndex]? = some current ∧ current.status.Steps step.status ∧
        (store.execute outcome command).store.steps =
          store.steps.insert step.stepIndex (current.overwrite step) := by
  rcases execute_cases outcome command store with ⟨same, -⟩ | taken
  · exact .inl (by rw [same])
  cases command with
  | getRun | getStep | listSteps => exact .inl (by simp [execute])
  | updateRun run =>
    obtain ⟨current, -, -, after⟩ := updateRun_ok taken
    exact .inl (by rw [after])
  | suspendRun run timer =>
    obtain ⟨current, -, -, after⟩ := suspendRun_ok taken
    exact .inl (by rw [after])
  | createStep step =>
    obtain ⟨absent, after⟩ := createStep_ok taken
    exact .inr (.inl ⟨step, rfl, absent, by rw [after]⟩)
  | updateStep step =>
    obtain ⟨current, held, steps, after⟩ := updateStep_ok taken
    exact .inr (.inr ⟨step, current, rfl, held, steps, by rw [after]⟩)

/-- A row of a step is never deleted, and its status only makes steps. -/
lemma execute_row (outcome : Outcome) (command : Command) {i : ℕ} {row : Step}
    (held : store.steps[i]? = some row) :
    ∃ row', (store.execute outcome command).store.steps[i]? = some row' ∧
      row.status.Steps row'.status := by
  obtain same | ⟨step, -, absent, written⟩ | ⟨step, current, -, present, steps, written⟩ :=
    execute_steps outcome command store
  · exact ⟨row, by rw [same, held], .inl rfl⟩
  · refine ⟨row, ?_, .inl rfl⟩
    rw [written, ExtTreeMap.getElem?_insert]
    split_ifs with same
    · rw [compare_eq_iff_eq.mp same, held] at absent
      simp at absent
    · exact held
  · rw [written, ExtTreeMap.getElem?_insert]
    split_ifs with same
    · rw [compare_eq_iff_eq.mp same, held] at present
      cases present
      exact ⟨_, rfl, steps⟩
    · exact ⟨row, held, .inl rfl⟩

/-- Every row stands under its own index. -/
def Keyed (store : Store) : Prop :=
  ∀ (i : ℕ) (row : Step), store.steps[i]? = some row → row.stepIndex = i

lemma Keyed.execute (keyed : store.Keyed) (outcome : Outcome) (command : Command) :
    (store.execute outcome command).store.Keyed := by
  intro i row held
  obtain same | ⟨step, -, absent, written⟩ | ⟨step, current, -, present, steps, written⟩ :=
    execute_steps outcome command store
  · exact keyed i row (by rw [← same, held])
  · rw [written, ExtTreeMap.getElem?_insert] at held
    split_ifs at held with same
    · cases held
      exact compare_eq_iff_eq.mp same
    · exact keyed i row held
  · rw [written, ExtTreeMap.getElem?_insert] at held
    split_ifs at held with same
    · cases held
      rw [← compare_eq_iff_eq.mp same]
      exact keyed _ current present
    · exact keyed i row held

end Store

/-! ## How a driver goes on -/

/-- A write that goes on is one that has succeeded, if the driver returns on every failure. -/
lemma write_goes {store : Store} {outcome : Outcome} {result : Except StoreError Store}
    {resume : Reply → Turn} {next : Driver}
    (stops : ∀ error, resume (.failed error) = .returns false)
    (goes : resume (store.write outcome result).reply = .goes next) :
    result = .ok (store.write outcome result).store ∧
      (store.write outcome result).reply = .done := by
  obtain ⟨-, -, error, reply⟩ | ⟨store', ok, written, -, reply | ⟨error, reply⟩⟩ :=
    Store.write_cases outcome result store
  · rw [reply, stops] at goes
    simp at goes
  · exact ⟨by rw [written, ok], reply⟩
  · rw [reply, stops] at goes
    simp at goes

/-- The call of a driver that goes on, and the position it goes to: what it has read of the store,
or that its write took effect. -/
inductive Driver.Goes (w : Definition) (store : Store) (outcome : Outcome) :
    Driver → Command → Driver → Prop where
  | deliver (taken : store.Takes outcome (.updateRun (run.resumed signal))) :
      Goes w store outcome (.deliver run signal) (.updateRun (run.resumed signal)) .load
  | load (held : store.run = some run) (enters : w.enter run = .goes next) :
      Goes w store outcome .load .getRun next
  | starts (taken : store.Takes outcome (.updateRun run)) :
      Goes w store outcome (.starts run pending) (.updateRun run) (w.next run pending)
  | absent (missing : store.steps[run.currentStep]? = none) :
      Goes w store outcome (.fetch run pending) (.getStep run.currentStep) (.create run pending)
  | passes (held : store.steps[run.currentStep]? = some step) (done : step.status = .completed) :
      Goes w store outcome (.fetch run pending) (.getStep run.currentStep)
        (.skip run.stepped pending)
  | found (held : store.steps[run.currentStep]? = some step) (left : step.status ≠ .completed) :
      Goes w store outcome (.fetch run pending) (.getStep run.currentStep)
        (.mark run step pending)
  | create (taken : store.Takes outcome (.createStep (w.newStep run))) :
      Goes w store outcome (.create run pending) (.createStep (w.newStep run))
        (.mark run (w.newStep run) pending)
  | skip (taken : store.Takes outcome (.updateRun run)) :
      Goes w store outcome (.skip run pending) (.updateRun run) (w.next run pending)
  | mark (taken : store.Takes outcome (.updateStep { step with status := .running })) :
      Goes w store outcome (.mark run step signal) (.updateStep { step with status := .running })
        (.invoke run { step with status := .running } signal)
  | unmarked (error : StoreError) :
      Goes w store outcome (.mark run step signal) (.updateStep { step with status := .running })
        (.abort (run.aborted error.message))
  | retry (taken : store.Takes outcome (.updateStep step))
      (retries : w.retryPolicy.shouldRetry step.attempt = true) :
      Goes w store outcome (.fails run step) (.updateStep step) (.mark run step none)
  | spent : Goes w store outcome (.fails run step) (.updateStep step)
      (.abort (run.aborted step.error))
  | lost (error : StoreError) :
      Goes w store outcome (.fails run step) (.updateStep step)
        (.abort (run.aborted error.message))
  | complete (taken : store.Takes outcome (.updateStep step)) :
      Goes w store outcome (.complete run step) (.updateStep step) (.progress run.stepped)
  | progress (taken : store.Takes outcome (.updateRun run)) :
      Goes w store outcome (.progress run) (.updateRun run) (w.next run none)
  | abort (taken : store.Takes outcome (.updateRun run)) :
      Goes w store outcome (.abort run) (.updateRun run) (.list run)
  | list : Goes w store outcome (.list run) .listSteps (w.rollback run store.listSteps.reverse)
  | blames (taken : store.Takes outcome (.updateRun run)) :
      Goes w store outcome (.checkpoint run step rest (.error cause)) (.updateRun run)
        (.note { step with error := cause })
  | checkpoint (taken : store.Takes outcome (.updateRun run)) :
      Goes w store outcome (.checkpoint run step rest (.ok result)) (.updateRun run)
        (.undone run step rest)
  | undone (taken : store.Takes outcome
        (.updateStep { step with status := .compensated, error := "" })) :
      Goes w store outcome (.undone run step rest)
        (.updateStep { step with status := .compensated, error := "" }) (w.rollback run rest)

variable {now : ℤ}

lemma Driver.goes_of_resume {w : Definition} {store : Store} {outcome : Outcome}
    {driver next : Driver} {command : Command} (commands : driver.command w now = some command)
    (goes : driver.resume w (store.execute outcome command).reply = .goes next) :
    driver.Goes w store outcome command next := by
  cases driver with
  | deliver | starts | create | skip | complete | progress | abort | undone =>
    cases commands
    obtain ⟨taken, reply⟩ := write_goes (fun _ => rfl) goes
    rw [Store.execute, reply] at goes
    cases goes
    constructor
    exact taken
  | load =>
    cases commands
    rcases outcome with _ | cause | cause
    · rcases held : store.run with _ | run
      · simp [Store.execute, Store.read, Store.getRun, held, Driver.resume] at goes
      · exact .load held
          (by simpa [Store.execute, Store.read, Store.getRun, held, Driver.resume] using goes)
    · simp [Store.execute, Store.read, Driver.resume] at goes
    · simp [Store.execute, Store.read, Driver.resume] at goes
  | fetch run pending =>
    cases commands
    rcases outcome with _ | cause | cause
    · rcases held : store.steps[run.currentStep]? with _ | step <;>
        simp only [Store.execute, Store.read, Store.getStep, held, Driver.resume] at goes
      · cases goes
        exact .absent held
      · split_ifs at goes with done <;> cases goes
        · exact .passes held done
        · exact .found held done
    · simp [Store.execute, Store.read, Driver.resume] at goes
    · simp [Store.execute, Store.read, Driver.resume] at goes
  | mark run step signal =>
    cases commands
    obtain ⟨-, -, error, reply⟩ | ⟨store', updated, written, -, reply | ⟨error, reply⟩⟩ :=
      Store.write_cases outcome (store.updateStep { step with status := .running }) store <;>
      rw [Store.execute, reply] at goes <;> cases goes
    · exact .unmarked error
    · exact .mark (updated.trans (congrArg Except.ok written.symm))
    · exact .unmarked error
  | fails run step =>
    cases commands
    obtain ⟨-, -, error, reply⟩ | ⟨store', updated, written, -, reply | ⟨error, reply⟩⟩ :=
      Store.write_cases outcome (store.updateStep step) store <;>
      rw [Store.execute, reply] at goes
    · cases goes
      exact .lost error
    · simp only [Driver.resume] at goes
      split_ifs at goes with retries <;> cases goes
      · exact .retry (updated.trans (congrArg Except.ok written.symm)) retries
      · exact .spent
    · cases goes
      exact .lost error
  | list run =>
    cases commands
    rcases outcome with _ | cause | cause
    · cases goes
      exact .list
    · simp [Store.execute, Store.read, Driver.resume] at goes
    · simp [Store.execute, Store.read, Driver.resume] at goes
  | checkpoint run step rest result =>
    cases commands
    obtain ⟨taken, reply⟩ := write_goes (fun _ => rfl) goes
    rw [Store.execute, reply] at goes
    rcases result with cause | result
    · cases goes
      exact .blames taken
    · simp only [Driver.resume] at goes
      split_ifs at goes
      cases goes
      exact .checkpoint taken
  | suspend | fail | finish =>
    cases commands
    obtain ⟨-, reply⟩ := write_goes (fun _ => rfl) goes
    rw [Store.execute, reply] at goes
    simp [Driver.resume] at goes
  | note step => simp [Driver.resume] at goes
  | invoke | undo => simp [Driver.command] at commands

/-- The positions before a write of the run, and the run that is written. -/
inductive Driver.Writes : Driver → Run → Prop where
  | deliver : Writes (.deliver run signal) (run.resumed signal)
  | starts : Writes (.starts run pending) run
  | skip : Writes (.skip run pending) run
  | progress : Writes (.progress run) run
  | suspend : Writes (.suspend run directive) (run.suspendedOn directive)
  | abort : Writes (.abort run) run
  | checkpoint : Writes (.checkpoint run step rest result) run
  | fail : Writes (.fail run) run
  | finish : Writes (.finish run) run

variable {driver : Driver}

lemma Driver.writes_of_command {w : Definition} {command : Command} {run : Run}
    (commands : driver.command w now = some command) (writes : command.written = some run)
    : driver.Writes run := by
  cases driver with
  | deliver | starts | skip | progress | suspend | abort | checkpoint | fail | finish =>
    cases commands
    cases writes
    constructor
  | load | fetch | create | mark | fails | complete | list | note | undone =>
    cases commands
    simp [Command.written] at writes
  | invoke | undo => simp [Driver.command] at commands

/-! ## What is known at each position -/

section Known

variable (w : Definition) (store : Store)

/-- The run is under way; the status in memory is the stored one. -/
def Forward (run : Run) : Prop :=
  ∃ row, store.run = some row ∧ row.status = run.status ∧
    (run.status = .running ∨ run.status = .suspended)

/-- The run is rolled back. -/
def Backward (run : Run) : Prop :=
  run.status = .compensating ∧ ∃ row, store.run = some row ∧ row.status = .compensating

/-- The step in memory is the stored one, as far as its status and attempts go. -/
def Holds (step : Step) : Prop :=
  ∃ row, store.steps[step.stepIndex]? = some row ∧ row.status = step.status ∧
    row.attempt = step.attempt

/-- No completed step is left that has a rollback. -/
def RolledBack : Prop :=
  ∀ (i : ℕ) (row : Step), store.steps[i]? = some row → row.status = .completed →
    w.compensates i = false

/-- Rows from the last to the first, among them every completed step that still has to be
rolled back. -/
structure Remaining (steps : List Step) : Prop where
  stored : ∀ step ∈ steps, store.steps[step.stepIndex]? = some step
  descending : steps.Pairwise fun later earlier => earlier.stepIndex < later.stepIndex
  complete : ∀ (i : ℕ) (row : Step), store.steps[i]? = some row → row.status = .completed →
    w.compensates i = true → row ∈ steps

/-- What the driver knows of the store. -/
def Driver.Knows : Driver → Prop
  | deliver _ _ => True
  | load => True
  | starts run _ => run.status = .running ∧ ∃ row, store.run = some row ∧ row.status = .pending
  | fetch run _ => Forward store run
  | create run _ => Forward store run
  | skip run _ => Forward store run
  | mark run step _ => Forward store run ∧ step.stepIndex = run.currentStep ∧ Holds store step
  | invoke run step _ => Forward store run ∧ step.stepIndex = run.currentStep ∧
      Holds store step ∧ step.status = .running
  | fails run step => Forward store run ∧ step.stepIndex = run.currentStep ∧
      step.status = .failed ∧ ∃ row, store.steps[step.stepIndex]? = some row ∧
        row.status = .running ∧ row.attempt + 1 = step.attempt
  | complete run step => Forward store run ∧ step.stepIndex = run.currentStep ∧
      step.status = .completed ∧ ∃ row, store.steps[step.stepIndex]? = some row ∧
        row.status = .running ∧ row.attempt = step.attempt
  | progress run => Forward store run
  | suspend run _ => Forward store run
  | abort run => run.status = .compensating ∧ ∃ row, store.run = some row ∧
      (row.status = .running ∨ row.status = .suspended)
  | list run => Backward store run
  | undo run step rest => Backward store run ∧ Remaining w store (step :: rest) ∧
      step.status = .completed
  | checkpoint run step rest _ => Backward store run ∧ Remaining w store (step :: rest) ∧
      step.status = .completed
  | note step => (∃ row, store.run = some row ∧ row.status = .compensating) ∧ Holds store step ∧
      step.status = .completed
  | undone run step rest => Backward store run ∧ Remaining w store (step :: rest) ∧
      step.status = .completed
  | fail run => run.status = .failed ∧
      (∃ row, store.run = some row ∧ row.status = .compensating) ∧ RolledBack w store
  | finish run => run.status = .completed ∧ ∃ row, store.run = some row ∧
      (row.status = .running ∨ row.status = .suspended)

end Known

variable {w : Definition} {store : Store} {run : Run} {step : Step} {outcome : Outcome}
  {move : Move}

/-- A driver that is not `Deliver` before its write, nor `advance` before its read, works on
a run that is not terminal. -/
lemma Driver.Knows.live (knows : driver.Knows w store)
    (notDeliver : ∀ run signal, driver ≠ .deliver run signal) (notLoad : driver ≠ .load) :
    ∃ row, store.run = some row ∧ isTerminal row.status = false := by
  have forward : ∀ {run}, Forward store run →
      ∃ row, store.run = some row ∧ isTerminal row.status = false := by
    rintro run ⟨row, held, same, live⟩
    exact ⟨row, held, by rw [same]; rcases live with h | h <;> rw [h] <;> rfl⟩
  have backward : (∃ row, store.run = some row ∧ row.status = .compensating) →
      ∃ row, store.run = some row ∧ isTerminal row.status = false := by
    rintro ⟨row, held, status⟩
    exact ⟨row, held, by rw [status]; rfl⟩
  have underWay : (∃ row, store.run = some row ∧
      (row.status = .running ∨ row.status = .suspended)) →
      ∃ row, store.run = some row ∧ isTerminal row.status = false := by
    rintro ⟨row, held, live⟩
    exact ⟨row, held, by rcases live with h | h <;> rw [h] <;> rfl⟩
  cases driver with
  | deliver run signal => exact absurd rfl (notDeliver run signal)
  | load => exact absurd rfl notLoad
  | starts run pending =>
    obtain ⟨-, row, held, status⟩ := knows
    exact ⟨row, held, by rw [status]; rfl⟩
  | fetch | create | skip | progress | suspend => exact forward knows
  | mark | invoke | fails | complete => exact forward knows.1
  | abort | finish => exact underWay knows.2
  | list => exact backward knows.2
  | undo | checkpoint | undone => exact backward knows.1.2
  | note => exact backward knows.1
  | fail => exact backward knows.2.1

/-! ## What the next call makes known -/

variable {store' : Store}

/-- After a write of the run that succeeds, its status in memory is the stored one. -/
lemma updateRun_known (updated : store.updateRun run = .ok store') :
    store'.steps = store.steps ∧ ∃ row, store'.run = some row ∧ row.status = run.status := by
  obtain ⟨current, -, -, rfl⟩ := Store.updateRun_ok updated
  exact ⟨rfl, _, rfl, rfl⟩

section

variable (forward : Forward store run)
include forward

lemma Forward.updateRun (updated : store.updateRun run = .ok store') : Forward store' run := by
  obtain ⟨-, row, held, status⟩ := updateRun_known updated
  obtain ⟨-, -, -, live⟩ := forward
  exact ⟨row, held, status, live⟩

lemma Forward.stepped : Forward store run.stepped := forward

lemma Forward.abort (cause : String) :
    (Driver.abort (run.aborted cause)).Knows w store := by
  obtain ⟨row, held, same, live⟩ := forward
  exact ⟨rfl, row, held, by rw [same]; exact live⟩

lemma Forward.next (pending : Option Signal) :
    (w.next run pending).Knows w store := by
  unfold Definition.next
  split_ifs
  · exact forward
  · obtain ⟨row, held, same, live⟩ := forward
    exact ⟨rfl, row, held, by rw [same]; exact live⟩

end

/-- What `advance` knows of the run that it has read. -/
lemma enter_knows (held : store.run = some run) {next : Driver}
    (enters : w.enter run = .goes next) : next.Knows w store := by
  unfold Definition.enter at enters
  split_ifs at enters with terminal compensating pending <;> cases enters
  · exact ⟨compensating, run, held, compensating⟩
  · exact ⟨rfl, run, held, pending⟩
  · have live : run.status = .running ∨ run.status = .suspended := by
      cases status : run.status <;> simp_all [isTerminal]
    have forward : Forward store run.consumed := ⟨run, held, rfl, live⟩
    exact forward.next _

/-- The rows that are listed, from the last to the first. -/
lemma listSteps_remaining (w : Definition) (keyed : store.Keyed) :
    Remaining w store store.listSteps.reverse := by
  have pairs : ∀ entry ∈ store.steps.toList, store.steps[entry.1]? = some entry.2 := by
    intro entry mem
    exact ExtTreeMap.mem_toList_iff_getElem?_eq_some.mp mem
  have ordered : store.steps.toList.Pairwise fun a b => a.1 < b.1 := by
    refine ExtTreeMap.ordered_keys_toList.imp ?_
    intro a b lt
    exact compare_lt_iff_lt.mp lt
  refine ⟨?_, ?_, ?_⟩
  · intro step mem
    simp only [Store.listSteps, List.mem_reverse, List.mem_map] at mem
    obtain ⟨entry, inside, rfl⟩ := mem
    rw [keyed _ _ (pairs entry inside)]
    exact pairs entry inside
  · rw [Store.listSteps, List.pairwise_reverse, List.pairwise_map]
    refine ordered.imp_of_mem ?_
    intro a b memberA memberB lt
    rwa [keyed _ _ (pairs a memberA), keyed _ _ (pairs b memberB)]
  · intro i row held _ _
    simp only [Store.listSteps, List.mem_reverse, List.mem_map]
    exact ⟨(i, row), ExtTreeMap.mem_toList_iff_getElem?_eq_some.mpr held, rfl⟩

/-- Where the loop of `resumeCompensation` stops, the step is completed, and nothing after it
has to be rolled back. -/
lemma rollback_knows (keyed : store.Keyed) (backward : Backward store run) {steps : List Step}
    (remaining : Remaining w store steps) : (w.rollback run steps).Knows w store := by
  induction steps with
  | nil =>
    refine ⟨rfl, backward.2, ?_⟩
    intro i row held completed
    by_contra compensates
    simpa using remaining.complete i row held completed (by simpa using compensates)
  | cons step rest ih =>
    unfold Definition.rollback
    split_ifs with here
    · exact ⟨backward, remaining, here.1⟩
    · refine ih ⟨fun st mem => remaining.stored st (by simp [mem]),
        remaining.descending.of_cons, ?_⟩
      intro i row held completed compensates
      have mem := remaining.complete i row held completed compensates
      rcases List.mem_cons.mp mem with rfl | later
      · rw [← keyed _ _ held] at compensates
        exact absurd ⟨completed, compensates⟩ here
      · exact later

/-- The rollback of a step is stored: the steps before it remain. -/
lemma Remaining.undone (keyed : store.Keyed) {rest : List Step} {current : Step}
    (remaining : Remaining w store (step :: rest)) :
    Remaining w
      { store with
        steps := store.steps.insert step.stepIndex
          (current.overwrite { step with status := .compensated, error := "" }) } rest := by
  refine ⟨?_, remaining.descending.of_cons, ?_⟩
  · intro st mem
    have lower := (List.pairwise_cons.mp remaining.descending).1 st mem
    rw [ExtTreeMap.getElem?_insert, if_neg]
    · exact remaining.stored st (by simp [mem])
    · intro same
      exact absurd (compare_eq_iff_eq.mp same) (by omega)
  · intro i row stored completed compensates
    rw [ExtTreeMap.getElem?_insert] at stored
    split_ifs at stored with same
    · cases stored
      simp [Step.overwrite] at completed
    · rcases List.mem_cons.mp (remaining.complete i row stored completed compensates) with
        rfl | later
      · exact absurd (compare_eq_iff_eq.mpr (keyed _ _ stored)) same
      · exact later

/-- A step that is written is the stored one. -/
lemma updateStep_holds (updated : store.updateStep step = .ok store') :
    store'.run = store.run ∧ Holds store' step := by
  obtain ⟨current, -, -, rfl⟩ := Store.updateStep_ok updated
  exact ⟨rfl, _, ExtTreeMap.getElem?_insert_self, rfl, rfl⟩

lemma Forward.of_run (forward : Forward store run) (same : store'.run = store.run)
    : Forward store' run := by
  obtain ⟨row, held, rest⟩ := forward
  exact ⟨row, by rw [same, held], rest⟩

lemma Backward.of_run (backward : Backward store run) (same : store'.run = store.run)
    : Backward store' run := by
  obtain ⟨status, row, held, rest⟩ := backward
  exact ⟨status, row, by rw [same, held], rest⟩

lemma Remaining.of_steps {steps : List Step} (remaining : Remaining w store steps)
    (same : store'.steps = store.steps) :
    Remaining w store' steps :=
  ⟨by rw [same]; exact remaining.stored, remaining.descending,
    by rw [same]; exact remaining.complete⟩

/-- A write of a step leaves the run. -/
lemma updateStep_run (outcome : Outcome) (step : Step) :
    (store.execute outcome (.updateStep step)).store.run = store.run := by
  obtain same | ⟨run, -, writes, -⟩ := Store.execute_run outcome (.updateStep step) store
  · exact same
  · simp [Command.written] at writes

/-- **The next call keeps what is known.** -/
lemma Driver.Knows.drive {driver next : Driver} {command : Command}
    (knows : driver.Knows w store) (keyed : store.Keyed)
    (commands : driver.command w now = some command)
    (goes : driver.resume w (store.execute outcome command).reply = .goes next) :
    next.Knows w (store.execute outcome command).store := by
  have keyed' := keyed.execute outcome command
  cases Driver.goes_of_resume commands goes with
  | deliver => trivial
  | load held enters =>
    rw [Store.execute, Store.read_store]
    exact enter_knows held enters
  | starts taken =>
    obtain ⟨-, row, held, status⟩ := updateRun_known taken
    exact Forward.next ⟨row, held, status, .inl knows.1⟩ _
  | absent =>
    rw [Store.execute, Store.read_store]
    exact knows
  | passes =>
    rw [Store.execute, Store.read_store]
    exact Forward.stepped knows
  | found held =>
    have index := keyed _ _ held
    rw [Store.execute, Store.read_store]
    exact ⟨knows, index, _, by rw [index]; exact held, rfl, rfl⟩
  | create taken =>
    obtain ⟨-, after⟩ := Store.createStep_ok taken
    rw [after]
    exact ⟨Forward.of_run knows rfl, rfl, _, ExtTreeMap.getElem?_insert_self, rfl, rfl⟩
  | skip taken | progress taken => exact (Forward.updateRun knows taken).next _
  | mark taken =>
    obtain ⟨run, stored⟩ := updateStep_holds taken
    exact ⟨knows.1.of_run run, knows.2.1, stored, rfl⟩
  | unmarked | spent | lost => exact (knows.1.of_run (updateStep_run _ _)).abort _
  | retry taken =>
    obtain ⟨run, stored⟩ := updateStep_holds taken
    exact ⟨knows.1.of_run run, knows.2.1, stored⟩
  | complete => exact Forward.of_run (Forward.stepped knows.1) (updateStep_run _ _)
  | abort taken =>
    obtain ⟨-, row, held, status⟩ := updateRun_known taken
    exact ⟨knows.1, row, held, status.trans knows.1⟩
  | list =>
    rw [Store.execute, Store.read_store]
    exact rollback_knows keyed knows (listSteps_remaining w keyed)
  | blames taken =>
    obtain ⟨backward, remaining, completed⟩ := knows
    obtain ⟨steps, row, held, status⟩ := updateRun_known taken
    have stored := (remaining.of_steps steps).stored _ (.head _)
    exact ⟨⟨row, held, status.trans backward.1⟩, ⟨_, stored, rfl, rfl⟩, completed⟩
  | checkpoint taken =>
    obtain ⟨backward, remaining, completed⟩ := knows
    obtain ⟨steps, row, held, status⟩ := updateRun_known taken
    exact ⟨⟨backward.1, row, held, status.trans backward.1⟩, remaining.of_steps steps, completed⟩
  | undone taken =>
    obtain ⟨backward, remaining, completed⟩ := knows
    obtain ⟨current, -, -, after⟩ := Store.updateStep_ok taken
    rw [after] at keyed' ⊢
    exact rollback_knows keyed' (backward.of_run rfl) (remaining.undone keyed)

/-- A function that returns changes nothing in the store. -/
lemma Driver.Knows.returned {driver next : Driver} {edits : List Edit}
    {result : Except String StepResult} (knows : driver.Knows w store)
    (returns : driver.returned edits result = some next) : next.Knows w store := by
  cases driver with
  | invoke run step signal =>
    obtain ⟨forward, index, ⟨row, held, status, attempt⟩, running⟩ := knows
    rcases result with cause | result
    · cases returns
      exact ⟨forward, index, rfl, row, held, status.trans running, by simp [attempt]⟩
    · simp only [Driver.returned] at returns
      split at returns <;> cases returns
      · exact forward
      · exact ⟨forward, index, rfl, row, held, status.trans running, attempt⟩
  | undo run step rest =>
    cases returns
    exact knows
  | _ => simp [Driver.returned] at returns

/-! ## The invariant -/

/-- What holds in every state of every run. -/
structure Saga (w : Definition) (s : System) : Prop where
  keyed : s.store.Keyed
  failed : ∀ run, s.store.run = some run → run.status = .failed → RolledBack w s.store
  knows : ∀ driver tag, s.driver = some (driver, tag) → driver.Knows w s.store

/-- Only the end of a rollback writes a failed run. -/
lemma Driver.Knows.rolledBack {command : Command} (knows : driver.Knows w store)
    (commands : driver.command w now = some command) (writes : command.written = some run)
    (failed : run.status = .failed) :
    RolledBack w store := by
  have notForward : ¬ Forward store run := by
    rintro ⟨-, -, -, live⟩
    simp [failed] at live
  have notBackward : ¬ Backward store run := by
    rintro ⟨status, -⟩
    simp [failed] at status
  cases Driver.writes_of_command commands writes with
  | fail => exact knows.2.2
  | deliver => simp [Run.resumed] at failed
  | suspend => simp [Run.suspendedOn] at failed
  | starts | abort | finish => simp [knows.1] at failed
  | skip | progress => exact absurd knows notForward
  | checkpoint => exact absurd knows.1 notBackward

/-- The commands of a driver that may find a terminal run: `Deliver` tries to write a
running one, and `advance` reads. -/
lemma Driver.Knows.terminal {command : Command} {row : Run} (knows : driver.Knows w store)
    (commands : driver.command w now = some command) (held : store.run = some row)
    (terminal : isTerminal row.status = true) :
    (store.execute outcome command).store = store := by
  have dead : ¬ ∃ row, store.run = some row ∧ isTerminal row.status = false := by
    rintro ⟨row', held', live⟩
    cases held.symm.trans held'
    simp [terminal] at live
  cases driver with
  | deliver run signal =>
    cases commands
    obtain ⟨same, -⟩ | ⟨store', updated, -, -⟩ :=
      Store.write_cases outcome (store.updateRun (run.resumed signal)) store
    · exact same
    · obtain ⟨current, held', steps, -⟩ := Store.updateRun_ok updated
      cases held.symm.trans held'
      have status := steps.eq_of_isTerminal terminal
      rw [← status] at terminal
      simp [Run.resumed, isTerminal] at terminal
  | load =>
    cases commands
    simp [Store.execute]
  | _ => exact absurd (knows.live (by simp) (by simp)) dead

/-- A terminal run is not changed, nor are its steps. -/
lemma Saga.terminal {s s' : System} (saga : Saga w s) (happens : s.Happens w move s') {row : Run}
    (held : s.store.run = some row) (terminal : isTerminal row.status = true) :
    s'.store.run = s.store.run ∧ s'.store.steps = s.store.steps := by
  cases happens with
  | passes new run steps => exact ⟨run, steps⟩
  | created absent => simp [absent] at held
  | driven driver tag command outcome holds commands store =>
    rw [store, (saga.knows driver tag holds).terminal commands held terminal]
    exact ⟨rfl, rfl⟩

lemma Saga.initial (now : ℤ) : Saga w (.initial now) where
  keyed i row held := by simp [System.initial] at held
  failed run held := by simp [System.initial] at held
  knows driver tag held := by simp [System.initial] at held

/-- What is known depends on the rows only. -/
lemma Driver.Knows.of_rows (knows : driver.Knows w store) (run : store'.run = store.run)
    (steps : store'.steps = store.steps) :
    driver.Knows w store' := by
  have remaining : ∀ rows, Remaining w store' rows ↔ Remaining w store rows :=
    fun rows => ⟨fun r => r.of_steps steps.symm, fun r => r.of_steps steps⟩
  cases driver with
  | deliver | load => trivial
  | _ =>
    simpa only [Driver.Knows, Forward, Backward, Holds, RolledBack, run, steps, remaining]
      using knows

/-- **One move keeps the invariant.** -/
lemma Saga.kept {s s' : System} (saga : Saga w s) (happens : s.Happens w move s') : Saga w s' := by
  obtain ⟨keyed, failed, knows⟩ := saga
  cases happens with
  | passes new run steps log passes =>
    refine ⟨?_, ?_, ?_⟩
    · intro i row held
      exact keyed i row (by rw [← steps, held])
    · intro run' held status i row
      rw [steps]
      exact failed run' (by rw [← run, held]) status i row
    · intro d tag held
      cases passes with
      | quiet driver | found i driver =>
        exact (knows d tag (by rw [← driver, held])).of_rows run steps
      | stopped driver => simp [driver] at held
      | locked free next tag' driver starts =>
        cases driver.symm.trans held
        rcases starts with rfl | ⟨run, signal, -, rfl⟩ <;> trivial
      | returned driver next tag' edits result holds returns driver' =>
        cases driver'.symm.trans held
        exact ((knows driver tag holds).returned returns).of_rows run steps
  | created absent request run steps driver =>
    refine ⟨?_, ?_, ?_⟩
    · intro i row held
      exact keyed i row (by rw [← steps, held])
    · intro run' held status
      cases run.symm.trans held
      simp [Request.created, Request.run] at status
    · intro d tag held
      have known := knows d tag (by rw [← driver, held])
      -- Whoever knows anything knows that the run is there.
      by_cases deliver : ∃ run signal, d = .deliver run signal
      · obtain ⟨run, signal, rfl⟩ := deliver
        trivial
      · by_cases load : d = .load
        · subst load
          trivial
        · obtain ⟨row, present, -⟩ := known.live
            (fun run signal same => deliver ⟨run, signal, same⟩) load
          simp [absent] at present
  | driven driver tag command outcome holds commands store log turns =>
    have known := knows driver tag holds
    refine ⟨?_, ?_, ?_⟩
    · rw [store]
      exact keyed.execute outcome command
    · intro run held status
      by_cases before : ∃ row, s.store.run = some row ∧ isTerminal row.status = true
      · obtain ⟨row, present, terminal⟩ := before
        rw [store, known.terminal commands present terminal] at held ⊢
        exact failed run held status
      · rw [store] at held ⊢
        obtain same | ⟨run', current, writes, present, -, written⟩ :=
          Store.execute_run outcome command s.store
        · rw [same] at held
          exact absurd ⟨run, held, by rw [status]; rfl⟩ before
        · cases written.symm.trans held
          have rolledBack := known.rolledBack commands writes status
          obtain same | ⟨step, rfl, -⟩ | ⟨step, current, rfl, -⟩ :=
            Store.execute_steps outcome command s.store
          · unfold RolledBack
            rw [same]
            exact rolledBack
          · simp [Command.written] at writes
          · simp [Command.written] at writes
    · intro d tag' held
      rw [store]
      exact known.drive keyed commands ((turns d tag').mp held).1

/-- The invariant holds in every state of every run. -/
lemma saga_of_reaches {admits : System → Move → Prop} {s : System}
    (reached : (life w).Reaches admits s) : Saga w s := by
  refine reached.invariant (Saga w) ?_ ?_
  · rintro s ⟨now, rfl⟩
    exact Saga.initial now
  · intro s move s' saga _ stepped
    exact saga.kept (System.happens_of_act stepped)

/-! ## The order of the steps -/

namespace System

/-- The function of a step runs. -/
def Invokes (s : System) (i : ℕ) : Prop :=
  ∃ run step signal tag, s.driver = some (.invoke run step signal, tag) ∧ run.currentStep = i

/-- The compensation of a step runs. -/
def Undoes (s : System) (i : ℕ) : Prop :=
  ∃ run step rest tag, s.driver = some (.undo run step rest, tag) ∧ step.stepIndex = i

/-- The stored status of a step. -/
def StepIs (s : System) (i : ℕ) (status : StepStatus) : Prop :=
  ∃ row, s.store.steps[i]? = some row ∧ row.status = status

/-- The stored status of the run. -/
def RunIs (s : System) (status : RunStatus) : Prop :=
  ∃ row, s.store.run = some row ∧ row.status = status

variable {s s' : System} {i : ℕ} {status : StepStatus}

lemma StepIs.unique {status' : StepStatus} (is : s.StepIs i status) (is' : s.StepIs i status') :
    status = status' := by
  obtain ⟨row, held, rfl⟩ := is
  obtain ⟨row', held', rfl⟩ := is'
  rw [held] at held'
  rw [Option.some.inj held']

lemma RunIs.unique {status status' : RunStatus} (is : s.RunIs status) (is' : s.RunIs status') :
    status = status' := by
  obtain ⟨row, held, rfl⟩ := is
  obtain ⟨row', held', rfl⟩ := is'
  rw [held] at held'
  rw [Option.some.inj held']

/-- The status of a step only makes steps. -/
lemma Happens.stepIs (happens : s.Happens w move s') (is : s.StepIs i status) :
    ∃ status', s'.StepIs i status' ∧ status.Steps status' := by
  obtain ⟨row, held, rfl⟩ := is
  cases happens with
  | passes new run steps | created absent request run steps =>
    exact ⟨_, ⟨row, by rw [steps, held], rfl⟩, .inl rfl⟩
  | driven driver tag command outcome holds commands store =>
    obtain ⟨row', held', steps⟩ := Store.execute_row outcome command held
    exact ⟨_, ⟨row', by rw [store, held'], rfl⟩, steps⟩

/-- The status of the run only makes steps. -/
lemma Happens.runIs {status : RunStatus} (happens : s.Happens w move s') (is : s.RunIs status) :
    ∃ status', s'.RunIs status' ∧ status.Steps status' := by
  obtain ⟨row, held, rfl⟩ := is
  have same : s'.store.run = s.store.run →
      ∃ status', s'.RunIs status' ∧ row.status.Steps status' := by
    intro run
    exact ⟨_, ⟨row, by rw [run, held], rfl⟩, .inl rfl⟩
  cases happens with
  | passes new run => exact same run
  | created absent => simp [absent] at held
  | driven driver tag command outcome holds commands store =>
    obtain kept | ⟨run, current, -, present, steps, written⟩ :=
      Store.execute_run outcome command s.store
    · exact same (by rw [store, kept])
    · cases held.symm.trans present
      exact ⟨_, ⟨row.overwrite run, by rw [store, written], rfl⟩, steps⟩

end System

section Order

variable {s s' : System} {admits : System → Move → Prop} {i : ℕ}

/-- While the function of a step runs, its row says so and the run is under way. -/
lemma Saga.invokes (saga : Saga w s) (invokes : s.Invokes i) :
    s.StepIs i .running ∧ (s.RunIs .running ∨ s.RunIs .suspended) := by
  obtain ⟨run, step, signal, tag, held, rfl⟩ := invokes
  obtain ⟨⟨row, present, same, live⟩, index, ⟨stored, at_, status, -⟩, running⟩ :=
    saga.knows _ _ held
  refine ⟨⟨stored, by rw [← index, at_], status.trans running⟩, ?_⟩
  exact live.imp (fun h => ⟨row, present, same.trans h⟩) fun h => ⟨row, present, same.trans h⟩

/-- While the compensation of a step runs, the step is completed, every later one is rolled
back, and the run is compensating. -/
lemma Saga.undoes (saga : Saga w s) (undoes : s.Undoes i) :
    s.StepIs i .completed ∧ (∀ j, i < j → s.StepIs j .completed → w.compensates j = false) ∧
      s.RunIs .compensating := by
  obtain ⟨run, step, rest, tag, held, rfl⟩ := undoes
  obtain ⟨⟨-, row, present, compensating⟩, remaining, completed⟩ := saga.knows _ _ held
  refine ⟨⟨step, remaining.stored step (by simp), completed⟩, ?_, row, present, compensating⟩
  rintro j later ⟨row', stored, completed'⟩
  by_contra compensates
  have mem := remaining.complete j row' stored completed' (by simpa using compensates)
  have index := saga.keyed j row' stored
  rcases List.mem_cons.mp mem with rfl | before
  · omega
  · have := (List.pairwise_cons.mp remaining.descending).1 row' before
    omega

section

variable (reached : (life w).Reaches admits s)
include reached

section

variable (later : (life w).Later admits s s')
include later

/-- A completed step stays completed until it is rolled back. -/
lemma completed_later (completed : s.StepIs i .completed) :
    s'.StepIs i .completed ∨ s'.StepIs i .compensated := by
  refine later.keeps (fun t => t.StepIs i .completed ∨ t.StepIs i .compensated) ?_ reached
    (.inl completed)
  rintro t move t' - (is | is) - stepped <;>
    obtain ⟨status, is', steps⟩ := (System.happens_of_act stepped).stepIs is
  · rcases steps.of_completed with rfl | rfl
    · exact .inl is'
    · exact .inr is'
  · exact .inr (steps.of_compensated ▸ is')

/-- A step that is rolled back stays so. -/
lemma compensated_later (compensated : s.StepIs i .compensated) :
    s'.StepIs i .compensated := by
  refine later.keeps (fun t => t.StepIs i .compensated) ?_ reached compensated
  intro t move t' _ is _ stepped
  obtain ⟨status, is', steps⟩ := (System.happens_of_act stepped).stepIs is
  obtain rfl := steps.of_compensated
  exact is'

/-- A run that is rolled back goes on so until it has failed. -/
lemma compensating_later (compensating : s.RunIs .compensating) :
    s'.RunIs .compensating ∨ s'.RunIs .failed := by
  refine later.keeps (fun t => t.RunIs .compensating ∨ t.RunIs .failed) ?_ reached
    (.inl compensating)
  rintro t move t' - (is | is) - stepped <;>
    obtain ⟨status, is', steps⟩ := (System.happens_of_act stepped).runIs is
  · rcases steps.of_compensating with rfl | rfl
    · exact .inl is'
    · exact .inr is'
  · exact .inr (steps.eq_of_isTerminal rfl ▸ is')

/-- A terminal run stays as it is. -/
lemma terminal_later {row : Run}
    (held : s.store.run = some row) (terminal : isTerminal row.status = true)
    : s'.store.run = some row := by
  refine later.keeps (fun t => t.store.run = some row) ?_ reached held
  intro t move t' reached' held' _ stepped
  obtain ⟨run, -⟩ := (saga_of_reaches reached').terminal (System.happens_of_act stepped) held'
    terminal
  rw [run, held']

end

end

end Order

/-- **Saga order.**  In every run, with failing calls of the store, stops and interleaved
callers: a completed step is never invoked again; there is no forward step once the run is
compensating; the compensation of a step runs only while the step is completed and every
later completed step with a compensation is rolled back, and never again after that; the
run has failed only when every completed step with a compensation is rolled back; and a
terminal run never changes. -/
theorem saga_order (w : Definition) (s : System) (reached : (life w).Reaches (fun _ _ => True) s) :
    (∀ i, s.Undoes i → s.StepIs i .completed) ∧
    ∀ s', (life w).Later (fun _ _ => True) s s' → (∀ i, s.StepIs i .completed → ¬ s'.Invokes i) ∧
      (s.RunIs .compensating → ∀ i, ¬ s'.Invokes i) ∧
      (∀ i j, i < j → s'.Undoes i → w.compensates j = true → s.StepIs j .completed →
        s'.StepIs j .compensated) ∧
      (∀ i, s.StepIs i .compensated → ¬ s'.Undoes i) ∧
      (s'.RunIs .failed → ∀ i, w.compensates i = true → s.StepIs i .completed →
        s'.StepIs i .compensated) ∧
      ∀ row, s.store.run = some row → isTerminal row.status = true → s'.store.run = some row := by
  have saga := saga_of_reaches reached
  refine ⟨fun i undoes => (saga.undoes undoes).1, ?_⟩
  intro s' later
  have saga' := saga_of_reaches (reached.later later)
  refine ⟨?_, ?_, ?_, ?_, ?_, ?_⟩
  · intro i completed invokes
    obtain ⟨running, -⟩ := saga'.invokes invokes
    rcases completed_later reached later completed with is | is
    · simpa using running.unique is
    · simpa using running.unique is
  · intro compensating i invokes
    obtain ⟨-, live⟩ := saga'.invokes invokes
    rcases compensating_later reached later compensating with is | is <;>
      rcases live with is' | is' <;> simpa using is.unique is'
  · intro i j lt undoes compensates completed
    obtain ⟨-, done, -⟩ := saga'.undoes undoes
    refine (completed_later reached later completed).resolve_left fun still => ?_
    simp [done j lt still] at compensates
  · intro i compensated undoes
    obtain ⟨completed, -⟩ := saga'.undoes undoes
    simpa using completed.unique (compensated_later reached later compensated)
  · rintro ⟨row, held, failed⟩ i compensates completed
    refine (completed_later reached later completed).resolve_left fun still => ?_
    obtain ⟨step, stored, completed'⟩ := still
    simp [saga'.failed row held failed i step stored completed'] at compensates
  · intro row held terminal
    exact terminal_later reached later held terminal

/-- Two steps, the first with a compensation, and one attempt for each. -/
def copyThenSwitch : Definition := ⟨[⟨"copy", true⟩, ⟨"switch", false⟩], ⟨1⟩⟩

/-- The first step succeeds, the second one fails, and the rollback begins. -/
def rollbackMoves : List Move :=
  firstStepMoves ++ [succeeds] ++ List.replicate 5 (.drive .ok) ++
    [.returns [] (.error "refused")] ++ List.replicate 3 (.drive .ok)

def undoesFirst (s : System) : Bool :=
  match s.driver with
  | some (.undo _ step _, _) => step.stepIndex = 0
  | _ => false

/-- The order holds while the first step of two is rolled back. -/
theorem saga_order_rolling_back : ∃ s, (life copyThenSwitch).Reaches (fun _ _ => True) s ∧
    s.Undoes 0 ∧ s.StepIs 0 .completed := by
  obtain ⟨s, reached, passes⟩ := (enacted copyThenSwitch).reaches_any rollbackMoves (undoesFirst ·)
    (by decide +kernel)
  have undoes : s.Undoes 0 := by
    unfold undoesFirst at passes
    split at passes
    · rename_i run step rest tag held
      exact ⟨run, step, rest, tag, held, of_decide_eq_true passes⟩
    · simp at passes
  exact ⟨s, reached, undoes, (saga_order copyThenSwitch s reached).1 0 undoes⟩

end TechStack.Workflow
