import TechStack.Workflow.UnderWay

/-!
# The retry budget of a step

`runStepWithRetry` stores a failed attempt, and `failWithCompensation` stores that the
run is compensating, in two writes.  If the second one is lost, the next `advance` finds
a running run whose current step is not completed, and invokes it once more, whatever
its attempts are.

The second write is lost when it fails, when the process stops before it, and when the
store refuses it, because `advance` was entered on a suspended run, which may not
become a compensating one.  Without these three the budget holds: the stored attempts of
a step count the failures that were stored, and a step without attempts left is not
invoked.
-/

namespace TechStack.Workflow

open Option Store Driver

open Std (ExtTreeMap)

/-- The attempts that a policy gives to a step. -/
def Definition.budget (w : Definition) : ℕ := max 1 w.retryPolicy.maxAttempts.toNat

/-- The last attempt has failed. -/
def Exhausted (w : Definition) (row : Step) : Prop :=
  row.status = .failed ∧ w.budget ≤ row.attempt

variable {w : Definition} {store : Store} {outcome : Outcome} {command : Command} {now : ℤ}
  {s s' : System} {move : Move}

lemma lt_budget_of_shouldRetry {attempt : ℕ}
    (retry : w.retryPolicy.shouldRetry attempt = true) : attempt < w.budget := by
  unfold RetryPolicy.shouldRetry at retry
  split_ifs at retry with single
  have := of_decide_eq_true retry
  unfold Definition.budget
  omega

/-! ## How the row of a step changes -/

variable {driver : Driver}

lemma events_count_failed (now : ℤ) (done : Executed) (i : ℕ)
    (notFails : ∀ run step, driver ≠ .fails run step) :
    (driver.events now done).count (.failed i) = 0 := by
  obtain ⟨store, reply, wrote⟩ := done
  cases driver with
  | fails run step => exact absurd rfl (notFails run step)
  | _ => cases wrote <;> cases reply <;> rfl

/-- What the next call of a driver does to the row of one step, and how many stored failures
of that step it adds to the log. -/
inductive RowChange (driver : Driver) (now : ℤ) (store : Store) (done : Executed) (i : ℕ) :
    Prop where
  | same (rows : done.store.steps[i]? = store.steps[i]?)
      (count : (driver.events now done).count (.failed i) = 0)
  | created (row' : Step) (before : store.steps[i]? = none)
      (after : done.store.steps[i]? = some row') (status : row'.status = .pending)
      (attempt : row'.attempt = 0) (count : (driver.events now done).count (.failed i) = 0)
  | marked (row row' : Step) (is : ∃ run step signal, driver = .mark run step signal)
      (before : store.steps[i]? = some row)
      (after : done.store.steps[i]? = some row') (steps : row.status.Steps .running)
      (status : row'.status = .running) (attempt : row'.attempt = row.attempt)
      (count : (driver.events now done).count (.failed i) = 0)
  | failed (run : Run) (step row row' : Step) (is : driver = .fails run step)
      (before : store.steps[i]? = some row) (running : row.status = .running)
      (after : done.store.steps[i]? = some row') (status : row'.status = .failed)
      (attempt : row'.attempt = row.attempt + 1) (counted : row'.attempt = step.attempt)
      (count : (driver.events now done).count (.failed i) = 1)
  | left (row row' : Step) (before : store.steps[i]? = some row)
      (busy : row.status = .running ∨ row.status = .completed)
      (after : done.store.steps[i]? = some row') (status : row'.status ≠ .failed)
      (attempt : row'.attempt = row.attempt)
      (count : (driver.events now done).count (.failed i) = 0)

/-- A write of a step concerns the row with its index. -/
lemma updateStep_row {step : Step} {store' : Store}
    (updated : store.updateStep step = .ok store') (i : ℕ) :
    store'.steps[i]? = store.steps[i]? ∨
      i = step.stepIndex ∧ ∃ row, store.steps[i]? = some row ∧ row.status.Steps step.status ∧
        store'.steps[i]? = some (row.overwrite step) := by
  obtain ⟨row, before, steps, rfl⟩ := updateStep_ok updated
  by_cases same : i = step.stepIndex
  · subst same
    exact .inr ⟨rfl, row, before, steps, ExtTreeMap.getElem?_insert_self⟩
  · refine .inl ?_
    rw [ExtTreeMap.getElem?_insert, if_neg]
    intro eq
    exact same (compare_eq_iff_eq.mp eq).symm

/-- A command that does not write steps leaves them. -/
lemma rows_of_command (outcome : Outcome) (noCreate : ∀ step, command ≠ .createStep step)
    (noUpdate : ∀ step, command ≠ .updateStep step) (i : ℕ) :
    (store.execute outcome command).store.steps[i]? = store.steps[i]? := by
  obtain same | ⟨step, is, -⟩ | ⟨step, current, is, -⟩ :=
    execute_steps outcome command store
  · rw [same]
  · exact absurd is (noCreate step)
  · exact absurd is (noUpdate step)

lemma Driver.Knows.rowChange (knows : driver.Knows w store)
    (commands : driver.command w now = some command) (outcome : Outcome) (i : ℕ) :
    RowChange driver now store (store.execute outcome command) i := by
  -- A write of a step either has no effect or changes the one row.
  have update : ∀ {step : Step}, command = .updateStep step →
      (∀ run step, driver ≠ .fails run step) →
      (step.stepIndex = i → ∀ row, store.steps[i]? = some row → row.status.Steps step.status →
        (store.execute outcome command).store.steps[i]? = some (row.overwrite step) →
        RowChange driver now store (store.execute outcome command) i) →
      RowChange driver now store (store.execute outcome command) i := by
    rintro step rfl notFails change
    obtain ⟨same, -⟩ | ⟨store', updated, written, wrote, -⟩ :=
      write_cases outcome (store.updateStep step) store
    · exact .same (by rw [execute, same]) (events_count_failed now _ i notFails)
    · obtain rows | ⟨rfl, row, before, steps, after⟩ := updateStep_row updated i
      · exact .same (by rw [execute, written, rows]) (events_count_failed now _ i notFails)
      · exact change rfl row before steps (by rw [execute, written, after])
  cases driver with
  | mark run step signal =>
    refine update (some.inj commands).symm (by simp) ?_
    intro index row before steps after
    obtain ⟨-, -, row', held, -, attempt⟩ := knows
    rw [show step.stepIndex = i from index, before] at held
    obtain rfl := some.inj held
    exact .marked row _ ⟨run, step, signal, rfl⟩ before after steps rfl attempt.symm
      (events_count_failed now _ i (by simp))
  | fails run step =>
    obtain rfl := some.inj commands
    obtain ⟨-, atStep, status, row, held, running, attempt⟩ := knows
    obtain ⟨same, quiet, -⟩ | ⟨store', updated, written, wrote, -⟩ :=
      write_cases outcome (store.updateStep step) store
    · refine .same (by rw [execute, same]) ?_
      simp [events, execute, quiet]
    · have counted : (fails run step).events now
          (store.execute outcome (.updateStep step)) = [.failed run.currentStep] := by
        simp [events, execute, wrote]
      by_cases here : i = step.stepIndex
      · subst here
        obtain ⟨current, before, -, rfl⟩ := updateStep_ok updated
        rw [before] at held
        obtain rfl := some.inj held
        exact .failed run step current (current.overwrite step) rfl before running
          (by rw [execute, written, ExtTreeMap.getElem?_insert_self]) status
          attempt.symm rfl (by simp [counted, atStep])
      · obtain rows | ⟨is, -⟩ := updateStep_row updated i
        · refine .same (by rw [execute, written, rows]) ?_
          rw [counted, ← atStep]
          simp [Ne.symm here]
        · exact absurd is here
  | complete run step =>
    refine update (some.inj commands).symm (by simp) ?_
    intro index row before steps after
    obtain ⟨-, -, status, row', held, running, attempt⟩ := knows
    rw [index, before] at held
    cases held
    exact .left row _ before (.inl running) after (by simp [Step.overwrite, status])
      attempt.symm (events_count_failed now _ i (by simp))
  | note step =>
    refine update (some.inj commands).symm (by simp) ?_
    intro index row before steps after
    obtain ⟨-, ⟨row', held, same, attempt⟩, status⟩ := knows
    rw [index, before] at held
    cases held
    exact .left row _ before (.inr (same.trans status)) after
      (by simp [Step.overwrite, status]) attempt.symm (events_count_failed now _ i (by simp))
  | undone run step rest =>
    refine update (some.inj commands).symm (by simp) ?_
    intro index row before steps after
    obtain ⟨-, remaining, status⟩ := knows
    have held := remaining.stored step (by simp)
    rw [show step.stepIndex = i from index, before] at held
    obtain rfl := some.inj held
    exact .left row _ before (.inr status) after (by simp [Step.overwrite]) rfl
      (events_count_failed now _ i (by simp))
  | create run pending =>
    cases commands
    have count : ((create run pending).events now
        (store.execute outcome (.createStep (w.newStep run)))).count (.failed i) = 0 :=
      events_count_failed now _ i (by simp)
    obtain ⟨same, -⟩ | ⟨store', updated, written, -⟩ :=
      write_cases outcome (store.createStep (w.newStep run)) store
    · exact .same (by rw [execute, same]) count
    · obtain ⟨absent, rfl⟩ := createStep_ok updated
      by_cases here : i = (w.newStep run).stepIndex
      · subst here
        exact .created _ absent
          (by rw [execute, written, ExtTreeMap.getElem?_insert_self]) rfl rfl count
      · refine .same ?_ count
        rw [execute, written, ExtTreeMap.getElem?_insert, if_neg]
        intro eq
        exact here (compare_eq_iff_eq.mp eq).symm
  | invoke | undo => simp [Driver.command] at commands
  | _ =>
    cases commands
    exact .same (rows_of_command outcome (by simp) (by simp) i)
      (events_count_failed now _ i (by simp))

/-! ## The invariant -/

/-- The attempts that are stored for a step. -/
def Store.attempts (store : Store) (i : ℕ) : ℕ := ((store.steps[i]?).map Step.attempt).getD 0

/-- The attempts of a step grow with every failure that is stored, and with nothing else. -/
lemma RowChange.attempts {done : Executed} {i : ℕ} (change : RowChange driver now store done i) :
    done.store.attempts i = store.attempts i + (driver.events now done).count (.failed i) := by
  cases change with
  | same rows count => simp [Store.attempts, rows, count]
  | created row' before after status attempt count
  | marked row row' is before after steps status attempt count
  | failed run step row row' is before running after status attempt counted count
  | left row row' before busy after status attempt count =>
    simp [Store.attempts, before, after, attempt, count]

/-- A step whose last attempt has failed. -/
def System.Spent (w : Definition) (s : System) : Prop :=
  ∃ (i : ℕ) (row : Step), s.store.steps[i]? = some row ∧ Exhausted w row

/-- The write that switches the run to compensation is not lost: `advance` is not entered on a
suspended run, and after a last failure the write neither fails nor is cut off by a stop. -/
def SwitchStored (w : Definition) (s : System) (move : Move) : Prop :=
  EntersAwake s move ∧
  ∀ run tag, s.driver = some (.abort run, tag) → s.Spent w →
    move ≠ .stop ∧ ∀ cause, move ≠ .drive (.fails cause)

/-- The budget of every step is kept. -/
structure Budgeted (w : Definition) (s : System) : Prop where
  counts : ∀ i, s.log.count (.failed i) = s.store.attempts i
  rows : ∀ (i : ℕ) (row : Step), s.store.steps[i]? = some row →
    row.attempt < w.budget ∨ row.attempt = w.budget ∧ row.status = .failed
  spent : s.Spent w → (∃ run tag, s.driver = some (.abort run, tag)) ∨
    s.RunIs .compensating ∨ s.RunIs .failed
  invoked : ∀ i signal row, .invoked i signal row ∈ s.log → ¬ Exhausted w row

lemma one_le_budget : 1 ≤ w.budget := le_max_left ..

lemma Budgeted.initial (now : ℤ) : Budgeted w (.initial now) where
  counts i := by simp [System.initial, Store.attempts]
  rows i row held := by simp [System.initial] at held
  spent := by
    rintro ⟨i, row, held, -⟩
    simp [System.initial] at held
  invoked i signal row mem := by simp [System.initial] at mem

/-- While a run is under way no step has used up its attempts, except before the switch to
compensation. -/
lemma Budgeted.not_spent (budgeted : Budgeted w s) (runs : UnderWay s) {tag : Option ℕ}
    (held : s.driver = some (driver, tag)) (underWay : driver.underWay = true)
    (notAbort : ∀ run, driver ≠ .abort run) : ¬ s.Spent w := by
  intro spent
  have running := runs driver tag held underWay
  rcases budgeted.spent spent with ⟨run, tag', held'⟩ | compensating | failed
  · rw [held] at held'
    exact notAbort run (Prod.mk.inj (some.inj held')).1
  · simpa using running.unique compensating
  · simpa using running.unique failed

/-- The switch to compensation is stored unless the call fails. -/
lemma abort_stored {run : Run} (running : s.RunIs .running) (status : run.status = .compensating)
    (stored : ∀ cause, outcome ≠ .fails cause) :
    ∃ row, (s.store.execute outcome (.updateRun run)).store.run = some row ∧
      row.status = .compensating := by
  obtain ⟨row, held, is⟩ := running
  have updated : s.store.updateRun run = .ok { s.store with run := some (row.overwrite run) } := by
    simp [updateRun, held, is, status, validRunTransition]
  refine ⟨row.overwrite run, ?_, status⟩
  rcases outcome with _ | cause | cause
  · simp [execute, write, updated]
  · exact absurd rfl (stored cause)
  · simp [execute, write, updated]

/-- A switch to compensation that has happened is not undone. -/
lemma System.Happens.rollsBack (happens : s.Happens w move s')
    (before : s.RunIs .compensating ∨ s.RunIs .failed) :
    s'.RunIs .compensating ∨ s'.RunIs .failed := by
  rcases before with is | is
  · obtain ⟨status, is', steps⟩ := happens.runIs is
    rcases steps.of_compensating with rfl | rfl
    · exact .inl is'
    · exact .inr is'
  · obtain ⟨status, is', steps⟩ := happens.runIs is
    obtain rfl := steps.eq_of_isTerminal rfl
    exact .inr is'

/-- The call of the driver keeps the budget. -/
lemma Budgeted.drive (budgeted : Budgeted w s) (runs : UnderWay s) (saga : Saga w s)
    (admitted : SwitchStored w s move) {tag : Option ℕ} (held : s.driver = some (driver, tag))
    (commands : driver.command w s.now = some command)
    (store : s'.store = (s.store.execute outcome command).store)
    (log : s'.log = s.log ++ driver.events s.now (s.store.execute outcome command))
    (turns : ∀ next tag', s'.driver = some (next, tag') ↔
      driver.resume w (s.store.execute outcome command).reply = .goes next ∧ tag = tag')
    (moves : move = .drive outcome)
    (happens : s.Happens w move s') : Budgeted w s' := by
  have knows := saga.knows driver tag held
  have change := fun i => knows.rowChange commands outcome i
  refine ⟨?_, ?_, ?_, ?_⟩
  · intro i
    rw [log, List.count_append, budgeted.counts, store, (change i).attempts]
  · intro i row' after
    rw [store] at after
    cases change i with
    | same rows => exact budgeted.rows i row' (by rw [← rows, after])
    | created row before after' status attempt =>
      cases after.symm.trans after'
      have := one_le_budget (w := w)
      exact .inl (by omega)
    | marked row row'' is before after' steps status attempt =>
      cases after.symm.trans after'
      rw [attempt]
      refine (budgeted.rows i row before).imp id fun exhausted => ?_
      obtain ⟨run, step, signal, rfl⟩ := is
      exact absurd ⟨i, row, before, exhausted.2, exhausted.1.ge⟩
        (budgeted.not_spent runs held rfl (by simp))
    | failed run step row row'' is before running after' status attempt =>
      cases after.symm.trans after'
      rcases budgeted.rows i row before with less | ⟨-, failed⟩
      · rcases Nat.lt_or_ge row'.attempt w.budget with lt | ge
        · exact .inl lt
        · exact .inr ⟨by omega, status⟩
      · simp [running] at failed
    | left row row'' before busy after' status attempt =>
      cases after.symm.trans after'
      rcases budgeted.rows i row before with less | ⟨-, failed⟩
      · exact .inl (by omega)
      · simp [failed] at busy
  · rintro ⟨i, row', after, exhausted⟩
    rw [store] at after
    cases change i with
    | same rows =>
      have spent : s.Spent w := ⟨i, row', by rw [← rows, after], exhausted⟩
      rcases budgeted.spent spent with ⟨run, tag', held'⟩ | before
      · -- The driver is before the switch, which is not lost.
        cases held.symm.trans held'
        obtain ⟨-, stored⟩ := admitted.2 run tag held spent
        cases commands
        obtain ⟨row, present, status⟩ := abort_stored (runs _ tag held rfl) knows.1
          (fun cause (is : outcome = .fails cause) => stored cause (by rw [moves, is]))
        exact .inr (.inl ⟨row, by rw [store, present], status⟩)
      · exact .inr (happens.rollsBack before)
    | created row before after' status | marked row row'' is before after' steps status =>
      cases after.symm.trans after'
      simp [exhausted.1] at status
    | failed run step row row'' is before running after' status attempt counted =>
      -- The last failure is stored: the driver switches next.
      cases after.symm.trans after'
      subst is
      cases commands
      have spent : w.retryPolicy.shouldRetry step.attempt = false := by
        by_contra retry
        have := lt_budget_of_shouldRetry (w := w) (by simpa using retry)
        have := exhausted.2
        omega
      refine .inl ?_
      have reply : (s.store.execute outcome (.updateStep step)).reply = .done ∨
          ∃ error, (s.store.execute outcome (.updateStep step)).reply = .failed error := by
        obtain ⟨-, -, failed⟩ | ⟨-, -, -, -, reply⟩ :=
          write_cases outcome (s.store.updateStep step) s.store
        · exact .inr failed
        · exact reply
      rcases reply with reply | ⟨error, reply⟩
      · exact ⟨_, tag, (turns _ tag).mpr ⟨by rw [reply, resume, spent]; rfl, rfl⟩⟩
      · exact ⟨_, tag, (turns _ tag).mpr ⟨by rw [reply]; rfl, rfl⟩⟩
    | left row row'' before busy after' status =>
      cases after.symm.trans after'
      exact absurd exhausted.1 status
  · intro i signal row mem
    rw [log, List.mem_append] at mem
    rcases mem with old | new
    · exact budgeted.invoked i signal row old
    · obtain ⟨run, rfl, -⟩ := invoked_of_events new
      obtain ⟨-, -, stored, present, status, attempt⟩ := knows
      rintro ⟨failed, spent⟩
      exact budgeted.not_spent runs held rfl (by simp)
        ⟨_, stored, present, status.trans failed, by rw [attempt]; exact spent⟩

/-- What the invariant says of the rows is kept while they and the log of failures stay. -/
lemma Budgeted.of_rows (budgeted : Budgeted w s) (run : s'.store.run = s.store.run)
    (steps : s'.store.steps = s.store.steps) {new : List Event} (log : s'.log = s.log ++ new)
    (quiet : ∀ event ∈ new, (∃ i, event = .found i) ∨ ∃ keys, event = .edited keys)
    (spent : s.Spent w → (∃ run tag, s.driver = some (.abort run, tag)) →
      ∃ run tag, s'.driver = some (.abort run, tag)) : Budgeted w s' := by
  have same : ∀ status, s.RunIs status → s'.RunIs status := by
    rintro status ⟨row, held, is⟩
    exact ⟨row, by rw [run, held], is⟩
  have before : s'.Spent w → s.Spent w := by
    rintro ⟨i, row, held, exhausted⟩
    exact ⟨i, row, by rw [← steps, held], exhausted⟩
  refine ⟨?_, ?_, ?_, ?_⟩
  · intro i
    have none : new.count (.failed i) = 0 := by
      rw [List.count_eq_zero]
      intro mem
      rcases quiet _ mem with ⟨j, is⟩ | ⟨keys, is⟩ <;> simp at is
    rw [log, List.count_append, none, budgeted.counts]
    simp [Store.attempts, steps]
  · intro i row held
    exact budgeted.rows i row (by rw [← steps, held])
  · intro is
    rcases budgeted.spent (before is) with abort | compensating | failed
    · exact .inl (spent (before is) abort)
    · exact .inr (.inl (same _ compensating))
    · exact .inr (.inr (same _ failed))
  · intro i signal row mem
    rw [log, List.mem_append] at mem
    rcases mem with old | added
    · exact budgeted.invoked i signal row old
    · rcases quiet _ added with ⟨j, is⟩ | ⟨keys, is⟩ <;> simp at is

/-- **One admitted move keeps the budget.** -/
lemma Budgeted.kept (budgeted : Budgeted w s) (runs : UnderWay s) (saga : Saga w s)
    (admitted : SwitchStored w s move) (happens : s.Happens w move s') : Budgeted w s' := by
  cases happens with
  | passes new run steps log passes =>
    refine budgeted.of_rows run steps log (by cases passes <;> simp) ?_
    rintro spent ⟨run, tag, held⟩
    cases passes with
    | quiet driver | found i driver => exact ⟨run, tag, by rw [driver, held]⟩
    | stopped driver moves => exact absurd moves (admitted.2 run tag held spent).1
    | locked free => simp [free] at held
    | returned driver next tag' edits result held' returns =>
      cases held'.symm.trans held
      simp [returned] at returns
  | created absent request run steps driver log =>
    -- No step has used up its attempts before the run is there.
    have absentIs : ∀ status, ¬ s.RunIs status := by
      rintro status ⟨row, held, -⟩
      simp [absent] at held
    have fresh : ¬ s.Spent w := by
      intro spent
      rcases budgeted.spent spent with ⟨run, tag, held⟩ | is | is
      · exact absentIs _ (runs _ tag held rfl)
      · exact absentIs _ is
      · exact absentIs _ is
    refine ⟨?_, ?_, ?_, ?_⟩
    · intro i
      rw [log, budgeted.counts]
      simp [Store.attempts, steps]
    · intro i row held
      exact budgeted.rows i row (by rw [← steps, held])
    · rintro ⟨i, row, held, exhausted⟩
      exact absurd ⟨i, row, by rw [← steps, held], exhausted⟩ fresh
    · rw [log]
      exact budgeted.invoked
  | driven driver tag command outcome held commands store log turns moves =>
    exact budgeted.drive runs saga admitted held commands store log turns moves
      (.driven driver tag command outcome held commands store log turns moves)

/-- **The retry budget.**  In every run in which the switch to compensation is not lost, no
step function is invoked whose row is failed with its attempts used up, and no step has more
stored failures than attempts. -/
theorem budget_kept (w : Definition) (s : System) (reached : (life w).Reaches (SwitchStored w) s) :
    (∀ i signal row, .invoked i signal row ∈ s.log →
      ¬ (row.status = .failed ∧ max 1 w.retryPolicy.maxAttempts.toNat ≤ row.attempt)) ∧
    ∀ i, s.log.count (.failed i) ≤ max 1 w.retryPolicy.maxAttempts.toNat := by
  obtain ⟨-, -, budgeted⟩ := invariant_of_awake (fun _ _ admitted => admitted.1) Budgeted.initial
    (fun _ _ _ budgeted runs saga admitted stepped =>
      budgeted.kept runs saga admitted (System.happens_of_act stepped)) reached
  refine ⟨budgeted.invoked, ?_⟩
  intro i
  rw [budgeted.counts, Store.attempts]
  rcases held : s.store.steps[i]? with _ | row
  · simp
  · rcases budgeted.rows i row held with less | ⟨same, -⟩
    · exact less.le
    · exact same.le

/-- The first step has one attempt and fails; the failure is stored, the process stops before
the switch to compensation, and the poll loop takes the run up again. -/
def lostSwitch : List Move :=
  firstStepMoves ++ [.returns [] (.error "refused"), .drive .ok, .stop, .pollRuns, .call 0 .ok] ++
    List.replicate 3 (.drive .ok) ++ [.returns [] (.error "refused"), .drive .ok]

def spentInvoked : Event → Bool
  | .invoked _ _ row => row.status = .failed ∧ 1 ≤ row.attempt
  | _ => false

/-- **A step with one attempt fails twice.** -/
theorem lost_switch_invokes : ∃ s, (life copyThenSwitch).Reaches (fun _ _ => True) s ∧
    (∃ i signal row, .invoked i signal row ∈ s.log ∧ row.status = .failed ∧
      max 1 copyThenSwitch.retryPolicy.maxAttempts.toNat ≤ row.attempt) ∧
    max 1 copyThenSwitch.retryPolicy.maxAttempts.toNat < s.log.count (.failed 0) := by
  obtain ⟨s, reached, ⟨event, member, spent⟩, count⟩ := (enacted copyThenSwitch).reaches_any
    lostSwitch (fun s => (∃ event ∈ s.log, spentInvoked event = true) ∧ s.log.count (.failed 0) = 2)
    (by decide +kernel)
  refine ⟨s, reached, ?_, by rw [count]; decide⟩
  unfold spentInvoked at spent
  split at spent
  · rename_i i signal row
    exact ⟨i, signal, row, member, of_decide_eq_true spent⟩
  · simp at spent

/-- The switch to compensation is not in danger. -/
def switches (s : System) (move : Move) : Bool :=
  match s.driver with
  | some (.load, _) => (s.store.run).all fun run => run.status ≠ .suspended
  | some (.abort _, _) =>
    match move with
    | .drive .ok => true
    | _ => false
  | _ => true

lemma switchStored_of_switches (ok : switches s move = true) : SwitchStored w s move := by
  constructor
  · rintro tag outcome held - ⟨row, present, suspended⟩
    simp [switches, held, present, suspended] at ok
  · intro run tag held _
    simp only [switches, held] at ok
    split at ok
    · simp
    · simp at ok

/-- The budget is kept in a run in which the only attempt of a step fails and the run is
switched to compensation. -/
theorem budget_kept_switched : ∃ s, (life copyThenSwitch).Reaches (SwitchStored copyThenSwitch) s ∧
    s.RunIs .compensating ∧ s.log.count (.failed 0) = 1 ∧
    s.log.count (.failed 0) ≤ max 1 copyThenSwitch.retryPolicy.maxAttempts.toNat := by
  obtain ⟨s, reached, count, run, held, status⟩ := (enacted copyThenSwitch).reaches switches
    (fun _ _ ok => switchStored_of_switches (w := copyThenSwitch) ok)
    (firstStepMoves ++ [.returns [] (.error "refused"), .drive .ok, .drive .ok])
    (fun s => s.log.count (.failed 0) = 1 ∧ ∃ run ∈ s.store.run, run.status = .compensating)
    (by decide +kernel)
  exact ⟨s, reached, ⟨run, held, status⟩, count,
    (budget_kept copyThenSwitch s reached).2 0⟩

end TechStack.Workflow
