import TechStack.Workflow.Saga

/-!
# Runs that are under way

`advance` has no case for a suspended run.  When it is entered on one, it drives the run
as if it were running, and writes it back as a suspended run.  Several laws of the engine
hold in the runs in which this does not happen (`EntersAwake`): there, whenever the
goroutine with the lock is between the start and the end of the steps, the stored run is a
running one.
-/

namespace TechStack.Workflow

variable {w : Definition} {store : Store} {outcome : Outcome} {command : Command} {s s' : System} {move : Move}

/-- The positions of `advance` in which the run is under way. -/
def Driver.underWay : Driver → Bool
  | fetch _ _ => true
  | create _ _ => true
  | skip _ _ => true
  | mark _ _ _ => true
  | invoke _ _ _ => true
  | fails _ _ => true
  | complete _ _ => true
  | progress _ => true
  | suspend _ _ => true
  | abort _ => true
  | finish _ => true
  | _ => false

/-- `advance` does not read a suspended run. -/
def EntersAwake (s : System) (move : Move) : Prop :=
  ∀ tag outcome, s.driver = some (.load, tag) → move = .drive outcome → ¬ s.RunIs .suspended

/-- A run that is driven is running. -/
def UnderWay (s : System) : Prop :=
  ∀ driver tag, s.driver = some (driver, tag) → driver.underWay = true → s.RunIs .running

lemma UnderWay.initial (now : ℤ) : UnderWay (.initial now) := by
  intro driver tag held
  simp [System.initial] at held

/-- The run that `advance` goes on with is running, if it was not suspended. -/
lemma underWay_of_enter {run : Run} {next : Driver} (enters : w.enter run = .goes next)
    (underWay : next.underWay = true) (notSuspended : run.status ≠ .suspended) :
    run.status = .running := by
  unfold Definition.enter at enters
  split_ifs at enters with terminal compensating pending <;> cases enters
  · simp [Driver.underWay] at underWay
  · simp [Driver.underWay] at underWay
  · cases status : run.status <;> simp_all [isTerminal]

lemma not_underWay_rollback (run : Run) (steps : List Step) :
    (w.rollback run steps).underWay = false := by
  induction steps with
  | nil => rfl
  | cons step rest ih =>
    unfold Definition.rollback
    split_ifs
    · rfl
    · exact ih

/-- A write of a run that is under way and keeps its status. -/
lemma running_of_written {run : Run} (forward : Forward s.store run) (running : s.RunIs .running)
    (written : command.written = some run) :
    ∃ row, (s.store.execute outcome command).store.run = some row ∧ row.status = .running := by
  obtain ⟨row, held, is⟩ := running
  obtain ⟨row', held', same, -⟩ := forward
  cases held.symm.trans held'
  obtain kept | ⟨run', current, writes, -, -, after⟩ :=
    Store.execute_run outcome command s.store
  · exact ⟨row, by rw [kept, held], is⟩
  · cases written.symm.trans writes
    exact ⟨_, after, same.symm.trans is⟩

lemma running_of_unwritten (running : s.RunIs .running) (unwritten : command.written = none) :
    ∃ row, (s.store.execute outcome command).store.run = some row ∧ row.status = .running := by
  obtain ⟨row, held, is⟩ := running
  obtain kept | ⟨run', current, writes, -⟩ := Store.execute_run outcome command s.store
  · exact ⟨row, by rw [kept, held], is⟩
  · simp [unwritten] at writes

/-- A run that is under way after a call is running, if `advance` was not entered on a
suspended one. -/
lemma UnderWay.drive (runs : UnderWay s) (saga : Saga w s) {driver next : Driver}
    {tag : Option ℕ} (held : s.driver = some (driver, tag))
    (commands : driver.command w s.now = some command)
    (entered : driver = .load → ¬ s.RunIs .suspended)
    (goes : driver.resume w (s.store.execute outcome command).reply = .goes next)
    (underWay : next.underWay = true) :
    ∃ row, (s.store.execute outcome command).store.run = some row ∧ row.status = .running := by
  have knows := saga.knows driver tag held
  cases Driver.goes_of_resume commands goes with
  | load present enters =>
    refine ⟨_, by rw [Store.execute, Store.read_store, present], ?_⟩
    exact underWay_of_enter enters underWay fun suspended => entered rfl ⟨_, present, suspended⟩
  | starts taken =>
    obtain ⟨-, row, present, status⟩ := updateRun_known taken
    exact ⟨row, present, status.trans knows.1⟩
  | skip | progress => exact running_of_written knows (runs _ tag held rfl) rfl
  | absent | passes | found | create | mark | unmarked | retry | spent | lost | complete =>
    exact running_of_unwritten (runs _ tag held rfl) rfl
  | deliver | abort | blames | checkpoint => simp [Driver.underWay] at underWay
  | list | undone => simp [not_underWay_rollback] at underWay

/-- One move that does not enter a suspended run. -/
lemma UnderWay.kept (runs : UnderWay s) (saga : Saga w s) (admitted : EntersAwake s move)
    (happens : s.Happens w move s') : UnderWay s' := by
  intro d tag' held' underWay
  cases happens with
  | passes new run steps log passes =>
    have unchanged : s.RunIs .running → s'.RunIs .running := by
      rintro ⟨row, held, is⟩
      exact ⟨row, by rw [run, held], is⟩
    cases passes with
    | quiet driver | found i driver =>
      exact unchanged (runs d tag' (by rw [← driver, held']) underWay)
    | stopped driver => simp [driver] at held'
    | locked free next tag driver starts =>
      cases driver.symm.trans held'
      rcases starts with rfl | ⟨run, signal, -, rfl⟩ <;> simp [Driver.underWay] at underWay
    | returned driver next tag edits result held returns driver' =>
      cases driver'.symm.trans held'
      refine unchanged (runs driver _ held ?_)
      cases driver with
      | invoke => rfl
      | undo run step rest =>
        cases returns
        simp [Driver.underWay] at underWay
      | _ => simp [Driver.returned] at returns
  | created absent request run steps driver =>
    obtain ⟨row, held, -⟩ := runs d tag' (by rw [← driver, held']) underWay
    simp [absent] at held
  | driven driver tag command outcome held commands store log turns moves =>
    obtain ⟨row, present, status⟩ := runs.drive saga held commands
      (fun is => admitted tag outcome (by rw [held, is]) moves) ((turns d tag').mp held').1 underWay
    exact ⟨row, by rw [store, present], status⟩

/-- What such moves keep is an invariant. -/
lemma invariant_of_awake {P : System → Prop} {admits : System → Move → Prop}
    (awake : ∀ s move, admits s move → EntersAwake s move) (initial : ∀ now, P (.initial now))
    (kept : ∀ s move s', P s → UnderWay s → Saga w s → admits s move → s.act w move = some s' → P s')
    (reached : (life w).Reaches admits s) : Saga w s ∧ UnderWay s ∧ P s := by
  refine reached.invariant (fun s => Saga w s ∧ UnderWay s ∧ P s) ?_ ?_
  · rintro s ⟨now, rfl⟩
    exact ⟨Saga.initial now, UnderWay.initial now, initial now⟩
  · rintro s move s' ⟨saga, runs, holds⟩ admitted stepped
    have happens := System.happens_of_act stepped
    exact ⟨saga.kept happens, runs.kept saga (awake s move admitted) happens,
      kept s move s' holds runs saga admitted stepped⟩

/-- While runs are entered awake, only `suspend` writes a suspended run. -/
lemma UnderWay.written_suspended (runs : UnderWay s) (saga : Saga w s) {driver : Driver}
    {tag : Option ℕ} (held : s.driver = some (driver, tag))
    (commands : driver.command w s.now = some command) {run : Run}
    (writes : command.written = some run) (suspended : run.status = .suspended) :
    ∃ before directive, driver = .suspend before directive ∧
      run = before.suspendedOn directive := by
  have knows := saga.knows driver tag held
  have notForward : driver.underWay = true → ¬ Forward s.store run := by
    rintro underWay ⟨row, present, same, -⟩
    obtain ⟨row', present', running⟩ := runs driver tag held underWay
    cases present.symm.trans present'
    rw [same, suspended] at running
    simp at running
  cases Driver.writes_of_command commands writes with
  | suspend => exact ⟨_, _, rfl, rfl⟩
  | deliver => simp [Run.resumed] at suspended
  | starts | abort | fail | finish => simp [knows.1] at suspended
  | checkpoint => simp [knows.1.1] at suspended
  | skip | progress => exact absurd knows (notForward rfl)

/-- A call that does not write leaves the store as it is. -/
lemma execute_unwritten (quiet : (store.execute outcome command).wrote = false) :
    (store.execute outcome command).store = store := by
  have write : ∀ {result : Except StoreError Store},
      (store.write outcome result).wrote = false → (store.write outcome result).store = store := by
    intro result quiet
    obtain ⟨same, -⟩ | ⟨store', -, -, wrote, -⟩ := Store.write_cases outcome result store
    · exact same
    · simp [wrote] at quiet
  cases command with
  | getRun | getStep | listSteps => simp [Store.execute]
  | updateRun | suspendRun | createStep | updateStep => exact write quiet

end TechStack.Workflow
