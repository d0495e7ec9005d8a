import TechStack.Workflow.Signals

/-!
# Durable progress

The row of a run is written back whole.  `advance` reads it under the lock and writes what
it has read, with the current step moved on and with the entries that the step functions
have edited.  `Deliver` reads the row before it has the lock: what it writes back may be
older than what it overwrites, and then the current step goes back and entries are lost.
Entries are also lost when a step puts a value into the context that has no JSON text, or a number
that is out of range when it is read, because the whole context is then stored or read as an empty
one; and a number that a `float64` cannot hold is read back as another.

Without these two (`Undisturbed`) the current step never goes back, and an entry is changed
or removed only by a step function that has edited it since the row was last read or
written (`unsaved`).
-/

namespace TechStack.Workflow

open List Event Driver Store

open Std (ExtTreeMap)
open Lib (Machine)

variable {w : Definition} {store : Store} {outcome : Outcome} {command : Command} {now : ℤ}
  {s s' : System} {move : Move}

/-! ## Edits that are not stored yet -/

/-- The entries edited since the run was last read or written, after one more event. -/
def Event.unsaved (keys : List String) : Event → List String
  | loaded => []
  | checkpoint => []
  | edited new => keys ++ new
  | _ => keys

/-- The entries that step functions have edited since the row of the run was last read or
written. -/
def unsaved (log : List Event) : List String := log.foldl Event.unsaved []

lemma unsaved_append (log new : List Event) :
    unsaved (log ++ new) = new.foldl Event.unsaved (unsaved log) := by
  simp [unsaved]

/-- What is not stored yet was not stored before, or has been edited since. -/
lemma mem_unsaved_append {log new : List Event} {key : String} (mem : key ∈ unsaved (log ++ new)) :
    key ∈ unsaved log ∨ ∃ keys, .edited keys ∈ new ∧ key ∈ keys := by
  induction new using List.reverseRecOn with
  | nil => exact .inl (by simpa using mem)
  | append_singleton new event ih =>
    have before : key ∈ unsaved (log ++ new) →
        key ∈ unsaved log ∨ ∃ keys, .edited keys ∈ new ++ [event] ∧ key ∈ keys := by
      intro mem
      refine (ih mem).imp id ?_
      rintro ⟨keys, inside, held⟩
      exact ⟨keys, mem_append_left _ inside, held⟩
    rw [← append_assoc, unsaved_append] at mem
    cases event with
    | loaded | checkpoint => simp [Event.unsaved] at mem
    | edited keys =>
      rcases mem_append.mp mem with old | fresh
      · exact before old
      · exact .inr ⟨keys, by simp, fresh⟩
    | found | invoked | failed | suspended => exact before mem

variable {edits : List Edit}

/-- An entry that is not among the edits stays. -/
lemma foldl_apply_of_notMem {key : String} (entries : Entries) (absent : key ∉ edits.map Prod.fst) :
    (edits.foldl Edit.apply entries)[key]? = entries[key]? := by
  induction edits generalizing entries with
  | nil => rfl
  | cons edit rest ih =>
    simp only [map_cons, mem_cons, not_or] at absent
    rw [foldl_cons, ih _ absent.2]
    have differs : ¬ compare edit.1 key = .eq :=
      fun same => absent.1 (compare_eq_iff_eq.mp same).symm
    unfold Edit.apply
    split
    · rw [ExtTreeMap.getElem?_insert, if_neg differs]
    · rw [ExtTreeMap.getElem?_erase, if_neg differs]

/-- Every value of an entry is read back as it was. -/
lemma intact_iff {entries : Entries} : entries.intact = true ↔
    ∀ (key : String) (value : Value), entries[key]? = some value → value.intact = true := by
  unfold Entries.intact
  rw [all_eq_true]
  constructor
  · intro all key value held
    exact all (key, value) (ExtTreeMap.mem_toList_iff_getElem?_eq_some.mpr held)
  · rintro all ⟨key, value⟩ mem
    exact all key value (ExtTreeMap.mem_toList_iff_getElem?_eq_some.mp mem)

/-- The edits set only values that are read back as they were. -/
def Edits (edits : List Edit) : Prop :=
  ∀ edit ∈ edits, ∀ value, edit.2 = some value → value.intact = true

lemma foldl_apply_intact {entries : Entries} (intact : entries.intact = true)
    (plain : Edits edits) :
    (edits.foldl Edit.apply entries).intact = true := by
  induction edits generalizing entries with
  | nil => exact intact
  | cons edit rest ih =>
    rw [foldl_cons]
    refine ih ?_ fun edit' mem => plain edit' (mem_cons_of_mem _ mem)
    rw [intact_iff] at intact ⊢
    intro key value held
    unfold Edit.apply at held
    split at held
    · rename_i added is
      rw [ExtTreeMap.getElem?_insert] at held
      split_ifs at held
      · cases held
        exact plain edit (by simp) _ is
      · exact intact key value held
    · rw [ExtTreeMap.getElem?_erase] at held
      split_ifs at held
      exact intact key value held

lemma stored_intact (context : Context) : context.stored.entries.intact = true := by
  rw [intact_iff]
  intro key value held
  unfold Context.stored at held
  split_ifs at held
  · rw [ExtTreeMap.getElem?_filterMap'] at held
    obtain ⟨written, -, read⟩ := Option.bind_eq_some_iff.mp held
    cases written <;> cases read <;> exact beq_self_eq_true _
  · simp at held

lemma stored_of_intact {context : Context} (intact : context.entries.intact = true) :
    context.stored = context := by
  have reads (key : String) (value : Value) (held : context.entries[key]? = some value) :
      value.read = some value :=
    beq_iff_eq.mp (intact_iff.mp intact key value held)
  have same : (context.entries.filterMap fun _ value => value.read) = context.entries := by
    refine ExtTreeMap.ext_getElem? fun key => ?_
    rw [ExtTreeMap.getElem?_filterMap']
    cases held : context.entries[key]? with
    | none => rfl
    | some value => exact reads key value held
  have all : (context.entries.toList.all fun entry => entry.2.read.isSome) = true := by
    refine all_eq_true.mpr fun entry mem => ?_
    rw [reads entry.1 entry.2 (ExtTreeMap.mem_toList_iff_getElem?_eq_some.mp mem)]
    rfl
  rw [Context.stored, if_pos all, same]

/-! ## What the driver has in memory -/

/-- The run that a driver has read under the lock. -/
def Driver.memory : Driver → Option Run
  | deliver _ _ => none
  | load => none
  | note _ => none
  | starts run _ => some run
  | fetch run _ => some run
  | create run _ => some run
  | skip run _ => some run
  | mark run _ _ => some run
  | invoke run _ _ => some run
  | fails run _ => some run
  | complete run _ => some run
  | progress run => some run
  | suspend run _ => some run
  | abort run => some run
  | list run => some run
  | undo run _ _ => some run
  | checkpoint run _ _ _ => some run
  | undone run _ _ => some run
  | fail run => some run
  | finish run => some run

/-- The run in memory is the stored one, moved on and edited. -/
structure Follows (log : List Event) (row run : Run) : Prop where
  step : row.currentStep ≤ run.currentStep
  entries : ∀ key ∉ unsaved log, run.context.entries[key]? = row.context.entries[key]?
  intact : run.context.entries.intact = true

/-- A run that is written, as far as the current step and the context go, is the one in memory;
only `Deliver` writes a run that it has not read under the lock. -/
lemma Driver.written_memory {driver : Driver} {run : Run}
    (commands : driver.command w now = some command) (writes : command.written = some run) :
    (∃ held signal, driver = .deliver held signal ∧ run = held.resumed signal) ∨
      ∃ held, driver.memory = some held ∧ run.currentStep = held.currentStep ∧
        run.context = held.context := by
  cases writes_of_command commands writes with
  | deliver => exact .inl ⟨_, _, rfl, rfl⟩
  | starts | skip | progress | suspend | abort | checkpoint | fail | finish =>
    exact .inr ⟨_, rfl, rfl, rfl⟩

lemma next_memory {run run' : Run} {pending : Option Signal}
    (memory : (w.next run pending).memory = some run') :
    run'.currentStep = run.currentStep ∧ run'.context = run.context := by
  unfold Definition.next at memory
  split_ifs at memory <;> cases memory <;> exact ⟨rfl, rfl⟩

lemma rollback_memory {run run' : Run} {steps : List Step}
    (memory : (w.rollback run steps).memory = some run') :
    run'.currentStep = run.currentStep ∧ run'.context = run.context := by
  induction steps with
  | nil =>
    cases memory
    exact ⟨rfl, rfl⟩
  | cons step rest ih =>
    unfold Definition.rollback at memory
    split_ifs at memory
    · cases memory
      exact ⟨rfl, rfl⟩
    · exact ih memory

lemma enter_memory {run run' : Run} {next : Driver} (enters : w.enter run = .goes next)
    (memory : next.memory = some run') :
    run'.currentStep = run.currentStep ∧ run'.context.entries = run.context.entries := by
  unfold Definition.enter at enters
  split_ifs at enters <;> cases enters
  · cases memory
    exact ⟨rfl, rfl⟩
  · cases memory
    exact ⟨rfl, rfl⟩
  · obtain ⟨step, context⟩ := next_memory memory
    exact ⟨step, by rw [context]; rfl⟩

lemma Follows.of_eq {log : List Event} {row run run' : Run} (follows : Follows log row run)
    (step : run.currentStep ≤ run'.currentStep)
    (entries : run'.context.entries = run.context.entries) : Follows log row run' :=
  ⟨follows.step.trans step, by rw [entries]; exact follows.entries,
    by rw [entries]; exact follows.intact⟩

lemma Follows.refl {log : List Event} {row run : Run} (step : row.currentStep = run.currentStep)
    (entries : run.context.entries = row.context.entries)
    (intact : row.context.entries.intact = true) : Follows log row run :=
  ⟨step.le, fun _ _ => by rw [entries], by rw [entries]; exact intact⟩

/-- Events other than reads, writes and edits of the run. -/
def Event.silent : Event → Bool
  | loaded => false
  | checkpoint => false
  | suspended _ _ _ _ => false
  | edited _ => false
  | _ => true

lemma unsaved_silent {log new : List Event} (silent : ∀ event ∈ new, event.silent = true) :
    unsaved (log ++ new) = unsaved log := by
  induction new using List.reverseRecOn with
  | nil => simp
  | append_singleton new event ih =>
    rw [← append_assoc, unsaved_append, ih fun e mem => silent e (by simp [mem])]
    have := silent event (by simp)
    cases event <;> simp_all [Event.silent, Event.unsaved]

lemma Follows.silent {log new : List Event} {row run : Run} (follows : Follows log row run)
    (quiet : ∀ event ∈ new, event.silent = true) : Follows (log ++ new) row run :=
  ⟨follows.step, by rw [unsaved_silent quiet]; exact follows.entries, follows.intact⟩

/-- The calls of a driver that neither read nor write the run are silent. -/
lemma events_silent {driver : Driver} (outcome : Outcome)
    (commands : driver.command w now = some command) (unwritten : command.written = none)
    (notLoad : driver ≠ .load) :
    ∀ event ∈ driver.events now (store.execute outcome command), event.silent = true := by
  cases driver with
  | load => exact absurd rfl notLoad
  | deliver | starts | skip | progress | suspend | abort | checkpoint | fail | finish =>
    cases commands
    simp [Command.written] at unwritten
  | fetch | list =>
    cases commands
    simp [Driver.events, execute]
  | mark =>
    obtain ⟨store', reply, wrote⟩ := store.execute outcome command
    cases reply <;> simp [Driver.events, Event.silent]
  | fails =>
    obtain ⟨store', reply, wrote⟩ := store.execute outcome command
    cases wrote <;> simp [Driver.events, Event.silent]
  | create | complete | note | undone => simp [Driver.events]
  | invoke | undo => simp [Driver.command] at commands

/-- **The run in memory follows the stored one.** -/
lemma follows_drive {driver next : Driver} {log : List Event}
    (memory : ∀ run, driver.memory = some run → ∃ row, store.run = some row ∧ Follows log row run)
    (intact : ∀ row, store.run = some row → row.context.entries.intact = true)
    (commands : driver.command w now = some command)
    (goes : driver.resume w (store.execute outcome command).reply = .goes next)
    {run' : Run} (memory' : next.memory = some run') :
    ∃ row', (store.execute outcome command).store.run = some row' ∧
      Follows (log ++ driver.events now (store.execute outcome command)) row' run' := by
  -- After a write of the run that takes effect, the stored run is the one in memory.
  have written : ∀ {run : Run}, driver.memory = some run → command = .updateRun run →
      store.Takes outcome command → run'.currentStep = run.currentStep →
      run'.context = run.context →
      ∃ row', (store.execute outcome command).store.run = some row' ∧
        Follows (log ++ driver.events now (store.execute outcome command)) row' run' := by
    rintro run held rfl taken step context
    obtain ⟨current, -, -, after⟩ := updateRun_ok taken
    obtain ⟨row, -, follows⟩ := memory run held
    have stored : run.context.stored = run.context := stored_of_intact follows.intact
    refine ⟨current.overwrite run, by rw [after], .refl step.symm ?_ ?_⟩
    · rw [context, Run.overwrite, stored]
    · exact stored_intact _
  -- A call that does not concern the run.
  have aside : ∀ {run : Run}, driver.memory = some run → driver ≠ .load →
      command.written = none → run.currentStep ≤ run'.currentStep →
      run'.context = run.context →
      ∃ row', (store.execute outcome command).store.run = some row' ∧
        Follows (log ++ driver.events now (store.execute outcome command)) row' run' := by
    intro run held notLoad unwritten step context
    obtain ⟨row, present, follows⟩ := memory run held
    obtain same | ⟨run'', current, writes, -⟩ := execute_run outcome command store
    · exact ⟨row, by rw [same, present], (follows.of_eq step (by rw [context])).silent
          (events_silent outcome commands unwritten notLoad)⟩
    · simp [unwritten] at writes
  cases Driver.goes_of_resume commands goes with
  | deliver | blames => simp [Driver.memory] at memory'
  | load present enters =>
    obtain ⟨step, entries⟩ := enter_memory enters memory'
    exact ⟨_, by rw [execute, read_store, present],
      .refl step.symm entries (intact _ present)⟩
  | starts taken | skip taken | progress taken =>
    obtain ⟨step, context⟩ := next_memory memory'
    exact written rfl rfl taken step context
  | absent | found | create | mark | unmarked | retry | spent | lost =>
    cases memory'
    exact aside rfl (by simp) rfl le_rfl rfl
  | passes | complete =>
    cases memory'
    exact aside rfl (by simp) rfl (Nat.le_succ _) rfl
  | abort taken | checkpoint taken =>
    cases memory'
    exact written rfl rfl taken rfl rfl
  | list | undone =>
    obtain ⟨step, context⟩ := rollback_memory memory'
    exact aside rfl (by simp) rfl step.ge context

/-- The run in memory after a function has returned. -/
lemma returned_memory {driver next : Driver} {result : Except String StepResult}
    (returns : driver.returned edits result = some next) {run' : Run}
    (memory' : next.memory = some run') :
    ∃ run, driver.memory = some run ∧ run' = run.edit edits := by
  cases driver with
  | invoke run step signal =>
    rcases result with cause | result
    · cases returns
      exact ⟨run, rfl, (Option.some.inj memory').symm⟩
    · simp only [returned] at returns
      split at returns <;> cases returns <;>
        exact ⟨run, rfl, (Option.some.inj memory').symm⟩
  | undo run step rest =>
    cases returns
    exact ⟨run, rfl, (Option.some.inj memory').symm⟩
  | _ => simp [returned] at returns

/-- The edits of a function are not stored yet. -/
lemma Follows.edit {log : List Event} {row run : Run} (follows : Follows log row run)
    (plain : Edits edits) :
    Follows (log ++ [.edited (edits.map Prod.fst)]) row (run.edit edits) := by
  refine ⟨follows.step, ?_, foldl_apply_intact follows.intact plain⟩
  intro key saved
  rw [unsaved_append] at saved
  simp only [foldl_cons, foldl_nil, Event.unsaved, mem_append, not_or] at saved
  rw [Run.edit, foldl_apply_of_notMem _ saved.2]
  exact follows.entries key saved.1

/-! ## The invariant -/

/-- `Deliver` writes back the run only while the row is as it was read, and step functions put
only values into the context that are read back as they were. -/
def Undisturbed (s : System) (move : Move) : Prop :=
  (∀ run signal tag outcome, s.driver = some (.deliver run signal, tag) → move = .drive outcome →
    s.store.run = some run) ∧
  ∀ edits result, move = .returns edits result → Edits edits

/-- The stored run can be marshalled, and the driver's run follows it. -/
structure Tracked (s : System) : Prop where
  intact : ∀ row, s.store.run = some row → row.context.entries.intact = true
  memory : ∀ driver tag run, s.driver = some (driver, tag) → driver.memory = some run →
    ∃ row, s.store.run = some row ∧ Follows s.log row run

lemma Tracked.initial (now : ℤ) : Tracked (.initial now) where
  intact row held := by simp [System.initial] at held
  memory driver tag run held := by simp [System.initial] at held

/-- **One admitted move keeps the run in memory in step with the stored one.** -/
lemma Tracked.kept (tracked : Tracked s) (admitted : Undisturbed s move)
    (happens : s.Happens w move s') : Tracked s' := by
  obtain ⟨intact, memory⟩ := tracked
  cases happens with
  | passes new run steps log passes =>
    refine ⟨fun row held => intact row (by rw [← run, held]), ?_⟩
    intro d tag held present memory'
    rw [run, log]
    cases passes with
    | quiet driver | found i driver =>
      obtain ⟨row, stored, follows⟩ := memory d tag held (by rw [← driver, present]) memory'
      exact ⟨row, stored, follows.silent (by simp [Event.silent])⟩
    | stopped driver => simp [driver] at present
    | locked free next tag' driver starts =>
      cases driver.symm.trans present
      rcases starts with rfl | ⟨run, signal, -, rfl⟩ <;> simp [Driver.memory] at memory'
    | returned driver next tag' edits result held returns driver' moves =>
      cases driver'.symm.trans present
      obtain ⟨before, memory'', rfl⟩ := returned_memory returns memory'
      obtain ⟨row, stored, follows⟩ := memory driver tag before held memory''
      exact ⟨row, stored, follows.edit (admitted.2 _ _ moves)⟩
  | created absent request run steps driver log =>
    constructor
    · intro row held
      cases run.symm.trans held
      exact stored_intact _
    · intro d tag held present memory'
      obtain ⟨row, stored, -⟩ := memory d tag held (by rw [← driver, present]) memory'
      simp [absent] at stored
  | driven driver tag command outcome held commands store log turns moves =>
    constructor
    · intro row present
      rw [store] at present
      obtain same | ⟨run, current, -, -, -, written⟩ :=
        execute_run outcome command s.store
      · exact intact row (by rw [← same, present])
      · cases written.symm.trans present
        exact stored_intact _
    · intro d tag' run present memory'
      rw [store, log]
      exact follows_drive (fun run => memory driver tag run held) intact commands
        ((turns d tag').mp present).1 memory'

lemma tracked_of_reaches (reached : (life w).Reaches Undisturbed s) : Tracked s := by
  refine reached.invariant Tracked ?_ ?_
  · rintro s ⟨now, rfl⟩
    exact Tracked.initial now
  · intro s move s' tracked admitted stepped
    exact tracked.kept admitted (System.happens_of_act stepped)

/-! ## Progress -/

/-- **One admitted move does not set the run back.** -/
lemma Tracked.progress (tracked : Tracked s) (admitted : Undisturbed s move)
    (happens : s.Happens w move s') {row : Run} (held : s.store.run = some row) :
    ∃ row', s'.store.run = some row' ∧ row.currentStep ≤ row'.currentStep ∧
      ∀ key ∉ unsaved s.log, row'.context.entries[key]? = row.context.entries[key]? := by
  have same : s'.store.run = s.store.run →
      ∃ row', s'.store.run = some row' ∧ row.currentStep ≤ row'.currentStep ∧
        ∀ key ∉ unsaved s.log, row'.context.entries[key]? = row.context.entries[key]? :=
    fun run => ⟨row, by rw [run, held], le_rfl, fun _ _ => rfl⟩
  cases happens with
  | passes new run => exact same run
  | created absent => simp [absent] at held
  | driven driver tag command outcome present commands store log turns moves =>
    obtain kept | ⟨run, current, writes, before, -, written⟩ :=
      execute_run outcome command s.store
    · exact same (by rw [store, kept])
    · cases held.symm.trans before
      refine ⟨row.overwrite run, by rw [store, written], ?_⟩
      rcases written_memory commands writes with ⟨found, signal, rfl, rfl⟩ |
        ⟨run', memory, step, context⟩
      · have unchanged := admitted.1 found signal tag outcome present moves
        cases held.symm.trans unchanged
        have stored : (row.resumed signal).context.stored = (row.resumed signal).context :=
          stored_of_intact (tracked.intact row held)
        refine ⟨le_rfl, fun key _ => ?_⟩
        rw [Run.overwrite, stored]
        rfl
      · obtain ⟨row', stored', follows⟩ := tracked.memory driver tag run' present memory
        cases held.symm.trans stored'
        have stored : run.context.stored = run.context :=
          stored_of_intact (by rw [context]; exact follows.intact)
        refine ⟨by rw [Run.overwrite, step]; exact follows.step, fun key saved => ?_⟩
        rw [Run.overwrite, stored, context]
        exact follows.entries key saved

/-- The log only grows. -/
lemma System.Happens.log (happens : s.Happens w move s') : ∃ new, s'.log = s.log ++ new := by
  cases happens with
  | passes new run steps log => exact ⟨new, log⟩
  | created absent request run steps driver log => exact ⟨[], by simpa using log⟩
  | driven driver tag command outcome held commands store log => exact ⟨_, log⟩

/-- **Durable progress never goes back.**  In every run in which `Deliver` writes back only a
row that is as it was read, and step functions put only JSON values into the context: the
stored current step never decreases, and a stored entry of the context stays unless a step
function has overwritten or deleted it, after the row was last read or written, or later
on. -/
theorem progress_kept (w : Definition) (s s' : System)
    (reached : (life w).Reaches Undisturbed s) (later : (life w).Later Undisturbed s s')
    (row : Run) (held : s.store.run = some row) :
    ∃ row' new, s'.store.run = some row' ∧ s'.log = s.log ++ new ∧
      row.currentStep ≤ row'.currentStep ∧
      ∀ key, row'.context.entries[key]? = row.context.entries[key]? ∨ key ∈ unsaved s.log ∨
        ∃ keys, .edited keys ∈ new ∧ key ∈ keys := by
  refine later.keeps (fun t => ∃ row' new, t.store.run = some row' ∧ t.log = s.log ++ new ∧
    row.currentStep ≤ row'.currentStep ∧
    ∀ key, row'.context.entries[key]? = row.context.entries[key]? ∨ key ∈ unsaved s.log ∨
      ∃ keys, .edited keys ∈ new ∧ key ∈ keys) ?_ reached
    ⟨row, [], held, by simp, le_rfl, fun _ => .inl rfl⟩
  rintro t move t' reached' ⟨row₁, new, held₁, log₁, step₁, entries₁⟩ admitted stepped
  have happens := System.happens_of_act stepped
  obtain ⟨row₂, held₂, step₂, entries₂⟩ :=
    (tracked_of_reaches reached').progress admitted happens held₁
  obtain ⟨new₂, log₂⟩ := happens.log
  refine ⟨row₂, new ++ new₂, held₂, by rw [log₂, log₁, append_assoc], step₁.trans step₂, ?_⟩
  intro key
  -- What a step of the run changes was edited before, in this stretch of the run or not.
  by_cases saved : key ∈ unsaved t.log
  · rw [log₁] at saved
    refine .inr ((mem_unsaved_append saved).imp id ?_)
    rintro ⟨keys, member, inside⟩
    exact ⟨keys, mem_append_left _ member, inside⟩
  · rw [entries₂ key saved]
    refine (entries₁ key).imp id (Or.imp id ?_)
    rintro ⟨keys, member, inside⟩
    exact ⟨keys, mem_append_left _ member, inside⟩

/-- A step function that sets an entry of the context. -/
def sets (key text : String) : Move := .returns [(key, some (.json text))] (.ok ⟨"", none, false⟩)

/-- Two signals are delivered for one suspension of the first step.  With the first one the step
sets an entry and completes, and the second step suspends the run; the other `Deliver` still
waits for the lock. -/
def twiceDelivered : List Move :=
  firstStepMoves ++ [suspends "go" 0, .drive .ok, .deliver ⟨"go", "", false, none, 0⟩,
    .deliver ⟨"go", "", false, none, 0⟩, .call 0 .ok, .call 0 .ok, .call 0 .ok] ++
    List.replicate 4 (.drive .ok) ++ [sets "target" "b"] ++ List.replicate 5 (.drive .ok) ++
    [suspends "done" 0, .drive .ok]

/-- The second `Deliver` gets the lock and writes. -/
def overwritten : List Move := [.call 0 .ok, .drive .ok]

/-- **A late `Deliver` sets the run back.** -/
theorem late_deliver_sets_back : ∃ s s' row row',
    (life copyThenSwitch).Reaches (fun _ _ => True) s ∧
    (life copyThenSwitch).Later (fun _ _ => True) s s' ∧
    s.store.run = some row ∧ s'.store.run = some row' ∧ row'.currentStep < row.currentStep ∧
    row.context.entries["target"]? = some (.json "b") ∧
    row'.context.entries["target"]? = none ∧ unsaved s.log = [] ∧
    s'.log = s.log ++ [.checkpoint] := by
  obtain ⟨s, s', reached, later, row, held, row', held', rest⟩ :=
    (enacted copyThenSwitch).reaches_later (fun _ _ => true) (fun _ _ _ => trivial) twiceDelivered
    overwritten (fun s s' => ∃ row ∈ s.store.run, ∃ row' ∈ s'.store.run,
      row'.currentStep < row.currentStep ∧ row.context.entries["target"]? = some (.json "b") ∧
      row'.context.entries["target"]? = none ∧ unsaved s.log = [] ∧
      s'.log = s.log ++ [.checkpoint]) (by decide +kernel)
  exact ⟨s, s', row, row', reached, later, held, held', rest⟩

/-- No `Deliver` is about to write, and edits set only JSON values. -/
def calm (s : System) (move : Move) : Bool :=
  (match s.driver with
    | some (.deliver _ _, _) => false
    | _ => true) &&
  match move with
  | .returns edits _ => edits.all fun edit => (edit.2).all Value.intact
  | _ => true

lemma undisturbed_of_calm (ok : calm s move = true) : Undisturbed s move := by
  unfold calm at ok
  rw [Bool.and_eq_true] at ok
  constructor
  · intro run signal tag outcome held
    simp [held] at ok
  · rintro edits result rfl edit mem value is
    have := all_eq_true.mp ok.2 edit mem
    simpa [is] using this

/-- The run moves on to the second step, with the entry that the first one has set. -/
theorem progress_kept_forward : ∃ s s' row row',
    (life copyThenSwitch).Reaches Undisturbed s ∧ (life copyThenSwitch).Later Undisturbed s s' ∧
    s.store.run = some row ∧ s'.store.run = some row' ∧ row'.currentStep = 1 ∧
    row.currentStep ≤ row'.currentStep := by
  obtain ⟨s, s', reached, later, ⟨row, held, -⟩, row', held', step⟩ :=
    (enacted copyThenSwitch).reaches_later calm
    (fun _ _ => undisturbed_of_calm) firstStepMoves [sets "target" "b", .drive .ok, .drive .ok]
    (fun s s' => (∃ row ∈ s.store.run, True) ∧ ∃ row' ∈ s'.store.run, row'.currentStep = 1)
    (by decide +kernel)
  obtain ⟨row'', new, held'', -, le, -⟩ :=
    progress_kept copyThenSwitch s s' reached later row held
  rw [held'] at held''
  cases held''
  exact ⟨s, s', row, row', reached, later, held, held', step, le⟩

end TechStack.Workflow
