import TechStack.Telemetry.Faults

/-!
# What was taken stays

A record whose append returned nil is returned by `Peek`, or stands in the range of a
marker that `Peek` returns, until it is acknowledged or discarded: in every state of every
run whose steps are `Tolerable`, whatever else fails and wherever processes die.

`Tolerable` lists what the code does not survive; each item is a way in which a record can
be lost, and `torn_line_swallows` shows the first at work.
-/

namespace TechStack.Telemetry

open Std (ExtTreeMap)
open List Option Lib Lines

variable {codec : Codec} {oracle : Oracle Site String} {dir dir' : Dir} {s : Spool}
  {cells : List Cell} {appended : List Record} {floor : ℕ}

/-- The faults that the spool survives.

* A read of a segment does not fail part way.
* An old name can be removed, and the process does not die between the new name and that.
* When the budget drops a segment, its marker is placed.
* An append follows on one that failed only when nothing is left of it (`Fresh`).
* No acknowledgement or discard ends inside the range of a marker (`Op.Whole`): the marker goes
  with its first sequence, and with it the trace of the others. -/
def Tolerable (codec : Codec) (sys : System) : Label → Prop
  | .open_ _ _ oracle => ¬ oracle.FailsAt .scanRead
  | .call op oracle => Steady oracle ∧ ∀ s, sys.spool = some s →
      op.Admissible s ∧ op.Whole codec sys.dir s ∧ ¬ Renaming (sys.events codec op oracle s) ∧
        Marks (sys.events codec op oracle s) ∧
        ∀ atTime samples drives, op = .append atTime samples drives →
          Fresh codec oracle sys.dir s
            { sequence := 0, «at» := atTime, samples := samples, driveHealth := drives }
  | .exit => True

/-! ### Steps -/

lemma Alive.released (alive : Alive codec dir s appended floor cells) (lawful : codec.Lawful)
    {sequence : ℕ}
    (whole : ∀ r ∈ onDisk codec dir s, r.sequence ≤ sequence → r.upper ≤ sequence) :
    Released (max floor sequence) sequence (recordsOf cells) := by
  rw [alive.onDisk_eq lawful] at whole
  exact ⟨le_max_right _ _, fun x listed below => (whole x listed below).trans (le_max_right _ _)⟩

/-- A call leaves what it was given, and what it has taken. -/
lemma Alive.always_call (alive : Alive codec dir s appended floor cells) (lawful : codec.Lawful)
    (steady : Steady oracle) {op : Op} (admissible : op.Admissible s)
    (whole : op.Whole codec dir s)
    (fresh : ∀ atTime samples drives, op = .append atTime samples drives → Fresh codec oracle dir s
        { sequence := 0, «at» := atTime, samples := samples, driveHealth := drives }) :
    Io.Always oracle (call codec s op) dir [] fun result dir' trace' =>
      ¬ Renaming trace' → Marks trace' →
        Survives codec (appended ++ result.elim [] fun answer => answer.2.taken)
          (max floor op.releases) (result.map Prod.fst) dir' := by
  have raised := alive.mono (fun _ => id) (le_max_left floor op.releases)
  cases op with
  | append atTime samples drives =>
    refine Io.always_bind ((raised.always_append lawful steady (fresh _ _ _ rfl)).mono ?_)
    rintro (_ | ⟨s', answer⟩) dir' trace' left
    · exact left
    · exact Io.always_pure left
  | peek maxRecords maxBytes =>
    refine Io.always_bind ((raised.always_peek lawful steady maxRecords maxBytes).mono ?_)
    rintro (_ | answer) dir' trace' left
    · intro _ _
      rwa [elim_none, append_nil]
    · refine Io.always_pure fun _ _ => ?_
      simpa [Answer.taken] using left
  | ack sequence =>
    have released := alive.released lawful whole
    refine Io.always_bind ((raised.always_ack lawful steady released).mono ?_)
    rintro (_ | ⟨s', _ | fault⟩) dir' trace' left
    · intro orderly _
      rw [elim_none, append_nil]
      exact left orderly
    · refine Io.always_pure fun _ _ => ?_
      obtain ⟨cells', alive', -⟩ := left
      simpa [Answer.taken] using alive'.survives _ (.inr rfl)
    · refine Io.always_pure fun _ _ => ?_
      obtain ⟨cells', alive'⟩ := left
      simpa [Answer.taken] using alive'.survives _ (.inr rfl)
  | discard sequence reason =>
    have released := alive.released lawful whole
    refine Io.always_bind ((raised.always_discard lawful steady released admissible).mono ?_)
    rintro (_ | ⟨s', answer⟩) dir' trace' left
    · intro orderly _
      rw [elim_none, append_nil]
      exact left orderly
    · refine Io.always_pure fun orderly _ => ?_
      simpa [Answer.taken] using left orderly

/-- What was taken is in custody. -/
def Custody (codec : Codec) (sys : System) : Prop :=
  Survives codec sys.appended sys.floor sys.spool sys.dir

lemma Survives.closed {either : Option Spool}
    (survives : Survives codec appended floor either dir) :
    Survives codec appended floor none dir := by
  cases either with
  | none => exact survives
  | some s =>
    obtain ⟨cells, alive⟩ := survives
    exact ⟨cells, alive.intact, alive.keeps⟩

lemma Custody.step (lawful : codec.Lawful) {sys sys' : System} {label : Label}
    (custody : Custody codec sys) (tolerable : Tolerable codec sys label)
    (step : Step codec sys label sys') : Custody codec sys' := by
  cases step with
  | open_ cfg random oracle closed =>
    rw [Custody, closed] at custody
    obtain ⟨cells, intact, keeps⟩ := custody
    have ran : Io.Always oracle (openSpool codec cfg random) sys.dir [] _ :=
      intact.always_open keeps lawful tolerable cfg random
    have left := ran.run
    unfold System.openDir
    rcases outcome : (openSpool codec cfg random).run oracle sys.dir [] with
      ⟨_ | fault | s, world⟩
    all_goals
      rw [outcome] at left
      exact left
  | call op oracle isOpen =>
    rename_i s
    obtain ⟨steady, met⟩ := tolerable
    obtain ⟨admissible, whole, orderly, marks, fresh⟩ := met s isOpen
    rw [Custody, isOpen] at custody
    obtain ⟨cells, alive⟩ := custody
    have ran : Io.Always oracle (call codec s op) sys.dir [] _ :=
      alive.always_call lawful steady admissible whole fresh
    have left := ran.run orderly marks
    unfold System.callSpool
    rcases outcome : (call codec s op).run oracle sys.dir [] with ⟨_ | ⟨s', answer⟩, world⟩
    · rw [outcome, elim_none, append_nil] at left
      exact left
    · rw [outcome] at left
      exact left
  | exit => exact Survives.closed custody

variable {sys : System}

lemma custody_of_reaches (lawful : codec.Lawful)
    (reached : (spoolLife codec).Reaches (Tolerable codec) sys) : Custody codec sys := by
  refine reached.invariant (Custody codec) ?_ fun _ _ _ custody tolerable step =>
    custody.step lawful tolerable step
  rintro sys rfl
  exact ⟨[], .empty, ⟨by simp [System.start], by simp [System.start]⟩⟩

/-! ### Peeking at everything -/

/-- With wide bounds all records are taken. -/
lemma takeRecords_all {maxRecords maxBytes : ℕ} {records out : List Record} {used : ℕ}
    (storable : ∀ r ∈ records, Storable codec r) (many : out.length + records.length ≤ maxRecords)
    (wide : used + (fileOf codec records).length ≤ maxBytes) :
    ∃ used', takeRecords codec maxRecords maxBytes records out used =
      .ok (false, out ++ records, used') := by
  induction records generalizing out used with
  | nil => exact ⟨used, by simp [takeRecords]⟩
  | cons r rest ih =>
    obtain ⟨body, marshalled⟩ := (storable r (.head _)).marshals
    have size : (encodeLine codec r).length = body.length + 1 := by
      simp [encodeLine, marshalled]
    simp only [length_cons, image_cons, length_append, size] at many wide
    have room : ¬ (out.length ≥ maxRecords ∨ (out ≠ [] ∧ used + (body.length + 1) > maxBytes)) := by
      rintro (full | ⟨-, heavy⟩) <;> omega
    simp only [takeRecords, marshalled, if_neg room]
    have more : (out ++ [r]).length + rest.length ≤ maxRecords := by
      rw [length_append, length_singleton]
      omega
    obtain ⟨used', took⟩ := ih (fun x later => storable x (.tail _ later)) more
      (show used + (body.length + 1) + (image (encodeLine codec) rest).length ≤ maxBytes by omega)
    exact ⟨used', by rw [took, append_assoc, singleton_append]⟩

lemma Alive.peeks_all (alive : Alive codec dir s appended floor cells) (lawful : codec.Lawful)
    {maxRecords maxBytes : ℕ} (many : (recordsOf cells).length ≤ maxRecords)
    (wide : (fileOf codec (recordsOf cells)).length ≤ maxBytes) :
    ((peek codec s maxRecords maxBytes).run calm dir []).1 = some (.ok (recordsOf cells)) := by
  have ran : Io.Always calm (peekSegments codec maxRecords maxBytes (cells.map Cell.seg) [] 0) dir []
      _ := always_peekSegments lawful (calm_faultless.not_failsAt _) alive.intact.held
  obtain ⟨used, took⟩ : ∃ used, takeRecords codec maxRecords maxBytes (recordsOf cells) [] 0 =
      .ok (false, [] ++ recordsOf cells, used) :=
    takeRecords_all alive.intact.storable (by simpa using many) (by simpa using wide)
  have answer : peeked codec maxRecords maxBytes (recordsOf cells) [] 0 = .ok (recordsOf cells) := by
    rw [peeked, took]
    rfl
  have post := ran.run.1
  rw [answer] at post
  rw [peek, alive.tracked.segs]
  generalize ((peekSegments codec maxRecords maxBytes (cells.map Cell.seg) [] 0).run calm dir
    []).1 = result at post
  cases post with
  | done trimmed => rfl
  | failed fault trimmed why => exact absurd why calm_faultless.never_fails
  | died trimmed why => exact absurd why calm_faultless.never_dies

/-- **What was taken is peeked.**  In every state that tolerable steps reach, a record that
was taken, and lies above everything that was acknowledged or discarded, is returned by
`Peek` or lies in the range of a marker that `Peek` returns, for all bounds from some on. -/
theorem taken_is_peeked (lawful : codec.Lawful) {sys : System} {r : Record}
    (reached : (spoolLife codec).Reaches (Tolerable codec) sys) (isOpen : sys.spool = some s)
    (taken : r ∈ sys.appended) (above : sys.floor < r.sequence) :
    ∃ bound, ∀ maxRecords ≥ bound, ∀ maxBytes ≥ bound, ∃ out,
      ((peek codec s maxRecords maxBytes).run calm sys.dir []).1 = some (.ok out) ∧
        Present r out := by
  have custody := custody_of_reaches lawful reached
  rw [Custody, isOpen] at custody
  obtain ⟨cells, alive⟩ := custody
  refine ⟨max (recordsOf cells).length (fileOf codec (recordsOf cells)).length, ?_⟩
  intro maxRecords many maxBytes wide
  exact ⟨recordsOf cells, alive.peeks_all lawful ((le_max_left _ _).trans many)
    ((le_max_right _ _).trans wide), alive.keeps.present r taken above⟩

/-! ### Runs -/

/-- The first operation at a site fails part way. -/
def failing (site : Site) (done : ℕ) : Oracle Site String :=
  ⟨fun at_ n => if at_ = site ∧ n = 0 then .fail "no space left on device" done else .ok,
    fun _ => 0⟩

lemma site_of_failing {site at_ : Site} {done : ℕ} (fails : (failing site done).FailsAt at_) :
    at_ = site := by
  obtain ⟨cause, done', n, answer⟩ := fails
  by_contra other
  simp [failing, other] at answer

/-- A write that stops after twenty bytes, and an append that follows. -/
def tornRun : List Label :=
  [.open_ (complete 600 150) (fun _ => 7) calm,
    .call (.append 1 [] none) (failing .appendWrite 20),
    .call (.append 2 [] none) calm]

/-- `Peek` with the widest bounds returns nothing. -/
def System.peeksNothing (sys : System) : Bool :=
  sys.spool.any fun s =>
    match ((peek columns s (2 ^ 63 - 1) (2 ^ 63 - 1)).run calm sys.dir []).1 with
    | some (.ok out) => out = []
    | _ => false

/-- The append that follows on a torn line returned nil, and `Peek` returns nothing. -/
theorem torn_line_swallows :
    ∃ sys s r, (spoolLife columns).Reaches (fun _ _ => True) sys ∧ sys.spool = some s ∧
      r ∈ sys.appended ∧ sys.floor < r.sequence ∧
      ((peek columns s (2 ^ 63 - 1) (2 ^ 63 - 1)).run calm sys.dir []).1 = some (.ok []) := by
  have enacted : (spoolLife columns).Enacts (System.act columns) System.start :=
    ⟨rfl, fun _ _ _ => System.step_of_act⟩
  obtain ⟨sys, reached, zero, ⟨r, taken, positive⟩, nothing⟩ := enacted.reaches_any tornRun
    (fun sys => sys.floor = 0 ∧ (∃ r ∈ sys.appended, 0 < r.sequence) ∧ sys.peeksNothing = true)
    (by decide +kernel)
  unfold System.peeksNothing at nothing
  rcases isOpen : sys.spool with _ | s
  · simp [isOpen] at nothing
  rw [isOpen, any_some] at nothing
  refine ⟨sys, s, r, reached, isOpen, taken, zero ▸ positive, ?_⟩
  split at nothing
  · rename_i out peeks
    rw [peeks, of_decide_eq_true nothing]
  · cases nothing

/-- A run with faults that the spool survives: a write stops part way, a peek cuts the torn
line, the next append succeeds, the process leaves and the spool is opened again. -/
def faultyRun : List Label :=
  [.open_ (complete 600 150) (fun _ => 7) calm,
    .call (.append 1 [] none) calm,
    .call (.append 2 [] none) (failing .appendWrite 20),
    .call (.peek 10 1000) calm,
    .call (.append 3 [] none) calm,
    .exit,
    .open_ (complete 600 150) (fun _ => 7) calm]

/-- The condition on an append, evaluated. -/
def System.fresh (sys : System) (s : Spool) (record : Record) : Bool :=
  s.lastSeq + 1 < 2 ^ 63 ∧
  (s.segs.getLast?.all fun newest => (sys.dir[newest.path]?).all fun bytes =>
    (parse columns bytes).2 = bytes.length) ∧
  (∀ x ∈ onDisk columns sys.dir s, x.upper ≤ s.lastSeq) ∧
  ((s.opened columns record).segs ≠ s.segs → (∀ seg ∈ s.segs, seg.first ≤ s.lastSeq) ∧
    (sys.dir[segmentName (s.lastSeq + 1)]?).getD [] = [])

lemma System.fresh.holds {s : Spool} {record : Record} (fresh : sys.fresh s record = true)
    (opens : ¬ oracle.FailsAt .appendOpen) :
    Fresh columns oracle sys.dir s record := by
  obtain ⟨room, whole, low, new⟩ := of_decide_eq_true fresh
  refine ⟨fun newest last bytes file => ?_, low, room, fun started => ?_⟩
  · rw [mem_def.mp last, all_some, mem_def.mp file, all_some] at whole
    exact of_decide_eq_true whole
  · exact ⟨(new started).1, (new started).2, opens⟩

/-- The conditions on the calls of the run, evaluated. -/
def System.tolerates (sys : System) : Label → Bool
  | .call (.append atTime samples drives) oracle => sys.spool.all fun s =>
    sys.events columns (.append atTime samples drives) oracle s = [] ∧
    sys.fresh s { sequence := 0, «at» := atTime, samples := samples, driveHealth := drives }
  | .call op oracle => sys.spool.all fun s => sys.events columns op oracle s = []
  | _ => true

lemma quiet_events {events : List Event} (nothing : events = []) :
    ¬ Renaming events ∧ Marks events := by
  subst nothing
  refine ⟨?_, ?_⟩
  · rintro ⟨path, old, -, last⟩
    cases last
  · rintro path ⟨⟩

lemma append_tolerable {atTime : ℤ} (steady : Steady oracle) (opens : ¬ oracle.FailsAt .appendOpen)
    (tolerates : sys.tolerates (.call (.append atTime [] none) oracle) = true) :
    Tolerable columns sys (.call (.append atTime [] none) oracle) := by
  refine ⟨steady, fun s isOpen => ?_⟩
  rw [System.tolerates, isOpen, all_some] at tolerates
  obtain ⟨nothing, fresh⟩ := of_decide_eq_true tolerates
  have holds := System.fresh.holds fresh opens
  refine ⟨holds.room, trivial, (quiet_events nothing).1, (quiet_events nothing).2, ?_⟩
  rintro _ _ _ ⟨⟩
  exact holds

lemma steady_calm : Steady calm :=
  ⟨calm_faultless.not_failsAt _, calm_faultless.not_failsAt _, calm_faultless.not_failsAt _⟩

lemma steady_failing_appendWrite (done : ℕ) : Steady (failing .appendWrite done) := by
  refine ⟨fun fails => ?_, fun fails => ?_, fun fails => ?_⟩
  all_goals
    have same := site_of_failing fails
    cases same

lemma faultyRun_tolerable : ∀ label ∈ faultyRun, ∀ sys, sys.tolerates label = true →
    Tolerable columns sys label := by
  have opens : ¬ (failing .appendWrite 20).FailsAt .appendOpen := fun fails => by
    have same := site_of_failing fails
    cases same
  simp only [faultyRun, forall_mem_cons, not_mem_nil, false_imp_iff, implies_true,
    and_true]
  refine ⟨fun _ _ => steady_calm.reads, fun _ => append_tolerable steady_calm
      (calm_faultless.not_failsAt _), fun _ => append_tolerable (steady_failing_appendWrite 20) opens,
    fun sys tolerates => ⟨steady_calm, fun s isOpen => ?_⟩, fun _ => append_tolerable steady_calm
      (calm_faultless.not_failsAt _), fun _ _ => trivial, fun _ _ => steady_calm.reads⟩
  rw [System.tolerates, isOpen, all_some] at tolerates
  · obtain ⟨orderly, marks⟩ := quiet_events (of_decide_eq_true tolerates)
    exact ⟨trivial, trivial, orderly, marks, by rintro _ _ _ ⟨⟩⟩
  · rintro _ _ _ ⟨⟩

/-- The theorem at that run: both records that were taken are there. -/
theorem taken_is_peeked_faulty :
    ∃ sys s, (spoolLife columns).Reaches (Tolerable columns) sys ∧ sys.spool = some s ∧
      sys.appended.map Record.sequence = [1, 2] ∧
      ∀ r ∈ sys.appended, ∃ bound, ∀ maxRecords ≥ bound, ∀ maxBytes ≥ bound, ∃ out,
        ((peek columns s maxRecords maxBytes).run calm sys.dir []).1 = some (.ok out) ∧
          Present r out := by
  have evaluated : (System.start.acts columns System.tolerates faultyRun).any (fun sys =>
      (∃ s ∈ sys.spool, True) ∧ sys.appended.map Record.sequence = [1, 2] ∧
        ∀ r ∈ sys.appended, sys.floor < r.sequence) = true := by decide +kernel
  obtain ⟨sys, acted, passes⟩ := (any_eq_true _ _).mp evaluated
  obtain ⟨⟨s, isOpen, -⟩, sequences, above⟩ := of_decide_eq_true passes
  have reached := System.reaches_of_acts faultyRun_tolerable acted
  exact ⟨sys, s, reached, isOpen, sequences, fun r taken =>
    taken_is_peeked columns_lawful reached isOpen taken (above r taken)⟩

end TechStack.Telemetry
