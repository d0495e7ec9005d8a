import TechStack.ServerRegistry.EventLog

/-!
# The availability report of a server

The report folds the connection transitions of a server into segments, in the order of the times
at which they were observed.  The sweeper stamps its demotions with the clock of the control
plane, and a Guard stamps its heartbeats with its own, which may be behind: a recovery that was
observed before the demotion it ends is folded before it, and the report ends with the server
down (`lagging_recovery_reported_down`).  As long as changes of the connection are observed in
the order in which they are written, the report ends in the state of the row
(`report_ends_in_connection`).
-/

namespace TechStack.ServerRegistry

open List Option Lib

/-! ### The report -/

structure Window where
  start : ℤ
  end_ : ℤ

structure Segment where
  state : String
  from_ : ℤ
  to_ : ℤ

/-- `availability.Input`; `enrolledAt` is none for the zero time. -/
structure Input where
  enrolledAt : Option ℤ
  currentState : String
  transitions : List Transition

/-- The order of the report: by time, and by number at the same time. -/
def Transition.Before (a b : Transition) : Prop :=
  if a.observedAt = b.observedAt then a.id ≤ b.id else a.observedAt < b.observedAt

instance : DecidableRel Transition.Before := fun a b =>
  inferInstanceAs (Decidable (if a.observedAt = b.observedAt then a.id ≤ b.id
    else a.observedAt < b.observedAt))

/-- `connectionTransitions`. -/
def connectionTransitions (window : Window) (all : List Transition) : List Transition :=
  (all.filter fun t => t.dimension = .connection ∧ window.start ≤ t.observedAt ∧
    t.observedAt ≤ window.end_).insertionSort Transition.Before

/-- The loop of `buildSegments`, from a time and a state. -/
def segmentsFrom (end_ : ℤ) : ℤ → String → List Transition → List Segment
  | cursor, state, [] => if cursor < end_ then [⟨state, cursor, end_⟩] else []
  | cursor, state, t :: rest =>
    if cursor < t.observedAt then
      ⟨state, cursor, t.observedAt⟩ :: segmentsFrom end_ t.observedAt (trimSpace t.toState) rest
    else segmentsFrom end_ cursor (trimSpace t.toState) rest

/-- `buildSegments`. -/
def buildSegments (window : Window) (input : Input) (transitions : List Transition) :
    List Segment :=
  let start := match input.enrolledAt with
    | some enrolled => if window.start < enrolled then enrolled else window.start
    | none => window.start
  let state := match transitions with
    | first :: _ => trimSpace first.fromState
    | [] => trimSpace input.currentState
  if start < window.end_ then segmentsFrom window.end_ start state transitions else []

/-- The segments of `BuildServerReport`. -/
def reportSegments (window : Window) (input : Input) : List Segment :=
  if window.start < window.end_ then
    buildSegments window input (connectionTransitions window input.transitions)
  else []

/-- The input for a row and its transitions. -/
def Registry.input {ρ : Type} (s : Registry ρ) (row : Server) : Input :=
  ⟨some row.createdAt, row.connectionState, s.transitions⟩

/-! ### Commands and their times -/

/-- A number of seconds, in nanoseconds. -/
def seconds (n : ℤ) : ℤ := n * 1000000000

/-- `FreshHeartbeatWindow` and `StaleHeartbeatWindow`. -/
def freshHeartbeatWindow : ℤ := seconds 90

def staleHeartbeatWindow : ℤ := seconds 300

def guardObservationSkewWindow : ℤ := seconds 300

/-- `EffectiveDemotion`: the connection that the age of the last heartbeat leaves, and why. -/
def effectiveDemotion (now : ℤ) (server : Server) : Option (String × String) :=
  server.lastHeartbeatAt.bind fun heartbeatAt =>
    if trimSpace server.workerID = "" ∨ trimSpace server.sourceEpoch = "" ∨
        server.sourceAuthority ≠ authorityGuard ∨
        trimSpace server.sourceID ≠ trimSpace server.workerID then none
    else if ["decommissioning", "decommissioned"].contains (trimSpace server.lifecycleState) then
      none
    else if !(["connected", "degraded", "stale"].contains (trimSpace server.connectionState)) then
      none
    else
      let derived :=
        if staleHeartbeatWindow < now - heartbeatAt then some ("offline", "heartbeat_expired")
        else if freshHeartbeatWindow < now - heartbeatAt then some ("stale", "heartbeat_stale")
        else none
      derived.filter fun (connection, _) =>
        !(server.connectionState == connection && server.healthState == "unknown")

variable {π ρ : Type}

/-- `DemotionCommand`: the sweeper's write for a row. -/
def demotionCommand (now : ℤ) (server : Server) (payload : π) : Option (Event π) :=
  (effectiveDemotion now server).map fun (connection, reason) =>
    { tenantID := server.tenantID
      expectedRevision := server.revision
      generation := server.generation
      authority := authorityControlPlane
      source := sweeperSource
      sourceID := sweeperSource
      observedAt := some now
      outcome := some ⟨"degraded", reason⟩
      runtime := {
        connectionState := connection
        healthState := "unknown"
        connectionReasonCode := reason
        healthReasonCode := reason }
      payload := payload }

/-- A command that arrives at a time of the control plane.  The clock of a Guard may be behind by
the skew that is admitted; a demotion is one that the row had earned when the sweeper looked. -/
structure Timely (s : Registry ρ) (now : ℤ) (e : Event π) : Prop where
  guard : trimSpace e.authority = authorityGuard →
    now - guardObservationSkewWindow ≤ e.instant now ∧ e.instant now ≤ now
  controlPlane : trimSpace e.authority ≠ authorityGuard → e.instant now ≤ now
  sweeper : trimSpace e.source = sweeperSource → ∃ row kept swept, s.row = some (row, kept) ∧
    swept ≤ now ∧ demotionCommand swept row e.payload = some e

/-- A registry with the receipt of the last command. -/
def timed (g : Setting π ρ) : Machine (Registry ρ × ℤ) (ℤ × Event π) where
  init s := s.1 = {}
  step s command s' := s.2 ≤ command.1 ∧ Timely s.1 command.1 command.2 ∧
    s' = ((s.1.applyServerEvent g command.1 command.2).1, command.1)

/-! ### The last segment -/

/-- The loop ends in the state that the last transition leads to. -/
lemma getLast?_segmentsFrom {end_ : ℤ} {transitions : List Transition} {cursor : ℤ}
    {state : String} (started : cursor < end_) (inside : ∀ t ∈ transitions, t.observedAt < end_) :
    (segmentsFrom end_ cursor state transitions).getLast?.map (·.state) =
      some ((transitions.getLast?.map fun t => trimSpace t.toState).getD state) := by
  induction transitions generalizing cursor state with
  | nil => simp [segmentsFrom, started]
  | cons t rest ih =>
    have later : ∀ t' ∈ rest, t'.observedAt < end_ :=
      fun t' mem => inside t' (mem_cons_of_mem t mem)
    have last : ((t :: rest).getLast?.map fun t => trimSpace t.toState).getD state =
        (rest.getLast?.map fun t => trimSpace t.toState).getD (trimSpace t.toState) := by
      rw [getLast?_cons]
      cases rest.getLast? <;> rfl
    rw [last, segmentsFrom]
    split
    · obtain ⟨segment, ends, same⟩ :=
        map_eq_some_iff.mp (ih (inside t mem_cons_self) later)
      rw [getLast?_cons, ends]
      exact congrArg some same
    · exact ih started later

lemma Transition.before_of_le {a b : Transition} (time : a.observedAt ≤ b.observedAt)
    (number : a.id ≤ b.id) : a.Before b := by
  unfold Transition.Before
  split
  case isTrue => exact number
  case isFalse apart => exact lt_of_le_of_ne time apart

lemma Transition.Before.le {a b : Transition} (before : a.Before b) :
    a.observedAt ≤ b.observedAt := by
  unfold Transition.Before at before
  split at before
  case isTrue same => exact same.le
  case isFalse => exact le_of_lt before

/-- The connection transitions in the order in which they were written. -/
def connections (all : List Transition) : List Transition :=
  all.filter fun t => t.dimension = .connection

variable {l : List Transition}

section

variable {window : Window} {all : List Transition}

/-- A transition that a report looks at. -/
def Window.covers (window : Window) (t : Transition) : Bool :=
  window.start ≤ t.observedAt && t.observedAt ≤ window.end_

/-- Transitions that were observed in order are not moved. -/
lemma connectionTransitions_eq (sorted : (connections all).Pairwise Transition.Before) :
    connectionTransitions window all = (connections all).filter window.covers := by
  have same : (all.filter fun t => t.dimension = .connection ∧ window.start ≤ t.observedAt ∧
      t.observedAt ≤ window.end_) = (connections all).filter window.covers := by
    rw [connections, List.filter_filter]
    refine List.filter_congr fun t _ => ?_
    simp [Window.covers, Bool.and_comm]
  rw [connectionTransitions, same]
  exact (sorted.filter _).insertionSort_eq

/-- A window that ends later covers the last transition, or none at all. -/
lemma getLast?_covered (sorted : l.Pairwise Transition.Before)
    (inside : ∀ t ∈ l, t.observedAt < window.end_) :
    l.filter window.covers = [] ∨ (l.filter window.covers).getLast? = l.getLast? := by
  induction l using List.reverseRecOn with
  | nil => exact .inl rfl
  | append_singleton l last _ =>
    rw [filter_append]
    by_cases covered : window.covers last = true
    · refine .inr ?_
      rw [filter_cons_of_pos covered, filter_nil, getLast?_concat,
        getLast?_concat]
    · refine .inl ?_
      -- The last transition was observed before the window, and so was every other one.
      have early : last.observedAt < window.start := by
        have below := inside last (by simp)
        simp only [Window.covers, Bool.and_eq_true, decide_eq_true_eq, not_and, not_le] at covered
        by_contra late
        exact absurd (covered (not_lt.mp late)) (not_lt.mpr below.le)
      rw [filter_cons_of_neg covered, filter_nil, append_nil]
      refine filter_eq_nil_iff.mpr fun t mem covers => ?_
      have order := ((pairwise_append.mp sorted).2.2 t mem last (by simp)).le
      simp only [Window.covers, Bool.and_eq_true, decide_eq_true_eq] at covers
      omega

/-- The report ends in the state of the row. -/
lemma getLast?_reportSegments {input : Input} {state : String} {enrolled : ℤ}
    (sorted : (connections input.transitions).Pairwise Transition.Before)
    (leads : (connections input.transitions).getLast?.map (·.toState) = some state)
    (current : input.currentState = state) (enrolledAt : input.enrolledAt = some enrolled)
    (opens : window.start < window.end_) (exists_ : enrolled < window.end_)
    (inside : ∀ t ∈ connections input.transitions, t.observedAt < window.end_) :
    (reportSegments window input).getLast?.map (·.state) = some (trimSpace state) := by
  have started : (if window.start < enrolled then enrolled else window.start) < window.end_ := by
    split <;> assumption
  have within : ∀ t ∈ (connections input.transitions).filter window.covers,
      t.observedAt < window.end_ := fun t mem => inside t (List.mem_of_mem_filter mem)
  rw [reportSegments, if_pos opens, connectionTransitions_eq sorted]
  unfold buildSegments
  rw [enrolledAt]
  dsimp only
  rw [if_pos started, getLast?_segmentsFrom started within]
  rcases getLast?_covered sorted inside with none_ | last
  · rw [none_, current]
    rfl
  · obtain ⟨t, ends, same⟩ := map_eq_some_iff.mp leads
    rw [last, ends, map_some, getD_some, same]

end

/-! ### Changes that are observed in order -/

/-- A change of the connection is observed no earlier than those before it, and a connection is
sent without space around it. -/
structure InOrder (g : Setting π ρ) (s : Registry ρ × ℤ) (command : ℤ × Event π) : Prop where
  solid : trimSpace command.2.runtime.connectionState = command.2.runtime.connectionState
  ordered : ∀ row kept row' kept', s.1.row = some (row, kept) →
    (s.1.applyServerEvent g command.1 command.2).1.row = some (row', kept') →
    row'.connectionState ≠ row.connectionState ∨
      row'.connectionReasonCode ≠ row.connectionReasonCode →
    ∀ t ∈ connections s.1.transitions, t.observedAt ≤ command.2.instant command.1

/-- The connection transitions are in order, and nothing is later than the clock. -/
structure Dated (s : Registry ρ × ℤ) : Prop where
  grounded : Grounded s.1
  sorted : (connections s.1.transitions).Pairwise Transition.Before
  numbered : ∀ t ∈ s.1.transitions, t.id ≤ s.1.nextID
  heard : ∀ t ∈ s.1.transitions, t.observedAt ≤ s.2
  created : ∀ row kept, s.1.row = some (row, kept) → row.createdAt ≤ s.2
  solid : ∀ row kept, s.1.row = some (row, kept) →
    trimSpace row.connectionState = row.connectionState

/-- Numbers rise, and nothing else changes. -/
lemma mem_numbered {n : ℕ} {t : Transition} (mem : t ∈ numbered n l) :
    n < t.id ∧ t.id ≤ n + l.length ∧
      ∃ t' ∈ l, t'.dimension = t.dimension ∧ t'.observedAt = t.observedAt := by
  induction l generalizing n with
  | nil => cases mem
  | cons first rest ih =>
    rcases mem_cons.mp mem with rfl | later
    · exact ⟨Nat.lt_succ_self n, by simp, first, mem_cons_self, rfl, rfl⟩
    · obtain ⟨above, below, t', inside, same⟩ := ih later
      refine ⟨by omega, by simp only [length_cons]; omega, t',
        mem_cons_of_mem first inside, same⟩

lemma pairwise_numbered (n : ℕ) (l : List Transition) :
    (numbered n l).Pairwise fun a b => a.id < b.id := by
  induction l generalizing n with
  | nil => exact .nil
  | cons first rest ih =>
    exact pairwise_cons.mpr ⟨fun t later => (mem_numbered later).1, ih (n + 1)⟩

section

variable {previous : Option Server} {current : Server} {e' : Event π} {observedAt : ℤ}
  {t : Transition}

/-- A transition of a state says that the state or its reason has changed. -/
lemma stateTransition_some {d : Dimension}
    (found : stateTransition previous current e' observedAt d = some t) :
    t.dimension = d ∧ t.observedAt = observedAt ∧ ∀ row, previous = some row →
      current.state d ≠ row.state d ∨ current.reason d ≠ row.reason d := by
  obtain ⟨changed, made⟩ := ite_none_left_eq_some.mp found
  cases made
  refine ⟨rfl, rfl, fun row held => ?_⟩
  subst held
  by_contra same
  simp only [ne_eq, not_or, not_not] at same
  exact changed (.inr ⟨same.1.symm, same.2.symm⟩)

/-- All transitions of an event have its time, and the one of the connection is a change. -/
lemma mem_serverEventTransitions (mem : t ∈ serverEventTransitions previous current e' observedAt) :
    t.observedAt = observedAt ∧ (t.dimension = .connection → ∀ row, previous = some row →
      current.connectionState ≠ row.connectionState ∨
        current.connectionReasonCode ≠ row.connectionReasonCode) := by
  rcases mem_append.mp mem with state | outcome
  · obtain ⟨d, -, found⟩ := mem_filterMap.mp state
    obtain ⟨rfl, time, changed⟩ := stateTransition_some found
    refine ⟨time, fun dimension row held => ?_⟩
    rw [dimension] at changed
    exact changed row held
  · obtain ⟨-, made⟩ := ite_none_right_eq_some.mp (mem_toList.mp outcome)
    cases made
    exact ⟨rfl, fun dimension => nomatch dimension⟩

end

variable {g : Setting π ρ} {s : Registry ρ} {clock now : ℤ} {e : Event π}

/-- What is written next comes after what was written before. -/
lemma Dated.sorted_snoc (dated : Dated (s, clock)) {instant : ℤ}
    (times : ∀ t ∈ l, t.observedAt = instant) (ordered : (∃ t ∈ l, t.dimension = .connection) →
      ∀ t ∈ connections s.transitions, t.observedAt ≤ instant) :
    (connections (s.transitions ++ TechStack.ServerRegistry.numbered s.nextID l)).Pairwise
      Transition.Before := by
  have time : ∀ t ∈ TechStack.ServerRegistry.numbered s.nextID l, t.observedAt = instant := by
    intro t mem
    obtain ⟨-, -, t', inside, -, same⟩ := mem_numbered mem
    exact same.symm.trans (times t' inside)
  rw [connections, filter_append, pairwise_append]
  refine ⟨dated.sorted, ?_, fun old before new after => ?_⟩
  · refine ((pairwise_numbered s.nextID l).imp_of_mem fun {a b} left right less => ?_).filter _
    exact Transition.before_of_le ((time a left).trans (time b right).symm).le less.le
  · obtain ⟨mem, connection⟩ := mem_filter.mp after
    obtain ⟨above, -, t', inside, dimension, -⟩ := mem_numbered mem
    have below := dated.numbered old (List.mem_of_mem_filter before)
    refine Transition.before_of_le ?_ (below.trans above.le)
    rw [time new mem]
    exact ordered ⟨t', inside, dimension.trans (of_decide_eq_true connection)⟩ old before

/-- A connection is stored as it was sent. -/
lemma Writes.solid {server : Server} {e' : Event π} (writes : Writes s now e server e')
    (held : ∀ row kept, s.row = some (row, kept) →
      trimSpace row.connectionState = row.connectionState)
    (sent : trimSpace e.runtime.connectionState = e.runtime.connectionState) :
    trimSpace server.connectionState = server.connectionState := by
  have pending : trimSpace "pending" = "pending" := by decide +kernel
  cases writes with
  | @observes row _ rest outcome found authority named generation source open_ unseen fresh shows_
      connection =>
      rw [connection]
      exact trimSpace_patched sent (held row rest found)
  | creates outcome missing authority shows_ connection =>
    rcases connection with same | same
    · rw [same, pending]
    · rw [same]
      exact trimSpace_patched sent pending
  | @projects row _ rest outcome found authority lifecycle shows_ connection =>
    rcases connection with same | same | same
    · rw [same]
      exact held row rest found
    · rw [same, pending]
    · rw [same]
      exact trimSpace_patched sent (held row rest found)

lemma Dated.createdAt_le (dated : Dated (s, clock)) (later : clock ≤ now) :
    s.createdAt now ≤ now := by
  unfold Registry.createdAt
  cases found : s.row with
  | none => exact le_rfl
  | some held => exact (dated.created held.1 held.2 found).trans later

lemma Timely.instant_le (timely : Timely s now e) : e.instant now ≤ now := by
  by_cases guard : trimSpace e.authority = authorityGuard
  · exact (timely.guard guard).2
  · exact timely.controlPlane guard

/-- **A change that is observed in order keeps the transitions in order.** -/
lemma Dated.step (dated : Dated (s, clock)) (later : clock ≤ now) (timely : Timely s now e)
    (inOrder : InOrder g (s, clock) (now, e)) :
    Dated ((s.applyServerEvent g now e).1, now) := by
  have grounded := dated.grounded.step g now e
  by_cases applied : (s.applyServerEvent g now e).2 = .applied
  · obtain ⟨server, e', rest, writes, -, -, written⟩ :=
      writes_of_applied dated.grounded.positive applied
    have ordered := inOrder.ordered
    dsimp only at ordered
    rw [written] at grounded ordered ⊢
    constructor
    case grounded => exact grounded
    case sorted =>
      refine dated.sorted_snoc (fun t mem => (mem_serverEventTransitions mem).1) ?_
      rintro ⟨t, mem, connection⟩ old before
      cases found : s.row with
      | none =>
        have nothing := (dated.grounded.fresh found).1
        rw [nothing] at before
        cases before
      | some held =>
        refine ordered held.1 held.2 _ rest found rfl ?_ old before
        exact (mem_serverEventTransitions mem).2 connection held.1 (congrArg _ found)
    case numbered =>
      intro t mem
      rcases mem_append.mp mem with old | new
      · exact (dated.numbered t old).trans (by dsimp only [Registry.commit]; omega)
      · exact (mem_numbered new).2.1.trans (by dsimp only [Registry.commit]; omega)
    case heard =>
      intro t mem
      rcases mem_append.mp mem with old | new
      · exact (dated.heard t old).trans later
      · obtain ⟨-, -, t', inside, -, same⟩ := mem_numbered new
        rw [← same, (mem_serverEventTransitions inside).1]
        exact timely.instant_le
    case created =>
      intro row kept held
      cases held
      exact dated.createdAt_le later
    case solid => exact forall_commit_row fun _ => writes.solid dated.solid inOrder.solid
  · rw [eq_of_not_applied applied] at grounded ⊢
    exact { dated with
      heard := fun t mem => (dated.heard t mem).trans later
      created := fun row kept held => (dated.created row kept held).trans later }

lemma Dated.of_reaches (reached : (timed g).Reaches (InOrder g) (s, clock)) :
    Dated (s, clock) := by
  refine reached.invariant Dated ?_ ?_
  · rintro ⟨_, clock⟩ rfl
    have missing : ∀ (P : Prop) (row : Server × ρ), ({} : Registry ρ).row = some row → P :=
      fun P row held => (some_ne_none _ held.symm).elim
    exact ⟨.empty, .nil, fun t mem => (not_mem_nil mem).elim,
      fun t mem => (not_mem_nil mem).elim, fun row kept => missing _ (row, kept),
      fun row kept => missing _ (row, kept)⟩
  · rintro ⟨s, clock⟩ ⟨now, e⟩ _ dated inOrder ⟨later, timely, rfl⟩
    exact dated.step later timely inOrder

/-- **As long as changes of the connection are observed in order, the report of a window that
ends not before the last command, and on no change, ends in the connection of the row.** -/
theorem report_ends_in_connection (reached : (timed g).Reaches (InOrder g) (s, clock))
    {row : Server} {kept : ρ} (held : s.row = some (row, kept)) {window : Window}
    (starts : window.start < window.end_) (ends : clock ≤ window.end_)
    (apart : row.createdAt ≠ window.end_ ∧
      ∀ t ∈ connections s.transitions, t.observedAt ≠ window.end_) :
    (reportSegments window (s.input row)).getLast?.map (·.state) = some row.connectionState := by
  have dated := Dated.of_reaches reached
  have leads : (connections s.transitions).getLast?.map (·.toState) = some row.connectionState := by
    have chain := (dated.grounded.chained .connection (by decide) row kept held).ends
    rw [Registry.spans, List.getLast?_map, Option.map_map] at chain
    exact chain
  have inside : ∀ t ∈ connections s.transitions, t.observedAt < window.end_ := fun t member =>
    lt_of_le_of_ne ((dated.heard t (List.mem_of_mem_filter member)).trans ends) (apart.2 t member)
  refine (getLast?_reportSegments dated.sorted leads rfl rfl starts
    (lt_of_le_of_ne ((dated.created row kept held).trans ends) apart.1) inside).trans ?_
  exact congrArg some (dated.solid row kept held)

/-! ### Runs -/

/-- A heartbeat as the routes send it: the receipt is the last heartbeat, the Guard says when it
was observed, in seconds. -/
def beats (now observedAt expectedRevision sequence : ℤ) : Event Unit :=
  { tenantID := "tenant", expectedRevision := expectedRevision, generation := 1,
    authority := authorityGuard, source := "guard-heartbeat", sourceID := "worker",
    sourceEpoch := "epoch", sourceSequence := sequence, observedAt := some (seconds observedAt),
    clearConnectionReason := true, clearHealthReason := true, clearOutcome := true,
    outcomeResetReason := "guard_heartbeat_accepted", hasChannels := true,
    runtime := { connectionState := "connected", healthState := "healthy",
                 lastHeartbeatAt := some (seconds now) },
    payload := () }

/-- The demotion of the sweeper for a row with a worker. -/
def demotes (now expectedRevision : ℤ) : Event Unit :=
  { tenantID := "tenant", expectedRevision := expectedRevision, generation := 1,
    authority := authorityControlPlane, source := sweeperSource, sourceID := sweeperSource,
    observedAt := some (seconds now), outcome := some ⟨"degraded", "heartbeat_expired"⟩,
    runtime := { connectionState := "offline", healthState := "unknown",
                 connectionReasonCode := "heartbeat_expired",
                 healthReasonCode := "heartbeat_expired" },
    payload := () }

/-- `Timely`, as a check. -/
def timelyNow (s : Registry Unit) (now : ℤ) (e : Event Unit) : Bool :=
  (if trimSpace e.authority = authorityGuard then
    now - guardObservationSkewWindow ≤ e.instant now ∧ e.instant now ≤ now
  else e.instant now ≤ now) &&
    (trimSpace e.source != sweeperSource || s.row.any fun row =>
      decide (e.instant now ≤ now) && demotionCommand (e.instant now) row.1 e.payload == some e)

lemma timely_of_now {s : Registry Unit} {now : ℤ} {e : Event Unit}
    (checked : timelyNow s now e = true) : Timely s now e := by
  obtain ⟨times, sweeps⟩ := (Bool.and_eq_true _ _).mp checked
  constructor
  case guard =>
    intro guard
    rw [if_pos guard] at times
    exact of_decide_eq_true times
  case controlPlane =>
    intro other
    rw [if_neg other] at times
    exact of_decide_eq_true times
  case sweeper =>
    intro source
    rw [source] at sweeps
    obtain ⟨⟨row, kept⟩, held, earned⟩ := (Option.any_eq_true _ _).mp sweeps
    obtain ⟨past, command⟩ := (Bool.and_eq_true _ _).mp earned
    exact ⟨row, kept, e.instant now, held, of_decide_eq_true past, beq_iff_eq.mp command⟩

/-- A command at its time, in the open setting. -/
def tick (s : Registry Unit × ℤ) (command : ℤ × Event Unit) : Option (Registry Unit × ℤ) :=
  if s.2 ≤ command.1 ∧ timelyNow s.1 command.1 command.2 then
    some ((s.1.applyServerEvent openSetting command.1 command.2).1, command.1)
  else none

lemma timed_step (s : Registry Unit × ℤ) (command : ℤ × Event Unit) (s' : Registry Unit × ℤ)
    (ticked : tick s command = some s') : (timed openSetting).step s command s' := by
  obtain ⟨⟨later, timely⟩, made⟩ := ite_none_right_eq_some.mp ticked
  exact ⟨later, timely_of_now timely, (Option.some.inj made).symm⟩

/-- `InOrder`, as a check. -/
def inOrderNow (s : Registry Unit × ℤ) (command : ℤ × Event Unit) : Bool :=
  trimSpace command.2.runtime.connectionState == command.2.runtime.connectionState &&
    (connections s.1.transitions).all fun t => t.observedAt ≤ command.2.instant command.1

lemma inOrder_of_now (s : Registry Unit × ℤ) (command : ℤ × Event Unit)
    (checked : inOrderNow s command = true) : InOrder openSetting s command := by
  obtain ⟨solid, ordered⟩ := (Bool.and_eq_true _ _).mp checked
  exact ⟨beq_iff_eq.mp solid, fun _ _ _ _ _ _ _ t mem =>
    of_decide_eq_true (List.all_eq_true.mp ordered t mem)⟩

lemma ticks : (timed openSetting).Enacts tick ({}, 0) := ⟨rfl, timed_step⟩

/-- The connection of the row and the last state of a report. -/
def reported (window : Window) (s : Registry Unit × ℤ) : Option (String × Option String) :=
  s.1.row.map fun row =>
    (row.1.connectionState, (reportSegments window (s.1.input row.1)).getLast?.map (·.state))

/-- A worker whose clock is right is demoted and recovers. -/
theorem report_ends_in_connection_recovered :
    ∃ s row, (timed openSetting).Reaches (InOrder openSetting) s ∧ s.1.row = some (row, ()) ∧
      row.connectionState = "connected" ∧ (connections s.1.transitions).length = 4 ∧
      (reportSegments ⟨seconds 900, seconds 1500⟩ (s.1.input row)).getLast?.map (·.state) =
        some row.connectionState := by
  obtain ⟨⟨s, clock⟩, reached, ends, count, apart, ⟨row, kept⟩, held, created, connected⟩ :=
    ticks.reaches inOrderNow inOrder_of_now
    [(seconds 1000, enrolls), (seconds 1010, beats 1010 1010 1 1),
      (seconds 1400, demotes 1400 2), (seconds 1401, beats 1401 1401 3 2)]
    (fun s => s.2 ≤ seconds 1500 ∧ (connections s.1.transitions).length = 4 ∧
      (∀ t ∈ connections s.1.transitions, t.observedAt ≠ seconds 1500) ∧
      ∃ row ∈ s.1.row, row.1.createdAt ≠ seconds 1500 ∧ row.1.connectionState = "connected")
    (by decide +kernel)
  exact ⟨(s, clock), row, reached, held, connected, count,
    report_ends_in_connection reached held (by decide) ends ⟨created, apart⟩⟩

/-- Any command at its time. -/
def anyTick : Registry Unit × ℤ → ℤ × Event Unit → Prop := fun _ _ => True

/-- A worker whose clock is a minute behind is demoted and recovers: the row is connected, and
the report ends offline.  A report that ends at the recovery has no segment for it either. -/
theorem lagging_recovery_reported_down :
    (∃ s, (timed openSetting).Reaches anyTick s ∧ s.2 ≤ seconds 1500 ∧
      reported ⟨seconds 900, seconds 1500⟩ s = some ("connected", some "offline")) ∧
    ∃ s, (timed openSetting).Reaches anyTick s ∧ s.2 ≤ seconds 1010 ∧
      reported ⟨seconds 900, seconds 1010⟩ s = some ("connected", some "pending") := by
  constructor
  · exact ticks.reaches_any [(seconds 1000, enrolls), (seconds 1010, beats 1010 950 1 1),
      (seconds 1400, demotes 1400 2), (seconds 1401, beats 1401 1341 3 2)] _ (by decide +kernel)
  · exact ticks.reaches_any [(seconds 1000, enrolls), (seconds 1010, beats 1010 1010 1 1)] _
      (by decide +kernel)

end TechStack.ServerRegistry
