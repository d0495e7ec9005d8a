import TechStack.ServerRegistry.Model

/-!
# The heads that commands write

`Writes` says what head a command can write into the row of a server; whatever holds of the
registry over time follows from it.  A Guard observes: its event moves the position in its own
stream and leaves lifecycle and bindings.  The control plane creates the row or projects a command
onto it: a change of the bindings begins a new generation, in which no Guard event is known.
-/

namespace TechStack.ServerRegistry

open Lib Event Server

variable {π ρ : Type} {g : Setting π ρ} {s s' : Registry ρ} {now : ℤ} {e : Event π}

/-! ### What a command writes -/

@[simp] lemma prepared_runtime (e : Event π) (outcome : Option Decision) :
    (e.prepared outcome).runtime = e.runtime := by
  dsimp only [prepared, trimmed]

@[simp] lemma prepared_tenantID (e : Event π) (outcome : Option Decision) :
    (e.prepared outcome).tenantID = trimSpace e.tenantID := by
  dsimp only [prepared, trimmed]

@[simp] lemma prepared_sourceEpoch (e : Event π) (outcome : Option Decision) :
    (e.prepared outcome).sourceEpoch = trimSpace e.sourceEpoch := by
  dsimp only [prepared, trimmed]

@[simp] lemma prepared_sourceSequence (e : Event π) (outcome : Option Decision) :
    (e.prepared outcome).sourceSequence = e.sourceSequence := by
  dsimp only [prepared, trimmed]

/-- Worker, node, lease and provider. -/
abbrev Bindings := String × String × String × String

def Server.bindings (server : Server) : Bindings :=
  (server.workerID, server.nodeID, server.leaseID, server.providerRef)

/-- The last Guard event that a row knows of. -/
def Server.position (server : Server) : String × ℤ × Option ℤ :=
  (server.sourceEpoch, server.sourceSequence, server.sourceObservedAt)

/-- The bindings that a command leaves. -/
def patchedBindings (current incoming : Bindings) : Bindings :=
  (firstNonEmpty [incoming.1, current.1], firstNonEmpty [incoming.2.1, current.2.1],
    firstNonEmpty [incoming.2.2.1, current.2.2.1], firstNonEmpty [incoming.2.2.2, current.2.2.2])

/-- What a head shows of the counters, the owner, the lifecycle, the bindings and the Guard. -/
structure Shows (server : Server) (revision generation : ℤ) (tenantID lifecycleState : String)
    (bindings : Bindings) (position : String × ℤ × Option ℤ) : Prop where
  revision : server.revision = revision
  generation : server.generation = generation
  tenantID : server.tenantID = tenantID
  lifecycleState : server.lifecycleState = lifecycleState
  bindings : server.bindings = bindings
  position : server.position = position

/-- The head that a command writes, and the command as it was prepared. -/
inductive Writes (s : Registry ρ) (now : ℤ) (e : Event π) : Server → Event π → Prop where
  | observes {row server : Server} {rest : ρ} (outcome : Option Decision)
      (held : s.row = some (row, rest))
      (authority : trimSpace e.authority = authorityGuard)
      (named : trimSpace e.sourceEpoch ≠ "")
      (generation : e.generation = row.generation)
      (source : row.workerID = trimSpace e.sourceID)
      (open_ : ¬(row.lifecycleState = "decommissioning" ∨ row.lifecycleState = "decommissioned"))
      (unseen : ¬(trimSpace e.sourceEpoch ≠ row.sourceEpoch ∧
        s.epochs.contains e.epochKey = true))
      (fresh : guardEventIsStale row (e.prepared outcome) (e.instant now) = false)
      (shows_ : Shows server (row.revision + 1) row.generation (trimSpace e.tenantID)
        row.lifecycleState row.bindings
        (trimSpace e.sourceEpoch, e.sourceSequence, some (e.instant now)))
      (connection : server.connectionState = patched row.connectionState e.runtime.connectionState) :
      Writes s now e server (e.prepared outcome)
  | creates {server : Server} (outcome : Option Decision) (missing : s.row = none)
      (authority : trimSpace e.authority ≠ authorityGuard)
      (shows_ : Shows server 1 1 (trimSpace e.tenantID)
        (patched "planned" e.runtime.lifecycleState)
        (patchedBindings ("", "", "", "") e.runtime.bindings) ("", 0, none))
      (connection : server.connectionState = "pending" ∨
        server.connectionState = patched "pending" e.runtime.connectionState) :
      Writes s now e server (e.prepared outcome)
  | projects {row server : Server} {rest : ρ} (outcome : Option Decision)
      (held : s.row = some (row, rest))
      (authority : trimSpace e.authority ≠ authorityGuard)
      (lifecycle : e.runtime.lifecycleState = "" ∨
        e.runtime.lifecycleState = row.lifecycleState ∨
        validLifecycleTransition row.lifecycleState e.runtime.lifecycleState = true)
      (shows_ : Shows server (row.revision + 1)
        (if runtimeBindingsChanged row e.runtime then row.generation + 1 else row.generation)
        (trimSpace e.tenantID) (patched row.lifecycleState e.runtime.lifecycleState)
        (patchedBindings row.bindings e.runtime.bindings)
        (if runtimeBindingsChanged row e.runtime then ("", 0, none) else row.position))
      (connection : server.connectionState = row.connectionState ∨
        server.connectionState = "pending" ∨
        server.connectionState = patched row.connectionState e.runtime.connectionState) :
      Writes s now e server (e.prepared outcome)

/-- Revisions and generations count from one. -/
def Positive (s : Registry ρ) : Prop :=
  ∀ row rest, s.row = some (row, rest) → 0 < row.revision ∧ 0 < row.generation

lemma firstNonEmpty_of_ne {value : String} (nonblank : trimSpace value ≠ "") (rest : List String) :
    firstNonEmpty (value :: rest) = value := if_pos nonblank

lemma ne_of_contains {states : List String} {value : String} (known : states.contains value = true)
    (named : "" ∉ states) : value ≠ "" := by
  rintro rfl
  exact named (List.contains_iff_mem.mp known)

variable {server : Server}

section

variable (valid : validServerEventHead server = true)
include valid

/-- What the check of a head says of its states. -/
lemma states_of_valid :
    lifecycleStates.contains (trimSpace server.lifecycleState) = true ∧
      connectionStates.contains (trimSpace server.connectionState) = true ∧
      healthStates.contains (trimSpace server.healthState) = true ∧
      desiredStates.contains (trimSpace server.desiredState) = true := by
  simp only [validServerEventHead, Bool.and_eq_true] at valid
  obtain ⟨⟨⟨⟨⟨⟨-, lifecycle⟩, connection⟩, health⟩, desired⟩, -⟩, -⟩ := valid
  exact ⟨lifecycle, connection, health, desired⟩

lemma state_nonblank {d : Dimension} (mem : d ∈ dimensions) : trimSpace (server.state d) ≠ "" := by
  obtain ⟨lifecycle, connection, health, desired⟩ := states_of_valid valid
  cases d with
  | lifecycle => exact ne_of_contains lifecycle (by decide)
  | desired => exact ne_of_contains desired (by decide)
  | connection => exact ne_of_contains connection (by decide)
  | health => exact ne_of_contains health (by decide)
  | outcome => exact absurd mem (by decide)

/-- The defaults leave a head alone that was checked. -/
lemma withDefaults_eq (revision : 0 < server.revision) (generation : 0 < server.generation) :
    server.withDefaults = server := by
  have lifecycle : trimSpace server.lifecycleState ≠ "" :=
    state_nonblank valid (d := .lifecycle) (by decide)
  have desired : trimSpace server.desiredState ≠ "" :=
    state_nonblank valid (d := .desired) (by decide)
  have connection : trimSpace server.connectionState ≠ "" :=
    state_nonblank valid (d := .connection) (by decide)
  have health : trimSpace server.healthState ≠ "" :=
    state_nonblank valid (d := .health) (by decide)
  simp only [withDefaults, firstNonEmpty_of_ne lifecycle, firstNonEmpty_of_ne desired,
    firstNonEmpty_of_ne connection, firstNonEmpty_of_ne health, if_neg (not_le.mpr revision),
    if_neg (not_le.mpr generation)]

end

/-! ### The fields of a head -/

section

variable {e' : Event π} {current : Option Server} {generation : ℤ}

/-- What a demotion does not touch is what the control plane asks for. -/
lemma patch_of_kept {α : Type} (f : Server → α) (next : Server) (e' : Event π)
    (demoted : ∀ n patch, f (observeStates n patch e') = f n) :
    f (applyControlPlaneServerPatch next e') = f (applyOwnedPatch next e') := by
  unfold applyControlPlaneServerPatch
  split
  · exact demoted _ _
  · rfl

/-- What a demotion, a reset and the outcome do not touch is what the control plane asks for. -/
lemma projected_of_kept {α : Type} (f : Server → α) (reset : ∀ n, f (resetGuard n) = f n)
    (demoted : ∀ n patch, f (observeStates n patch e') = f n)
    (outcome : ∀ n generation, f { applyServerOutcomePatch n e' with generation := generation } =
      f n) :
    f (projected g current e' generation) =
      f (applyOwnedPatch (baseServerRuntime g current e') e') := by
  unfold projected
  dsimp only
  split
  · exact (reset _).trans ((outcome _ _).trans (patch_of_kept f _ e' demoted))
  · exact (outcome _ _).trans (patch_of_kept f _ e' demoted)

lemma projected_position : (projected g current e' generation).position =
    if current.any (runtimeBindingsChanged · e'.runtime) then ("", 0, none)
    else (baseServerRuntime g current e').position := by
  unfold projected
  dsimp only
  split
  · rfl
  · have kept := patch_of_kept position (baseServerRuntime g current e') e' fun _ _ => rfl
    dsimp only [position, applyOwnedPatch] at kept
    dsimp only [position, applyServerOutcomePatch]
    exact kept

/-- What the control plane asks for shows in the head. -/
lemma shows_projected (g : Setting π ρ) (current : Option Server) (e' : Event π) (generation : ℤ) :
    Shows (projected g current e' generation).revised
      ((baseServerRuntime g current e').revision + 1) generation
      (baseServerRuntime g current e').tenantID
      (patched (baseServerRuntime g current e').lifecycleState e'.runtime.lifecycleState)
      (patchedBindings (baseServerRuntime g current e').bindings e'.runtime.bindings)
      (if current.any (runtimeBindingsChanged · e'.runtime) then ("", 0, none)
        else (baseServerRuntime g current e').position) := by
  constructor
  case revision =>
    dsimp only [revised]
    rw [projected_of_kept (·.revision) (fun _ => rfl) (fun _ _ => rfl) (fun _ _ => rfl)]
    dsimp only [applyOwnedPatch]
  case generation =>
    unfold projected
    dsimp only [revised]
    split <;> rfl
  case tenantID =>
    dsimp only [revised]
    rw [projected_of_kept (·.tenantID) (fun _ => rfl) (fun _ _ => rfl) (fun _ _ => rfl)]
    dsimp only [applyOwnedPatch]
  case lifecycleState =>
    dsimp only [revised]
    rw [projected_of_kept (·.lifecycleState) (fun _ => rfl) (fun _ _ => rfl) (fun _ _ => rfl)]
    dsimp only [applyOwnedPatch]
  case bindings =>
    have kept (n : Server) : n.revised.bindings = n.bindings := rfl
    rw [kept, projected_of_kept (·.bindings) (fun _ => rfl) (fun _ _ => rfl) (fun _ _ => rfl)]
    dsimp only [bindings, applyOwnedPatch, patchedBindings]
  case position =>
    have kept (n : Server) : n.revised.position = n.position := rfl
    rw [kept, projected_position]

/-- The connection is the one of the row, a new one, or the one that a sweeper asks for. -/
lemma connection_projected (g : Setting π ρ) (current : Option Server) (e' : Event π)
    (generation : ℤ) :
    (projected g current e' generation).connectionState =
        (baseServerRuntime g current e').connectionState ∨
      (projected g current e' generation).connectionState = "pending" ∨
      (projected g current e' generation).connectionState =
        patched (baseServerRuntime g current e').connectionState e'.runtime.connectionState := by
  unfold projected
  dsimp only
  split
  · refine .inr (.inl ?_)
    dsimp only [resetGuard]
  · rw [applyServerOutcomePatch, applyControlPlaneServerPatch]
    split
    · refine .inr (.inr ?_)
      dsimp only [observeStates, applyOwnedPatch]
    · refine .inl ?_
      dsimp only [applyOwnedPatch]

lemma expectedGeneration_none : expectedGeneration none e' = 1 := by
  simp [expectedGeneration, heldGeneration]

lemma expectedGeneration_some {row : Server} : expectedGeneration (some row) e' =
    if runtimeBindingsChanged row e'.runtime then row.generation + 1 else row.generation := by
  simp [expectedGeneration, heldGeneration]

lemma Server.revised_connectionState (server : Server) :
    server.revised.connectionState = server.connectionState := by
  dsimp only [revised]

lemma trimSpace_empty : trimSpace "" = "" := by decide +kernel

/-- A row before anything was asked for. -/
lemma base_none (g : Setting π ρ) (e' : Event π) :
    let base := baseServerRuntime g none e'
    base.revision = 0 ∧ base.tenantID = e'.tenantID ∧ base.lifecycleState = "planned" ∧
      base.bindings = ("", "", "", "") ∧ base.position = ("", 0, none) ∧
      base.connectionState = "pending" := by
  have planned : trimSpace "planned" ≠ "" := by decide +kernel
  have pending : trimSpace "pending" ≠ "" := by decide +kernel
  simp [baseServerRuntime, withDefaults, firstNonEmpty, trimSpace_empty, planned, pending,
    bindings, position]

lemma base_some (g : Setting π ρ) (row : Server) (e' : Event π) :
    let base := baseServerRuntime g (some row) e'
    base.revision = row.revision ∧ base.tenantID = e'.tenantID ∧
      base.lifecycleState = row.lifecycleState ∧ base.bindings = row.bindings ∧
      base.position = row.position ∧ base.connectionState = row.connectionState := by
  dsimp only [baseServerRuntime, bindings, position]
  exact ⟨rfl, rfl, rfl, rfl, rfl, rfl⟩

/-- What a Guard has observed shows in the head. -/
lemma shows_observed {row : Server} {observedAt : ℤ} :
    Shows (observed g row e' observedAt).revised (row.revision + 1) row.generation e'.tenantID
      row.lifecycleState row.bindings (e'.sourceEpoch, e'.sourceSequence, some observedAt) := by
  constructor <;> dsimp only [revised, observed, applyServerOutcomePatch,
    applyObservedServerPatch, observeStates, baseServerRuntime, bindings, position]

end

variable {transitions : List Transition}

/-- A head that passes the check is written with the next revision. -/
lemma finalize_cases {current : Option (Server × ρ)} {next server : Server} {e' : Event π}
    {observedAt : ℤ} {rest : ρ}
    (finalized : finalizePreparedServerEvent g current next e' observedAt =
      some (.applied server rest transitions)) (revision : 0 ≤ next.revision)
    (generation : 0 < next.generation) :
    server = next.revised ∧
      transitions = serverEventTransitions (current.map Prod.fst) server e' observedAt ∧
      validServerEventHead server = true := by
  unfold finalizePreparedServerEvent at finalized
  split at finalized
  case isTrue valid =>
    obtain ⟨rest', -, written⟩ := Option.map_eq_some_iff.mp finalized
    have kept : next.revised.withDefaults = next.revised :=
      withDefaults_eq valid (Int.lt_add_one_of_le revision) generation
    rw [kept] at written
    obtain ⟨same, -, recorded⟩ := Prepared.applied.inj written
    refine ⟨same.symm, ?_, same ▸ valid⟩
    rw [← same]
    exact recorded.symm
  case isFalse => cases finalized

lemma guard_writes {rest : ρ} {outcome : Option Decision} (positive : Positive s)
    (authority : trimSpace e.authority = authorityGuard)
    (written : prepareGuardServerEvent g s.row (e.prepared outcome) (e.instant now)
      (s.epochs.contains e.epochKey) = some (.applied server rest transitions)) :
    Writes s now e server (e.prepared outcome) ∧
      transitions = serverEventTransitions (s.row.map Prod.fst) server (e.prepared outcome)
        (e.instant now) ∧
      validServerEventHead server = true := by
  unfold prepareGuardServerEvent at written
  split at written
  case isTrue => cases written
  case isFalse positioned =>
    rcases Option.eq_none_or_eq_some s.row with missing | ⟨⟨row, kept⟩, held⟩
    · rw [missing] at written
      cases written
    · obtain ⟨revision, generation⟩ := positive row kept held
      rw [held] at written ⊢
      dsimp only at written
      split_ifs at written with oversteps generations owner teardown seen stale valid
      -- A command that is left unapplied writes nothing.
      · cases written
      · cases written
      · cases written
      · obtain ⟨rfl, recorded, checked⟩ := finalize_cases written revision.le generation
        refine ⟨?_, recorded, checked⟩
        exact .observes outcome held authority (fun unnamed => positioned (.inl unnamed))
          (not_ne_iff.mp generations) (not_ne_iff.mp fun other => owner (.inr other)) teardown seen
          (Bool.eq_false_iff.mpr stale) shows_observed rfl

lemma controlPlane_writes {rest : ρ} {outcome : Option Decision} (positive : Positive s)
    (authority : trimSpace e.authority ≠ authorityGuard)
    (written : prepareControlPlaneServerEvent g s.row (e.prepared outcome) (e.instant now) =
      some (.applied server rest transitions)) :
    Writes s now e server (e.prepared outcome) ∧
      transitions = serverEventTransitions (s.row.map Prod.fst) server (e.prepared outcome)
        (e.instant now) ∧
      validServerEventHead server = true := by
  unfold prepareControlPlaneServerEvent at written
  obtain ⟨allowed, finalized⟩ := Option.ite_none_right_eq_some.mp written
  simp only [Bool.and_eq_true, beq_iff_eq] at allowed
  obtain ⟨⟨-, expected⟩, lifecycle⟩ := allowed
  rw [expected] at finalized
  rcases Option.eq_none_or_eq_some s.row with missing | ⟨⟨row, kept⟩, held⟩
  · rw [missing, Option.map_none, expectedGeneration_none] at finalized
    rw [missing]
    have shown := shows_projected g none (e.prepared outcome) 1
    have connection := connection_projected g none (e.prepared outcome) 1
    obtain ⟨revision, tenantID, lifecycleState, bindings, position, pending⟩ :=
      base_none g (e.prepared outcome)
    rw [revision, tenantID, lifecycleState, bindings, position, Option.any_none, ite_self,
      prepared_runtime, prepared_tenantID] at shown
    rw [pending, ← revised_connectionState, prepared_runtime] at connection
    have counted : (projected g none (e.prepared outcome) 1).revision = 0 := by
      simpa [revised] using shown.revision
    have first : (projected g none (e.prepared outcome) 1).generation = 1 := by
      simpa [revised] using shown.generation
    obtain ⟨rfl, recorded, checked⟩ := finalize_cases finalized counted.ge
      (Int.one_pos.trans_eq first.symm)
    refine ⟨.creates outcome missing authority shown ?_, recorded, checked⟩
    rcases connection with kept | new | asked
    · exact .inl kept
    · exact .inl new
    · exact .inr asked
  · obtain ⟨revision, generation⟩ := positive row kept held
    rw [held, Option.map_some, expectedGeneration_some] at finalized
    rw [held] at lifecycle ⊢
    rw [prepared_runtime] at finalized
    have later : 0 < if runtimeBindingsChanged row e.runtime then
        row.generation + 1 else row.generation := by
      split <;> omega
    generalize expected_ : (if runtimeBindingsChanged row e.runtime then
      row.generation + 1 else row.generation) = next at finalized later
    have shown := shows_projected g (some row) (e.prepared outcome) next
    have connection := connection_projected g (some row) (e.prepared outcome) next
    obtain ⟨revision', tenantID, lifecycleState, bindings, position, connected⟩ :=
      base_some g row (e.prepared outcome)
    rw [revision', tenantID, lifecycleState, bindings, position, Option.any_some,
      prepared_runtime, prepared_tenantID] at shown
    rw [connected, ← revised_connectionState, prepared_runtime] at connection
    have counted : (projected g (some row) (e.prepared outcome) next).revision = row.revision := by
      simpa [revised] using shown.revision
    have generations : (projected g (some row) (e.prepared outcome) next).generation = next := by
      simpa [revised] using shown.generation
    obtain ⟨rfl, recorded, checked⟩ := finalize_cases finalized (revision.le.trans_eq counted.symm)
      (later.trans_eq generations.symm)
    refine ⟨.projects outcome held authority ?_
      { shown with generation := shown.generation.trans expected_.symm } connection, recorded,
      checked⟩
    simpa [allowedLifecycle, or_assoc] using lifecycle

/-- **What a command writes.** -/
lemma writes_of_applied (positive : Positive s)
    (applied : (s.applyServerEvent g now e).2 = .applied) :
    ∃ server e' rest, Writes s now e server e' ∧ validServerEventHead server = true ∧
      (∀ row kept, s.row = some (row, kept) → row.tenantID = trimSpace e.tenantID) ∧
      (s.applyServerEvent g now e).1 = s.commit e now server rest
        (serverEventTransitions (s.row.map Prod.fst) server e' (e.instant now)) := by
  unfold Registry.applyServerEvent at applied ⊢
  split at applied
  case isTrue => cases applied
  case isFalse tenant =>
    rw [if_neg tenant]
    split at applied
    case h_1 => cases applied
    case h_2 => cases applied
    case h_3 server rest transitions prepared =>
      obtain ⟨envelope, bound⟩ := Option.ite_none_right_eq_some.mp prepared
      obtain ⟨outcome, -, dispatched⟩ := Option.bind_eq_some_iff.mp bound
      have tenants : ∀ row kept, s.row = some (row, kept) →
          row.tenantID = trimSpace e.tenantID := by
        intro row kept held
        simp only [validEnvelope, held, Option.map_some, Bool.and_eq_true, beq_iff_eq] at envelope
        exact envelope.2.1.1
      unfold dispatch at dispatched
      split at dispatched
      case isTrue authority =>
        obtain ⟨writes, rfl, valid⟩ := guard_writes positive authority dispatched
        exact ⟨server, _, rest, writes, valid, tenants, rfl⟩
      case isFalse authority =>
        obtain ⟨writes, rfl, valid⟩ := controlPlane_writes positive authority dispatched
        exact ⟨server, _, rest, writes, valid, tenants, rfl⟩

end TechStack.ServerRegistry
