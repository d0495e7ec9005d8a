import TechStack.Lib.Text
import TechStack.Lib.Transition

/-!
# The server registry

One server's row and its log of transitions, as `ApplyServerEvent` writes them.  Three parties
send commands: the control plane owns bindings, lifecycle and desired state; a Guard owns
connection and health; the sweeper ages them.  A command is refused, is left unapplied, or is
committed under the next revision.

What the commands carry beside that (metadata, channels, inventory, runtime target and the
evidence) is a payload that this development does not look into: `Setting` says which payloads
are refused and what becomes of them, and nothing is assumed about it.
-/

namespace TechStack.ServerRegistry

open Lib

def authorityControlPlane : String := "control-plane"

def authorityGuard : String := "guard"

def sweeperSource : String := "registry-sweeper"

/-! ### States -/

def lifecycleStates : List String :=
  ["planned", "provisioning", "enrolling", "active", "failed", "decommissioning", "decommissioned"]

def desiredStates : List String := ["running", "stopped", "absent"]

def connectionStates : List String :=
  ["pending", "connecting", "connected", "degraded", "stale", "offline", "revoked"]

def healthStates : List String := ["unknown", "healthy", "degraded", "unhealthy"]

def lifecycleTransitions : String → List String
  | "planned" => ["provisioning", "enrolling", "failed", "decommissioning"]
  | "provisioning" => ["enrolling", "active", "failed", "decommissioning"]
  | "enrolling" => ["active", "failed", "decommissioning"]
  | "active" => ["enrolling", "failed", "decommissioning"]
  | "failed" => ["provisioning", "enrolling", "decommissioning"]
  | "decommissioning" => ["decommissioned"]
  | _ => []

/-- `ValidateLifecycleTransition`: the states are compared without the space around them. -/
def validLifecycleTransition (source target : String) : Bool :=
  let left := trimSpace source
  let right := trimSpace target
  lifecycleStates.contains left && lifecycleStates.contains right &&
    (left == right || (lifecycleTransitions left).contains right)

/-! ### Rows and commands -/

/-- `outcome.Decision`, as far as transitions show it. -/
structure Decision where
  status : String
  reasonCode : String
  deriving DecidableEq

/-- `ServerRuntime`: a row, and what a command asks of it.  An empty text asks for nothing. -/
structure Server where
  id : String := ""
  tenantID : String := ""
  instanceID : String := ""
  stackID : String := ""
  ownerSubjectID : String := ""
  workerID : String := ""
  nodeID : String := ""
  leaseID : String := ""
  providerRef : String := ""
  name : String := ""
  lifecycleState : String := ""
  desiredState : String := ""
  connectionState : String := ""
  healthState : String := ""
  reasonCode : String := ""
  lifecycleReasonCode : String := ""
  desiredReasonCode : String := ""
  connectionReasonCode : String := ""
  healthReasonCode : String := ""
  lastHeartbeatAt : Option ℤ := none
  revision : ℤ := 0
  generation : ℤ := 0
  sourceAuthority : String := ""
  sourceID : String := ""
  sourceEpoch : String := ""
  sourceSequence : ℤ := 0
  sourceObservedAt : Option ℤ := none
  lastOutcome : Option Decision := none
  decommissionedAt : Option ℤ := none
  createdAt : ℤ := 0
  deriving DecidableEq

/-- `ServerEvent`.  `observedAt` is none for the zero time. -/
structure Event (π : Type) where
  tenantID : String
  expectedRevision : ℤ := 0
  generation : ℤ := 0
  authority : String
  source : String := ""
  sourceID : String
  sourceEpoch : String := ""
  sourceSequence : ℤ := 0
  observedAt : Option ℤ := none
  runtime : Server := {}
  clearLifecycleReason : Bool := false
  clearDesiredReason : Bool := false
  clearConnectionReason : Bool := false
  clearHealthReason : Bool := false
  outcome : Option Decision := none
  clearOutcome : Bool := false
  outcomeResetReason : String := ""
  hasInventory : Bool := false
  hasChannels : Bool := false
  payload : π
  deriving DecidableEq

inductive Dimension where
  | lifecycle
  | desired
  | connection
  | health
  | outcome
  deriving DecidableEq

/-- `ServerStateTransition`. -/
structure Transition where
  id : ℕ
  dimension : Dimension
  fromState : String
  toState : String
  reasonCode : String
  source : String
  observedAt : ℤ

/-- The key of the server, and what happens to payloads. -/
structure Setting (π ρ : Type) where
  serverID : String
  /-- `outcome.Normalize`: none for a decision that is refused. -/
  normalize : Decision → ℤ → Option Decision
  /-- `RuntimeTargetIntentPresent` -/
  classifies : π → Bool
  /-- `validateSecretFreeObservation` and `validateGuardObservationPayload` -/
  guardPayload : π → Bool
  /-- `validateSecretFreeObservation` -/
  controlPlanePayload : π → Bool
  /-- What is kept of a payload with the row, or none if the runtime target is refused. -/
  settle : Option ρ → Server → π → ℤ → Option ρ

section

variable {π ρ : Type}

def firstNonEmpty : List String → String
  | [] => ""
  | value :: values => if trimSpace value ≠ "" then value else firstNonEmpty values

/-- The command as `prepareServerEvent` reads it. -/
def Event.trimmed (e : Event π) : Event π :=
  { e with
    tenantID := trimSpace e.tenantID
    authority := trimSpace e.authority
    source := if trimSpace e.source = "" then trimSpace e.authority else trimSpace e.source
    sourceID := trimSpace e.sourceID
    sourceEpoch := trimSpace e.sourceEpoch
    outcomeResetReason := trimSpace e.outcomeResetReason }

variable (server : Server)

/-- `serverRuntimeDefaults`. -/
def Server.withDefaults : Server :=
  { server with
    lifecycleState := firstNonEmpty [server.lifecycleState, "planned"]
    desiredState := firstNonEmpty [server.desiredState, "running"]
    connectionState := firstNonEmpty [server.connectionState, "pending"]
    healthState := firstNonEmpty [server.healthState, "unknown"]
    revision := if server.revision ≤ 0 then 1 else server.revision
    generation := if server.generation ≤ 0 then 1 else server.generation }

variable (g : Setting π ρ)

variable (current : Option Server)

/-- `baseServerRuntime`. -/
def baseServerRuntime (e : Event π) : Server :=
  match current with
  | some row => { row with id := trimSpace g.serverID, tenantID := e.tenantID }
  | none =>
    { ({ id := trimSpace g.serverID, tenantID := e.tenantID, generation := 1 } : Server).withDefaults
      with revision := 0 }

def setDimensionReason (current incoming : String) (clear : Bool) : String :=
  if clear then "" else if incoming ≠ "" then incoming else current

/-- A text of a command replaces the one of the row, unless it is empty. -/
def patched (current incoming : String) : String := if incoming ≠ "" then incoming else current

/-- The connection and the health that are asked for. -/
def observeStates (next patch : Server) (e : Event π) : Server :=
  { next with
    connectionState := patched next.connectionState patch.connectionState
    healthState := patched next.healthState patch.healthState
    connectionReasonCode :=
      setDimensionReason next.connectionReasonCode patch.connectionReasonCode e.clearConnectionReason
    healthReasonCode :=
      setDimensionReason next.healthReasonCode patch.healthReasonCode e.clearHealthReason }

/-- `applyObservedServerPatch`. -/
def applyObservedServerPatch (next patch : Server) (e : Event π) : Server :=
  { observeStates next patch e with
    lastHeartbeatAt := patch.lastHeartbeatAt <|> next.lastHeartbeatAt }

/-- `registrySweeperDemotionPatch`. -/
def registrySweeperDemotionPatch (e : Event π) : Bool :=
  trimSpace e.source == sweeperSource && !e.hasInventory && e.runtime.lastHeartbeatAt.isNone &&
    !e.hasChannels && !e.clearConnectionReason && !e.clearHealthReason &&
    ["stale", "offline"].contains (trimSpace e.runtime.connectionState)

/-- What the control plane owns. -/
def applyOwnedPatch (next : Server) (e : Event π) : Server :=
  let patch := e.runtime
  { next with
    instanceID := firstNonEmpty [patch.instanceID, next.instanceID]
    stackID := firstNonEmpty [patch.stackID, next.stackID]
    ownerSubjectID := firstNonEmpty [patch.ownerSubjectID, next.ownerSubjectID]
    workerID := firstNonEmpty [patch.workerID, next.workerID]
    nodeID := firstNonEmpty [patch.nodeID, next.nodeID]
    leaseID := firstNonEmpty [patch.leaseID, next.leaseID]
    providerRef := firstNonEmpty [patch.providerRef, next.providerRef]
    name := firstNonEmpty [patch.name, next.name, next.id]
    lifecycleState := patched next.lifecycleState patch.lifecycleState
    desiredState := patched next.desiredState patch.desiredState
    lifecycleReasonCode :=
      setDimensionReason next.lifecycleReasonCode patch.lifecycleReasonCode e.clearLifecycleReason
    desiredReasonCode :=
      setDimensionReason next.desiredReasonCode patch.desiredReasonCode e.clearDesiredReason
    lastHeartbeatAt := patch.lastHeartbeatAt <|> next.lastHeartbeatAt
    decommissionedAt := patch.decommissionedAt <|> next.decommissionedAt }

/-- `applyControlPlaneServerPatch`: the patch of the sweeper also says what was observed. -/
def applyControlPlaneServerPatch (next : Server) (e : Event π) : Server :=
  if registrySweeperDemotionPatch e then observeStates (applyOwnedPatch next e) e.runtime e
  else applyOwnedPatch next e

/-- `applyServerOutcomePatch`. -/
def applyServerOutcomePatch (next : Server) (e : Event π) : Server :=
  { next with
    lastOutcome := e.outcome <|> if e.clearOutcome then none else next.lastOutcome }

/-! ### Checks -/

/-- `validateServerEventHead`, without the runtime target. -/
def validServerEventHead : Bool :=
  trimSpace server.ownerSubjectID != "" &&
    lifecycleStates.contains (trimSpace server.lifecycleState) &&
    connectionStates.contains (trimSpace server.connectionState) &&
    healthStates.contains (trimSpace server.healthState) &&
    desiredStates.contains (trimSpace server.desiredState) &&
    [server.lifecycleReasonCode, server.desiredReasonCode, server.connectionReasonCode,
      server.healthReasonCode].all (fun reason =>
        reason == trimSpace reason && decide (reason.utf8ByteSize ≤ 128)) &&
    (if trimSpace server.lifecycleState = "decommissioning" then
      server.desiredState == "absent" && server.decommissionedAt.isNone
    else if trimSpace server.lifecycleState = "decommissioned" then
      server.desiredState == "absent" && server.decommissionedAt.isSome
    else server.decommissionedAt.isNone)

/-- A binding of a command that differs from the one of the row. -/
def differs (current incoming : String) : Bool :=
  trimSpace incoming != "" && trimSpace incoming != trimSpace current

/-- `runtimeBindingsChanged`. -/
def runtimeBindingsChanged (current patch : Server) : Bool :=
  differs current.workerID patch.workerID || differs current.nodeID patch.nodeID ||
    differs current.leaseID patch.leaseID || differs current.providerRef patch.providerRef

/-- `validateGuardBindings`. -/
def validGuardBindings (current patch : Server) : Bool :=
  !(differs current.instanceID patch.instanceID || differs current.stackID patch.stackID ||
    differs current.ownerSubjectID patch.ownerSubjectID ||
    runtimeBindingsChanged current patch || differs current.name patch.name)

/-- `guardEventIsStale`. -/
def guardEventIsStale (current : Server) (e : Event π) (observedAt : ℤ) : Bool :=
  if current.sourceEpoch = "" then false
  else if current.sourceID ≠ e.sourceID ∨ current.sourceAuthority ≠ authorityGuard then true
  else if current.sourceEpoch = e.sourceEpoch then
    decide (e.sourceSequence ≤ current.sourceSequence) ||
      current.sourceObservedAt.any (fun last => decide (observedAt < last))
  else
    decide (e.sourceSequence ≠ 1) ||
      current.sourceObservedAt.any (fun last => decide (observedAt ≤ last))

/-- `validateControlPlaneObservationPatch`. -/
def validControlPlaneObservation (e : Event π) : Bool :=
  let patch := e.runtime
  let reasons := patch.connectionReasonCode != "" || patch.healthReasonCode != "" ||
    e.clearConnectionReason || e.clearHealthReason
  !e.hasInventory &&
    match current with
    | none =>
      !reasons && ["", "pending"].contains (trimSpace patch.connectionState) &&
        ["", "unknown"].contains (trimSpace patch.healthState) &&
        patch.lastHeartbeatAt.isNone && !e.hasChannels
    | some _ =>
      registrySweeperDemotionPatch e ||
        (!reasons && trimSpace patch.connectionState == "" && trimSpace patch.healthState == "" &&
          patch.lastHeartbeatAt.isNone && !e.hasChannels)

/-! ### Transitions -/

/-- The state of a row in one dimension.  The outcome is `available` as long as there is none. -/
def Server.state : Dimension → String
  | .lifecycle => server.lifecycleState
  | .desired => server.desiredState
  | .connection => server.connectionState
  | .health => server.healthState
  | .outcome => (server.lastOutcome.map (·.status)).getD "available"

/-- The reason of a row in one of the four dimensions. -/
def Server.reason : Dimension → String
  | .lifecycle => server.lifecycleReasonCode
  | .desired => server.desiredReasonCode
  | .connection => server.connectionReasonCode
  | .health => server.healthReasonCode
  | .outcome => ""

/-- The four dimensions, in the order of `serverEventTransitions`. -/
def dimensions : List Dimension := [.lifecycle, .desired, .connection, .health]

/-- The transition in one dimension, if there is one. -/
def stateTransition (previous : Option Server) (current : Server) (e : Event π) (observedAt : ℤ)
    (d : Dimension) : Option Transition :=
  let fromState := (previous.map (·.state d)).getD ""
  let fromReason := (previous.map (·.reason d)).getD ""
  if current.state d = "" ∨ (fromState = current.state d ∧ fromReason = current.reason d) then none
  else some ⟨0, d, fromState, current.state d, current.reason d, e.source, observedAt⟩

/-- The transition of the outcome, if there is one. -/
def outcomeTransition (previous : Option Server) (current : Server) (e : Event π) (observedAt : ℤ) :
    Option Transition :=
  let before := previous.bind (·.lastOutcome)
  if e.outcome.isSome ∨ (e.clearOutcome ∧ before.isSome) then
    some ⟨0, .outcome, (before.map (·.status)).getD "available", current.state .outcome,
      (current.lastOutcome.map (·.reasonCode)).getD e.outcomeResetReason, e.source, observedAt⟩
  else none

/-- `serverEventTransitions`. -/
def serverEventTransitions (previous : Option Server) (current : Server) (e : Event π)
    (observedAt : ℤ) : List Transition :=
  dimensions.filterMap (stateTransition previous current e observedAt) ++
    (outcomeTransition previous current e observedAt).toList

/-! ### Preparation -/

/-- What becomes of a command that is not refused. -/
inductive Prepared (ρ : Type) where
  | unchanged
  | applied (server : Server) (rest : ρ) (transitions : List Transition)

/-- Every head that is written has the next revision. -/
def Server.revised : Server := { server with revision := server.revision + 1 }

/-- `finalizePreparedServerEvent`; the runtime target of the head is checked with it. -/
def finalizePreparedServerEvent (current : Option (Server × ρ)) (next : Server)
    (e : Event π) (observedAt : ℤ) : Option (Prepared ρ) :=
  if validServerEventHead next then
    let server := next.revised.withDefaults
    (g.settle (current.map Prod.snd) server e.payload observedAt).map fun rest =>
      .applied server rest (serverEventTransitions (current.map Prod.fst) server e observedAt)
  else none

/-- A Guard may not ask for what the control plane owns. -/
def guardOversteps (e : Event π) : Bool :=
  let patch := e.runtime
  patch.lifecycleState != "" || patch.desiredState != "" || patch.decommissionedAt.isSome ||
    patch.lifecycleReasonCode != "" || patch.desiredReasonCode != "" || e.clearLifecycleReason ||
    e.clearDesiredReason || g.classifies e.payload

/-- The observation of a Guard, written into the row. -/
def observed (row : Server) (e : Event π) (observedAt : ℤ) : Server :=
  let next := applyObservedServerPatch (baseServerRuntime g (some row) e) e.runtime e
  { applyServerOutcomePatch next e with
    sourceAuthority := authorityGuard
    sourceID := e.sourceID
    sourceEpoch := e.sourceEpoch
    sourceSequence := e.sourceSequence
    sourceObservedAt := some observedAt }

/-- `prepareGuardServerEvent`. -/
def prepareGuardServerEvent (current : Option (Server × ρ)) (e : Event π)
    (observedAt : ℤ) (sourceEpochSeen : Bool) : Option (Prepared ρ) :=
  if e.sourceEpoch = "" ∨ e.sourceSequence ≤ 0 then none
  else
    match current with
    | none => none
    | some (row, rest) =>
      if guardOversteps g e then none
      else if e.generation ≠ row.generation then none
      else if row.workerID = "" ∨ row.workerID ≠ e.sourceID then none
      else if row.lifecycleState = "decommissioning" ∨ row.lifecycleState = "decommissioned" then
        some .unchanged
      else if e.sourceEpoch ≠ row.sourceEpoch ∧ sourceEpochSeen = true then some .unchanged
      else if guardEventIsStale row e observedAt then some .unchanged
      else if validGuardBindings row e.runtime && g.guardPayload e.payload then
        finalizePreparedServerEvent g (some (row, rest)) (observed g row e observedAt) e observedAt
      else none

/-- A new binding generation knows nothing of the Guard of the old one. -/
def resetGuard (next : Server) : Server :=
  { next with
    sourceAuthority := ""
    sourceID := ""
    sourceEpoch := ""
    sourceSequence := 0
    sourceObservedAt := none
    connectionState := "pending"
    healthState := "unknown"
    connectionReasonCode := ""
    healthReasonCode := ""
    lastHeartbeatAt := none }

/-- What the control plane asks for, written into the row. -/
def projected (e : Event π) (generation : ℤ) : Server :=
  let next := applyControlPlaneServerPatch (baseServerRuntime g current e) e
  let next := { applyServerOutcomePatch next e with generation := generation }
  if current.any (runtimeBindingsChanged · e.runtime) then resetGuard next else next

/-- The generation of a row; a row is created with generation one. -/
def heldGeneration : ℤ := (current.map (·.generation)).getD 1

/-- The generation that a command names; zero stands for the one of the row. -/
def targetGeneration (e : Event π) : ℤ :=
  if e.generation = 0 then heldGeneration current else e.generation

/-- A change of bindings needs the next generation. -/
def expectedGeneration (e : Event π) : ℤ :=
  if current.any (runtimeBindingsChanged · e.runtime) then heldGeneration current + 1
  else heldGeneration current

/-- The lifecycle of a row that exists may only follow its transitions. -/
def allowedLifecycle (e : Event π) : Bool :=
  current.all fun row =>
    e.runtime.lifecycleState == "" || e.runtime.lifecycleState == row.lifecycleState ||
      validLifecycleTransition row.lifecycleState e.runtime.lifecycleState

/-- `prepareControlPlaneServerEvent`. -/
def prepareControlPlaneServerEvent (current : Option (Server × ρ)) (e : Event π)
    (observedAt : ℤ) : Option (Prepared ρ) :=
  let row := current.map Prod.fst
  if g.controlPlanePayload e.payload && validControlPlaneObservation row e &&
      targetGeneration row e == expectedGeneration row e && allowedLifecycle row e then
    finalizePreparedServerEvent g current (projected g row e (targetGeneration row e)) e observedAt
  else none

/-- The envelope of a command. -/
def validEnvelope (e : Event π) : Bool :=
  e.tenantID != "" && trimSpace g.serverID != "" &&
    (e.runtime.tenantID == "" || trimSpace e.runtime.tenantID == e.tenantID) &&
    (e.runtime.id == "" || trimSpace e.runtime.id == trimSpace g.serverID) &&
    [authorityControlPlane, authorityGuard].contains e.authority &&
    trimSpace e.runtime.reasonCode == "" && e.sourceID != "" &&
    decide (e.source.utf8ByteSize ≤ 128) && decide (e.sourceID.utf8ByteSize ≤ 256) &&
    decide (e.sourceEpoch.utf8ByteSize ≤ 128) && !(e.outcome.isSome && e.clearOutcome) &&
    !(e.clearOutcome && (e.outcomeResetReason == "" ||
      decide (128 < e.outcomeResetReason.utf8ByteSize))) &&
    match current with
    | none => e.expectedRevision == 0
    | some row => row.tenantID == e.tenantID && row.id == trimSpace g.serverID &&
        e.expectedRevision == row.revision

/-- The outcome of a command, normalized; none if it is refused. -/
def normalizedOutcome (e : Event π) (observedAt : ℤ) : Option (Option Decision) :=
  match e.outcome with
  | some decision => (g.normalize decision observedAt).map some
  | none => some none

/-- When a command is taken to have been observed. -/
def Event.instant (e : Event π) (now : ℤ) : ℤ := e.observedAt.getD now

/-- The command as the two preparations see it. -/
def Event.prepared (e : Event π) (outcome : Option Decision) : Event π :=
  { e.trimmed with outcome := outcome }

/-- The preparation for the authority of a command. -/
def dispatch (current : Option (Server × ρ)) (e : Event π) (observedAt : ℤ)
    (sourceEpochSeen : Bool) : Option (Prepared ρ) :=
  if e.authority = authorityGuard then
    prepareGuardServerEvent g current e observedAt sourceEpochSeen
  else prepareControlPlaneServerEvent g current e observedAt

/-- `prepareServerEvent`: none if the command is refused. -/
def prepareServerEvent (current : Option (Server × ρ)) (e : Event π) (now : ℤ)
    (sourceEpochSeen : Bool) : Option (Prepared ρ) :=
  if validEnvelope g (current.map Prod.fst) e.trimmed then
    (normalizedOutcome g e.trimmed (e.instant now)).bind fun outcome =>
      dispatch g current (e.prepared outcome) (e.instant now) sourceEpochSeen
  else none

/-! ### The store -/

/-- `serverGuardEpochKey`. -/
structure EpochKey where
  tenantID : String
  generation : ℤ
  sourceID : String
  sourceEpoch : String
  deriving DecidableEq

def Event.epochKey (e : Event π) : EpochKey :=
  ⟨trimSpace e.tenantID, e.generation, trimSpace e.sourceID, trimSpace e.sourceEpoch⟩

/-- The position of a Guard event that was applied. -/
structure Position where
  generation : ℤ
  epoch : String
  sequence : ℤ
  observedAt : ℤ
  deriving DecidableEq

/-- The rows of one server.  `positions` is the history of applied Guard events; nothing
reads it. -/
structure Registry (ρ : Type) where
  row : Option (Server × ρ) := none
  epochs : List EpochKey := []
  transitions : List Transition := []
  nextID : ℕ := 0
  positions : List Position := []

inductive Verdict where
  | refused
  | unapplied
  | applied
  deriving DecidableEq

/-- Transitions get the numbers that follow. -/
def numbered (nextID : ℕ) : List Transition → List Transition
  | [] => []
  | t :: rest => { t with id := nextID + 1 } :: numbered (nextID + 1) rest

def Server.stamped (createdAt : ℤ) : Server := { server with createdAt := createdAt }

namespace Registry

/-- When the row was created. -/
def createdAt (s : Registry ρ) (now : ℤ) : ℤ := (s.row.map fun row => row.1.createdAt).getD now

/-- A prepared event is written. -/
def commit (s : Registry ρ) (e : Event π) (now : ℤ) (server : Server) (rest : ρ)
    (transitions : List Transition) : Registry ρ :=
  { row := some (server.stamped (s.createdAt now), rest)
    epochs := if e.authority = authorityGuard then e.epochKey :: s.epochs else s.epochs
    transitions := s.transitions ++ numbered s.nextID transitions
    -- The inventory snapshot and the outbox item are numbered with the transitions.
    nextID := s.nextID + transitions.length + (if e.hasInventory then 1 else 0) + 1
    positions :=
      if trimSpace e.authority = authorityGuard then
        s.positions ++ [⟨server.generation, server.sourceEpoch, server.sourceSequence,
          server.sourceObservedAt.getD now⟩]
      else s.positions }

/-- `ApplyServerEvent`. -/
def applyServerEvent (g : Setting π ρ) (s : Registry ρ) (now : ℤ) (e : Event π) :
    Registry ρ × Verdict :=
  if s.row.any (fun row => row.1.tenantID != e.tenantID) then (s, .refused)
  else
    match prepareServerEvent g s.row e now (s.epochs.contains e.epochKey) with
    | none => (s, .refused)
    | some .unchanged => (s, .unapplied)
    | some (.applied server rest transitions) =>
      (s.commit e now server rest transitions, .applied)

/-- Commands in any order and at any times, from a server without a row. -/
def machine (g : Setting π ρ) : Machine (Registry ρ) (ℤ × Event π) where
  init s := s = {}
  step s command s' := s' = (s.applyServerEvent g command.1 command.2).1

end Registry

end

end TechStack.ServerRegistry
