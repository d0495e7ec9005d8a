import TechStack.Lib.Transition

/-!
# Guard reach

The control plane keeps one row for each Guard: whether the Guard is to be reachable, the key
and pairing it is bound to, and what two registries hold for it.  `Me` serves the
server's public address; Connect lists the server as a resource.  Reconcile passes drive the
registries towards the row, proof exchanges register the server at Connect, and a consumer
follows the revocations that owners make at Connect.

Every operation on the store and every call to the outside is one step, so the steps of any
number of passes, exchanges and consumers interleave.  A pass reads the row once, resolves the
Guard's identity, and decides on what it has read; some of the writes that follow look at the
row again, and some do not.

Each registry holds at most one live registration.  A call may fail, and it may have taken
effect although it failed.
-/

namespace TechStack.GuardReach

open Lib

/-! ### The row -/

inductive Desired where
  | active
  | revoked
  deriving DecidableEq

inductive TargetState where
  | pending
  | notEnabled
  | registered
  | failed
  | revoked
  deriving DecidableEq

/-- The state of one registration for one generation. -/
structure Target where
  state : TargetState
  generation : ℤ := 0
  ref : String := ""
  reasonCode : String := ""
  retryAt : Option ℤ := none
  deriving DecidableEq

/-- The owner's decision to publish the server. -/
structure PublicReach where
  enabled : Bool
  service : String
  scheme : String
  port : ℤ
  deriving DecidableEq

/-- What the Guard reported about its relay connection. -/
structure RelayReport where
  state : String
  reasonCode : String
  generation : ℤ
  deriving DecidableEq

structure Row where
  workerID : String
  serverID : String
  ownerSubjectID : String
  /-- Blank when the tenant has no namespace at Connect. -/
  connectTenantID : String
  desired : Desired
  keyThumbprint : String
  credentialEpoch : ℤ
  generation : ℤ
  me : Target
  connect : Target
  publicReach : PublicReach
  relay : RelayReport
  revokeReason : String
  attempts : ℕ
  nextAttemptAt : ℤ
  lastError : String
  deriving DecidableEq

/-- What the control plane knows about a Guard. -/
structure Subject where
  found : Bool
  workerActive : Bool
  identityState : String
  thumbprint : String
  credentialEpoch : ℤ
  deriving DecidableEq

/-- The key and the pairing a row is bound to. -/
def Row.binding (r : Row) : String × ℤ := (r.keyThumbprint, r.credentialEpoch)

/-- The key and the pairing a Guard has. -/
def Subject.binding (s : Subject) : String × ℤ := (s.thumbprint, s.credentialEpoch)

def second : ℤ := 1000000000
def settledRecheck : ℤ := 600 * second
def waitingRecheck : ℤ := 30 * second
def connectRetryable : ℤ := 120 * second
def connectPermanent : ℤ := 900 * second
def ownerProxyPrefix : String := "service:techstack:"

def backoff (attempts : ℕ) : ℤ := min (900 * second) (15 * second * 2 ^ (attempts - 1))

namespace Target

/-- `registeredAt`. -/
def registeredAt (t : Target) (generation : ℤ) : Bool :=
  t.state == .registered && t.generation == generation

end Target

/-! ### Decisions and writes -/

inductive Action where
  | wait
  | register
  | revoke
  deriving DecidableEq

/-- The Guard's identity has not ended. -/
def Subject.active (s : Subject) : Bool :=
  s.found && s.workerActive && s.identityState != "revoked"

/-- The Guard's key is bound. -/
def Subject.bound (s : Subject) : Bool := s.active && s.identityState == "bound"

namespace Row

variable (r : Row)

/-- `decide`: a revoked row returns only with a key or a pairing it does not have. -/
def decideAction (s : Subject) : Action :=
  if r.desired = .revoked then
    if s.bound = true ∧ (s.thumbprint ≠ r.keyThumbprint ∨ s.credentialEpoch ≠ r.credentialEpoch)
    then .register
    else .revoke
  else if s.active = false then .revoke
  else if s.bound = false then .wait
  else .register

def fail (now : ℤ) (reason : String) : Row :=
  { r with
    attempts := r.attempts + 1
    lastError := reason
    nextAttemptAt := now + backoff (r.attempts + 1) }

def succeed (now next : ℤ) : Row :=
  { r with attempts := 0, lastError := "", nextAttemptAt := now + next }

/-- `settle`: the outcome is dropped when the row is at another generation or desired state
than the snapshot. -/
def settle (r snapshot : Row) (apply : Row → Row) : Row :=
  if r.generation = snapshot.generation ∧ r.desired = snapshot.desired then apply r else r

/-- The first write of `register`. -/
def register (s : Subject) : Row :=
  let r := { r with desired := .active, revokeReason := "" }
  if r.generation = 0 ∨ r.keyThumbprint ≠ s.thumbprint ∨
      r.credentialEpoch ≠ s.credentialEpoch then
    { r with
      generation := r.generation + 1
      keyThumbprint := s.thumbprint
      credentialEpoch := s.credentialEpoch
      me := { state := .pending, ref := r.me.ref }
      connect := { state := .pending }
      relay := ⟨"", "", 0⟩
      attempts := 0 }
  else r

/-- The targets of the last write of `register`. -/
def registeredTargets (r current : Row) : Row :=
  let unmapped : Target :=
    if current.connectTenantID = "" ∧ current.connect.state ≠ .failed then
      { state := .failed, reasonCode := "connect_tenant_unmappable" }
    else current.connect
  { r with
    me := current.me
    connect := if r.connectTenantID = "" ∧ r.connect.state ≠ .failed then unmapped
      else r.connect }

/-- When the row is looked at again after `register`. -/
def reschedule (failure : String) (now : ℤ) : Row :=
  if failure ≠ "" then r.fail now failure
  else if r.connect.registeredAt r.generation = false ∧ r.connectTenantID ≠ "" then
    -- Connect registers when the Guard hands over its host proof.
    { r.succeed now (waitingRecheck * 2) with lastError := "host_proof_pending" }
  else r.succeed now settledRecheck

/-- The last write of `register`. -/
def settleRegister (r current : Row) (failure : String) (now : ℤ) : Row :=
  r.settle current fun r => (r.registeredTargets current).reschedule failure now

/-- The first write of `revoke`. -/
def markRevoked : Row :=
  if r.desired = .revoked ∧ r.revokeReason ≠ "" then r
  else
    { r with
      desired := .revoked
      revokeReason := if r.revokeReason = "" then "detached" else r.revokeReason }

/-- The last write of `revoke`: a row that was paired again is left alone. -/
def writeRevoked (r current : Row) (failed : Bool) (now : ℤ) : Row :=
  if r.desired = .revoked then
    let r := { r with me := current.me, connect := current.connect }
    if failed then r.fail now "revocation_incomplete" else r.succeed now settledRecheck
  else r

/-- `ProofWanted`. -/
def proofWanted (now : ℤ) : Bool :=
  r.desired == .active && decide (1 ≤ r.generation) && r.connectTenantID != "" &&
    !r.connect.registeredAt r.generation && r.connect.state != .revoked &&
    (r.connect.state == .pending || r.connect.retryAt.all fun at_ => decide (at_ ≤ now))

end Row

/-! ### Calls and events -/

/-- `MeError`, `GatewayError`, or another failure of a call. -/
structure CallError where
  denial : Bool
  reasonCode : String
  retryable : Bool

/-- How a call ends: a call that fails may have taken effect. -/
inductive Outcome where
  | ok
  | fails (error : CallError) (tookEffect : Bool)

def Outcome.effective : Outcome → Bool
  | .ok => true
  | .fails _ tookEffect => tookEffect

def meReason (e : CallError) : String :=
  if e.denial then
    if e.reasonCode ≠ "" then "kombify_me_" ++ e.reasonCode
    else if e.retryable then "kombify_me_unavailable" else "kombify_me_denied"
  else "kombify_me_unavailable"

def connectReason (e : CallError) : String × Bool :=
  if e.denial then
    (if e.reasonCode ≠ "" then "connect_" ++ e.reasonCode else "connect_denied", e.retryable)
  else ("connect_unavailable", true)

/-- A revocation as Connect reports it. -/
structure Revocation where
  tenantID : String
  workerID : String
  bindingGeneration : ℤ
  keyThumbprint : String
  reason : String
  revokedBy : String

/-- The echo of a revocation the control plane made itself. -/
def Revocation.echo (e : Revocation) : Bool :=
  ownerProxyPrefix.toList.isPrefixOf e.revokedBy.toList

/-- `revokeReasonFor`. -/
def Revocation.reasonFor (e : Revocation) : String :=
  if e.reason ∈ ["owner_request", "detached", "stack_deleted", "guard_compromised", "other"]
  then e.reason else "owner_request"

namespace Row

/-- `applyRevocation` goes on with an event it has read the row for. -/
def concerns (r : Row) (e : Revocation) : Bool :=
  !(e.workerID != "" && e.workerID != r.workerID) &&
  !decide (e.bindingGeneration < r.generation) &&
  !(e.bindingGeneration == r.generation && e.keyThumbprint != "" &&
    e.keyThumbprint != r.keyThumbprint) &&
  !(r.desired == .revoked && r.connect.state == .revoked) && !e.echo

/-- The write of `applyRevocation`. -/
def applyRevocation (r : Row) (e : Revocation) (now : ℤ) : Row :=
  if e.bindingGeneration < r.generation then r
  else
    { r with
      desired := .revoked
      revokeReason := if r.revokeReason = "" then e.reasonFor else r.revokeReason
      connect := { state := .revoked, generation := r.generation }
      nextAttemptAt := now }

/-- The write of `registerConnect` when the proof was rejected. -/
def rejectProof (r snapshot : Row) : Row :=
  if r.generation ≠ snapshot.generation ∨ r.connect.registeredAt r.generation = true then r
  else { r with connect.reasonCode := "host_proof_rejected" }

/-- The write of `registerConnect` after the call. -/
def recordNode (r snapshot : Row) (error : Option CallError) (nodeID : String) (now : ℤ) : Row :=
  if r.generation ≠ snapshot.generation then r
  else
    match error with
    | some e =>
      let (reason, retryable) := connectReason e
      let retry := now + if retryable then connectRetryable else connectPermanent
      { r with connect := {
          state := .failed, generation := r.generation, reasonCode := reason
          retryAt := some retry } }
    | none =>
      if r.desired = .revoked then r
      else { r with connect := {
        state := .registered, generation := r.generation, ref := nodeID } }

/-- The registration was made for a row that has been revoked since. -/
def mustUndo (r snapshot : Row) (error : Option CallError) : Bool :=
  r.generation == snapshot.generation && error.isNone && r.desired == .revoked

/-- A letter of a service name. -/
def lower (c : Char) : Bool := decide ('a' ≤ c ∧ c ≤ 'z')

/-- `publicServicePattern`. -/
def validService (service : String) : Bool :=
  match service.toList with
  | [] => false
  | [c] => lower c
  | c :: rest =>
    lower c && decide (rest.length ≤ 13) &&
      rest.all (fun c => lower c || c.isDigit || c == '-') &&
      rest.getLast?.any (fun c => lower c || c.isDigit)

/-- `Normalize`, for texts in lower case without white space around them. -/
def normalize (want : PublicReach) : Option PublicReach :=
  if want.enabled then
    let scheme := if want.scheme = "" then "http" else want.scheme
    if validService want.service = true ∧ (scheme = "http" ∨ scheme = "https") ∧
        1 ≤ want.port ∧ want.port ≤ 65535 then
      some { want with scheme }
    else none
  else some ⟨false, "", "", 0⟩

/-- The write of `SetPublic`. -/
def setPublic (r : Row) (owner : String) (want : PublicReach) (now : ℤ) : Row :=
  if r.ownerSubjectID ≠ owner ∨ r.desired = .revoked ∨ r.publicReach = want then r
  else
    { r with
      publicReach := want
      me := { state := .pending, generation := r.me.generation, ref := r.me.ref }
      attempts := 0
      nextAttemptAt := now }

/-- The write of `applyRelayReport`. -/
def applyRelayReport (r : Row) (report : RelayReport) : Row :=
  if report.state ∈ ["connected", "connecting", "denied", "stopped"] ∧
      report.generation = r.generation then
    { r with relay := report }
  else r

end Row

/-! ### Passes, exchanges and consumers -/

/-- Where a call of `ReconcileKey` is. -/
inductive Pass where
  /-- The row is leased; `seen` counts the revocations recorded so far. -/
  | claimed (snapshot : Row) (seen : ℕ)
  | resolved (snapshot : Row) (subject : Option Subject) (seen : ℕ)
  /-- About to register the server without a route. -/
  | withdrawing (current : Row)
  | routing (current : Row)
  /-- About to register the server with a route. -/
  | registering (current : Row) (address : String)
  | settling (current : Row) (failure : String)
  | revokingMe (current : Row)
  | revokingConnect (current : Row) (failed : Bool)
  | writing (current : Row) (failed : Bool)
  | done
  deriving DecidableEq

/-- Where a call of `registerConnect` is. -/
inductive Exchange where
  | rejected (snapshot : Row)
  /-- The proof is verified. -/
  | proved (snapshot : Row)
  | put (snapshot : Row) (error : Option CallError) (nodeID : String)
  /-- About to undo the registration. -/
  | undoing (snapshot : Row)
  | done

/-- Where a round of `ConsumeRevocations` is: the events left of a page, and the cursor
after it. -/
inductive Consumer where
  | reading (events : List Revocation) (next : ℕ)
  | found (event : Revocation) (events : List Revocation) (next : ℕ)
  | revoking (event : Revocation) (events : List Revocation) (next : ℕ)
  | recording (event : Revocation) (events : List Revocation) (next : ℕ)
  | done

/-- The row, the registries, and what is under way. -/
structure Reach where
  row : Row
  /-- The tenant at Connect was observed in a request of the owner. -/
  observed : Bool
  cursor : ℕ
  meLive : Bool
  connectLive : Bool
  /-- The revocations Connect reports, in the order they were made. -/
  events : List Revocation
  passes : List Pass
  exchanges : List Exchange
  consumers : List Consumer
  /-- How often the row has become revoked. -/
  revocations : ℕ

inductive Move where
  | claim (now lease : ℤ)
  | resolve (pass : ℕ) (subject : Option Subject)
  | decide (pass : ℕ) (now : ℤ)
  | withdraw (pass : ℕ) (outcome : Outcome)
  | ensureRoute (pass : ℕ) (route : Except CallError String)
  | registerServer (pass : ℕ) (outcome : Outcome)
  | settle (pass : ℕ) (now : ℤ)
  | revokeServer (pass : ℕ) (outcome : Outcome)
  | revokeNode (pass : ℕ) (outcome : Outcome)
  | write (pass : ℕ) (now : ℤ)
  | present (valid : Bool) (now : ℤ)
  | reject (exchange : ℕ)
  | putNode (exchange : ℕ) (outcome : Outcome) (nodeID : String)
  | record (exchange : ℕ) (now : ℤ)
  | undo (exchange : ℕ) (outcome : Outcome)
  | read (count : ℕ)
  | find (consumer : ℕ)
  | get (consumer : ℕ)
  | revokeAccess (consumer : ℕ) (works : Bool)
  | applyRevocation (consumer : ℕ) (now : ℤ)
  | advance (consumer : ℕ)
  | ownerRevokes (event : Revocation)
  | setPublic (owner : String) (want : PublicReach) (now : ℤ)
  | enroll (serverID owner connectTenantID : String)
  | report (report : RelayReport)

/-- The pass that takes a step. -/
def Move.pass : Move → Option ℕ
  | .resolve i _ | .decide i _ | .withdraw i _ | .ensureRoute i _ | .registerServer i _
  | .settle i _ | .revokeServer i _ | .revokeNode i _ | .write i _ => some i
  | _ => none

namespace Reach

/-- The row that `Enroll` creates. -/
def enrolled (workerID serverID owner connectTenantID : String) (observed : Bool)
    (now : ℤ) : Reach where
  row :=
    { workerID, serverID, ownerSubjectID := owner, connectTenantID
      desired := .active, keyThumbprint := "", credentialEpoch := 0, generation := 0
      me := { state := .pending }, connect := { state := .pending }
      publicReach := ⟨false, "", "", 0⟩, relay := ⟨"", "", 0⟩, revokeReason := ""
      attempts := 0, nextAttemptAt := now, lastError := "" }
  observed
  cursor := 0
  meLive := false
  connectLive := false
  events := []
  passes := []
  exchanges := []
  consumers := []
  revocations := 0

variable (q : Reach)

def setPass (i : ℕ) (pass : Pass) : Reach := { q with passes := q.passes.set i pass }

def setExchange (i : ℕ) (exchange : Exchange) : Reach :=
  { q with exchanges := q.exchanges.set i exchange }

def setConsumer (i : ℕ) (consumer : Consumer) : Reach :=
  { q with consumers := q.consumers.set i consumer }

/-- Me has processed a call. -/
def setMe (outcome : Outcome) (live : Bool) : Reach :=
  { q with meLive := if outcome.effective then live else q.meLive }

/-- Connect has processed a registration. -/
def putNode (outcome : Outcome) : Reach :=
  { q with connectLive := if outcome.effective then true else q.connectLive }

/-- Connect has processed a revocation by the control plane, which it reports back. -/
def revokeNode (snapshot : Row) (reason : String) (outcome : Outcome) : Reach :=
  if outcome.effective then
    { q with
      connectLive := false
      events := q.events ++ [{
        tenantID := snapshot.connectTenantID, workerID := snapshot.workerID
        bindingGeneration := snapshot.generation, keyThumbprint := snapshot.keyThumbprint, reason
        revokedBy := ownerProxyPrefix ++ snapshot.ownerSubjectID }] }
  else q

end Reach

namespace Pass

variable (current : Row)

/-- What `register` does after its first write. -/
def afterRegister : Pass :=
  if current.publicReach.enabled then
    if current.me.registeredAt current.generation then .settling current ""
    else .routing current
  else if current.me.state = .notEnabled ∧ current.me.generation = current.generation then
    .settling current ""
  else if current.me.state ≠ .pending ∨ current.me.ref ≠ "" then .withdrawing current
  else
    .settling { current with me := {
      state := .notEnabled, generation := current.generation
      reasonCode := "public_reach_not_enabled" } } ""

/-- The call at Me failed. -/
def meFailed (reason : String) : Pass :=
  .settling { current with me := {
    state := .failed, generation := current.generation, reasonCode := reason } } reason

/-- What `withdrawPublic` does after its call: a binding that is revoked serves nothing. -/
def afterWithdraw (outcome : Outcome) : Pass :=
  let withdrawn := Pass.settling { current with me := {
    state := .notEnabled, generation := current.generation
    reasonCode := "public_reach_not_enabled" } } ""
  match outcome with
  | .ok => withdrawn
  | .fails e _ =>
    if e.denial = true ∧ e.reasonCode = "binding_revoked" then withdrawn
    else meFailed current (meReason e)

/-- What `registerMe` does after its call. -/
def afterRegisterServer (address : String) : Outcome → Pass
  | .ok => .settling { current with me := {
      state := .registered, generation := current.generation, ref := address } } ""
  | .fails e _ => meFailed current (meReason e)

/-- `revoke` goes on to Connect, which a tenant without a namespace does not need. -/
def toConnect (failed : Bool) : Pass :=
  if current.connect.state = .revoked then .writing current failed
  else if current.connectTenantID = "" then
    .writing { current with connect := {
      state := .revoked, generation := current.generation } } failed
  else .revokingConnect current failed

/-- `revoke` after its first write. -/
def afterMark : Pass :=
  if current.me.state = .revoked then toConnect current false else .revokingMe current

/-- `revoke` after its call to Me. -/
def afterRevokeServer : Outcome → Pass
  | .ok => toConnect { current with me := {
      state := .revoked, generation := current.generation } } false
  | .fails e _ =>
    toConnect { current with me := {
      current.me with state := .failed, reasonCode := meReason e } } true

/-- `revoke` after its call to Connect. -/
def afterRevokeNode (failed : Bool) : Outcome → Pass
  | .ok => .writing { current with connect := {
      state := .revoked, generation := current.generation } } failed
  | .fails e _ =>
    .writing { current with connect := {
      current.connect with state := .failed, reasonCode := (connectReason e).1 } } true

end Pass

namespace Reach

variable (q : Reach)

/-- The steps of reconcile passes. -/
def actPass : Move → Option Reach
  | .claim now lease =>
    if q.row.nextAttemptAt ≤ now then
      let row := { q.row with nextAttemptAt := now + lease }
      some { q with row, passes := q.passes ++ [.claimed row q.revocations] }
    else none
  | .resolve i subject =>
    match q.passes[i]? with
    | some (.claimed snapshot seen) => some (q.setPass i (.resolved snapshot subject seen))
    | _ => none
  | .decide i now =>
    match q.passes[i]? with
    | some (.resolved snapshot none _) =>
      some ({ q with
        row := q.row.settle snapshot (·.fail now "identity_unresolved") }.setPass i .done)
    | some (.resolved snapshot (some subject) _) =>
      match snapshot.decideAction subject with
      | .revoke =>
        let row := q.row.markRevoked
        some ({ q with row }.setPass i (.afterMark row))
      | .wait =>
        some ({ q with row := q.row.settle snapshot fun r =>
          { r with
            nextAttemptAt := now + waitingRecheck
            lastError := "guard_key_not_bound" } }.setPass i .done)
      | .register =>
        let row := q.row.register subject
        some ({ q with row }.setPass i (.afterRegister row))
    | _ => none
  | .withdraw i outcome =>
    match q.passes[i]? with
    | some (.withdrawing current) =>
      some ((q.setMe outcome false).setPass i (.afterWithdraw current outcome))
    | _ => none
  | .ensureRoute i route =>
    match q.passes[i]? with
    | some (.routing current) =>
      match route with
      | .ok address => some (q.setPass i (.registering current address))
      | .error e => some (q.setPass i (.meFailed current (meReason e)))
    | _ => none
  | .registerServer i outcome =>
    match q.passes[i]? with
    | some (.registering current address) =>
      some ((q.setMe outcome true).setPass i (.afterRegisterServer current address outcome))
    | _ => none
  | .settle i now =>
    match q.passes[i]? with
    | some (.settling current failure) =>
      some ({ q with row := q.row.settleRegister current failure now }.setPass i .done)
    | _ => none
  | .revokeServer i outcome =>
    match q.passes[i]? with
    | some (.revokingMe current) =>
      some ((q.setMe outcome false).setPass i (.afterRevokeServer current outcome))
    | _ => none
  | .revokeNode i outcome =>
    match q.passes[i]? with
    | some (.revokingConnect current failed) =>
      some ((q.revokeNode current current.revokeReason outcome).setPass i
        (.afterRevokeNode current failed outcome))
    | _ => none
  | .write i now =>
    match q.passes[i]? with
    | some (.writing current failed) =>
      some ({ q with row := q.row.writeRevoked current failed now }.setPass i .done)
    | _ => none
  | _ => none

/-- The steps of proof exchanges. -/
def actExchange : Move → Option Reach
  | .present valid now =>
    if q.row.proofWanted now then
      some { q with
        exchanges := q.exchanges ++ [if valid then .proved q.row else .rejected q.row] }
    else none
  | .reject i =>
    match q.exchanges[i]? with
    | some (.rejected snapshot) =>
      some ({ q with row := q.row.rejectProof snapshot }.setExchange i .done)
    | _ => none
  | .putNode i outcome nodeID =>
    match q.exchanges[i]? with
    | some (.proved snapshot) =>
      let error := match outcome with
        | .ok => none
        | .fails e _ => some e
      some ((q.putNode outcome).setExchange i (.put snapshot error nodeID))
    | _ => none
  | .record i now =>
    match q.exchanges[i]? with
    | some (.put snapshot error nodeID) =>
      some ({ q with row := q.row.recordNode snapshot error nodeID now }.setExchange i
        (if q.row.mustUndo snapshot error then .undoing snapshot else .done))
    | _ => none
  | .undo i outcome =>
    match q.exchanges[i]? with
    | some (.undoing snapshot) =>
      some ((q.revokeNode snapshot "detached" outcome).setExchange i .done)
    | _ => none
  | _ => none

/-- The steps of consumers. -/
def actConsumer : Move → Option Reach
  | .read count =>
    let events := (q.events.drop q.cursor).take count
    some { q with consumers := q.consumers ++ [.reading events (q.cursor + events.length)] }
  | .find i =>
    match q.consumers[i]? with
    | some (.reading (event :: events) next) =>
      if event.tenantID = q.row.connectTenantID then
        some (q.setConsumer i (.found event events next))
      else some (q.setConsumer i (.reading events next))
    | _ => none
  | .get i =>
    match q.consumers[i]? with
    | some (.found event events next) =>
      if q.row.concerns event then some (q.setConsumer i (.revoking event events next))
      else some (q.setConsumer i (.reading events next))
    | _ => none
  | .revokeAccess i works =>
    match q.consumers[i]? with
    | some (.revoking event events next) =>
      if works then some (q.setConsumer i (.recording event events next))
      else some (q.setConsumer i .done)
    | _ => none
  | .applyRevocation i now =>
    match q.consumers[i]? with
    | some (.recording event events next) =>
      some ({ q with row := q.row.applyRevocation event now }.setConsumer i
        (.reading events next))
    | _ => none
  | .advance i =>
    match q.consumers[i]? with
    | some (.reading [] next) => some ({ q with cursor := max q.cursor next }.setConsumer i .done)
    | _ => none
  | _ => none

/-- What owners do. -/
def actOwner : Move → Option Reach
  | .ownerRevokes event => some { q with connectLive := false, events := q.events ++ [event] }
  | .setPublic owner want now =>
    (Row.normalize want).map fun want => { q with row := q.row.setPublic owner want now }
  | .enroll serverID owner connectTenantID =>
    if q.row.serverID = serverID ∧ q.row.ownerSubjectID = owner then
      let observes := connectTenantID != ""
      some { q with
        row.connectTenantID :=
          if observes && !q.observed then connectTenantID else q.row.connectTenantID
        observed := q.observed || observes }
    else some q
  | .report report => some { q with row := q.row.applyRelayReport report }
  | _ => none

/-- A revocation of the row is counted. -/
def counted (before after : Reach) : Reach :=
  if before.row.desired = .active ∧ after.row.desired = .revoked then
    { after with revocations := before.revocations + 1 }
  else after

/-- What a step does, when it can be taken. -/
def act (move : Move) : Option Reach :=
  ((q.actPass move).or ((q.actExchange move).or ((q.actConsumer move).or (q.actOwner move)))).map
    q.counted

/-- The row and the registries under any interleaving. -/
def machine : Machine Reach Move where
  init q := ∃ workerID serverID owner connectTenantID observed now,
    q = enrolled workerID serverID owner connectTenantID observed now
  step q move q' := q.act move = some q'

end Reach

end TechStack.GuardReach
