import TechStack.Lib.Table
import TechStack.Lib.Text

/-!
# The ledger of provider operations

Operations with their receipts, execution claims and dispatch guards, and the transactions of
`PostgresLedger` on them.  A transaction is a function to an optional ledger: none is a rollback.
What the contract package, the digests and the lease tables decide is a `Setting` or comes in
with the transaction as its `Environment`.
-/

namespace TechStack.ProviderControl

open Lib

/-! ### Rows -/

inductive Operation where
  | plan
  | observe
  | provision
  | reconcile
  | decommission
  deriving DecidableEq

inductive Phase where
  | requested
  | accepted
  | planned
  | resourcesBound
  | present
  | deleteAccepted
  | absencePending
  | absent
  | failed
  | denied
  deriving DecidableEq

inductive Status where
  | pending
  | succeeded
  | failed
  | denied
  deriving DecidableEq

/-- `ProvisionDispatchMode`. -/
inductive DispatchMode where
  | blocked
  | nativeIdempotency
  | providerCorrelation
  | atMostOnceManualReconcile
  deriving DecidableEq

/-- `ExecutionClaimAccess`. -/
inductive Access where
  | readOnly
  | sideEffecting
  deriving DecidableEq

inductive ClaimState where
  | active
  | released
  | consumed
  deriving DecidableEq

/-- `OperationAutomationState`. -/
inductive AutomationState where
  | runnable
  | manualReconcileRequired
  | complete
  deriving DecidableEq

/-- An operation of a tenant. -/
structure Key where
  tenantID : String
  operationID : String
  deriving DecidableEq

/-- The generation of a lease for which servers are created. -/
structure Generation where
  tenantID : String
  leaseID : String
  resourceGenerationID : String
  deriving DecidableEq

structure Command where
  key : Key
  leaseID : String
  resourceGenerationID : String
  operation : Operation
  custodyHash : String
  connectionHash : String

def Command.generation (command : Command) : Generation :=
  ⟨command.key.tenantID, command.leaseID, command.resourceGenerationID⟩

/-- A receipt; its resource bindings are texts. -/
structure Receipt where
  sequence : ℕ
  previousReceiptDigest : String
  receiptDigest : String
  status : Status
  phase : Phase
  resources : List String
  deriving DecidableEq

/-- `PreparedProvisionBinding`. -/
structure Binding where
  requestDigest : String
  credentialVersionHash : String
  providerScopeHash : String
  correlationHash : String
  adapterManifestHash : String
  deriving DecidableEq

/-- A row of `provider_operations` with the receipt that it points to. -/
structure OperationRow where
  command : Command
  adapterManifestHash : String
  provisionDispatch : DispatchMode
  runtimeServerGeneration : ℤ
  head : Receipt

/-- `ExecutionClaim`, as its holder keeps it. -/
structure Claim where
  key : Key
  resourceGenerationID : String
  headSequence : ℕ
  headReceiptDigest : String
  access : Access
  owner : String
  token : String
  expiresAt : ℤ
  deriving DecidableEq

/-- A row of `provider_operation_execution_claims`. -/
structure ClaimRow where
  key : Key
  headSequence : ℕ
  headReceiptDigest : String
  tokenDigest : String
  owner : String
  access : Access
  state : ClaimState
  expiresAt : ℤ

/-- The primary key of a claim: one row for each head. -/
def ClaimRow.head (row : ClaimRow) : Key × String := (row.key, row.headReceiptDigest)

def Claim.head (claim : Claim) : Key × String := (claim.key, claim.headReceiptDigest)

/-- A row of `provider_provision_dispatch_guards`. -/
structure GuardRow where
  key : Key
  generation : Generation
  headSequence : ℕ
  headReceiptDigest : String
  dispatchMode : DispatchMode
  prepared : Option Binding
  tokenDigest : String
  owner : String

/-- The ledger.  Receipts stand in the order in which they were inserted. -/
structure Ledger where
  operations : List OperationRow := []
  receipts : List (Key × Receipt) := []
  claims : List ClaimRow := []
  guards : List GuardRow := []
  terminalized : List (Key × ℕ × String) := []

def OperationRow.key (row : OperationRow) : Key := row.command.key

/-! ### What lies outside -/

/-- The contract of the receipts and the digests.  An append that the contract admits extends the
receipt before it by one; the digests have no collisions. -/
structure Setting (R : Type) where
  /-- `Command.Validate`. -/
  validCommand : Command → Bool
  /-- `Receipt.ValidateFor` with the verifier. -/
  validHead : Command → Receipt → Bool
  /-- `ValidateReplay`. -/
  validReplay : Command → Command → Bool
  /-- `ValidateAppend` with the verifier. -/
  validateAppend : Command → Receipt → Receipt → Bool
  appendExtends : ∀ command previous next, validateAppend command previous next = true →
    next.sequence = previous.sequence + 1 ∧ next.previousReceiptDigest = previous.receiptDigest
  /-- `AssembleReceipt` for the result of an adapter. -/
  assembleReceipt : Command → Receipt → R → Option Receipt
  /-- `validateAdapterResultCustody` and the check of the identities. -/
  admitsResult : Command → Receipt → R → Bool
  /-- `executionClaimTokenDigest`. -/
  tokenDigest : String → String
  tokenDigest_injective : Function.Injective tokenDigest
  /-- `preparedProvisionBindingDigest`. -/
  bindingDigest : Binding → String
  /-- The digest of the correlation of an invocation. -/
  correlationHash : Command → Receipt → String
  /-- A lowercase sha256 digest. -/
  isDigest : String → Bool
  /-- The time that a claim is given. -/
  claimTTL : ℤ

/-- `leaseExecutionFence`, as far as it decides. -/
structure Fence where
  teardownRequested : Bool
  terminalTombstone : Bool
  serverGeneration : ℤ

/-- What a transaction meets outside the ledger.  There is no fence if the lease has no authority
or its binding has changed. -/
structure Environment where
  fence : Option Fence
  /-- `authorizeClaimCredentialTx`, the owner of the tenant, and the triggers on new claims. -/
  authorized : Bool
  /-- The projection of the receipts, and the triggers on what is written. -/
  projected : Bool

section

variable {R : Type}

/-! ### Checks -/

/-- `classifyExecutionClaimAccess`. -/
def classifyExecutionClaimAccess : Operation → Phase → Option Access
  | .plan, .accepted => some .readOnly
  | .observe, .accepted => some .readOnly
  | .provision, .accepted => some .sideEffecting
  | .provision, .resourcesBound => some .readOnly
  | .reconcile, .accepted => some .sideEffecting
  | .reconcile, .resourcesBound => some .readOnly
  | .decommission, .accepted => some .sideEffecting
  | .decommission, .deleteAccepted => some .readOnly
  | .decommission, .absencePending => some .readOnly
  | _, _ => none

/-- `isTerminal`. -/
def isTerminal (receipt : Receipt) : Bool :=
  [.succeeded, .failed, .denied].contains receipt.status ||
    [.absent, .present, .planned].contains receipt.phase

/-- `isNoProgressPendingReceipt`. -/
def isNoProgressPendingReceipt (previous next : Receipt) : Bool :=
  previous.status == .pending && next.status == .pending && previous.phase == next.phase &&
    previous.resources == next.resources

/-- `isResourceFreePendingProvisionAcceptedHead`. -/
def isResourceFreePendingProvisionAcceptedHead (command : Command) (head : Receipt) : Bool :=
  command.operation == .provision && head.status == .pending && head.phase == .accepted &&
    head.resources.isEmpty

/-- `validateLeaseExecutionFenceOperation`. -/
def validateLeaseExecutionFenceOperation (operation : Operation) (allowAfterTeardown : Bool)
    (fence : Fence) : Bool :=
  if fence.terminalTombstone &&
      !(operation == .decommission || (operation == .provision && allowAfterTeardown)) then false
  else if operation = .decommission then fence.teardownRequested
  else !(fence.teardownRequested && !allowAfterTeardown)

/-- `loadLeaseExecutionFenceTx`. -/
def Environment.loadFence (env : Environment) (operation : Operation) (allowAfterTeardown : Bool) :
    Option Fence :=
  env.fence.filter (validateLeaseExecutionFenceOperation operation allowAfterTeardown)

/-- `validatePreparedProvisionBinding`. -/
def validatePreparedProvisionBinding (g : Setting R) (binding : Binding) (command : Command)
    (head : Receipt) (adapterManifestHash : String) : Bool :=
  [binding.requestDigest, binding.credentialVersionHash, binding.providerScopeHash,
      binding.correlationHash, binding.adapterManifestHash].all g.isDigest &&
    binding.credentialVersionHash == command.custodyHash &&
    binding.providerScopeHash == command.connectionHash &&
    binding.correlationHash == g.correlationHash command head &&
    binding.adapterManifestHash == adapterManifestHash

/-! ### Loading -/

/-- `OperationRecord`. -/
structure Record extends OperationRow where
  automationState : AutomationState

/-- `deriveOperationAutomationState`. -/
def deriveOperationAutomationState (row : OperationRow) (guardedCurrentHead : Bool) :
    AutomationState :=
  if isTerminal row.head then .complete
  else if row.command.operation = .provision ∧ row.head.status = .pending ∧
      row.head.phase = .accepted ∧ guardedCurrentHead = true then .manualReconcileRequired
  else .runnable

namespace Ledger

/-- A guard of the generation that stands in the way of an operation. -/
def dispatchGuarded (l : Ledger) (command : Command) : Bool :=
  l.guards.any fun guard => guard.generation == command.generation &&
    (guard.key != command.key || guard.dispatchMode == .atMostOnceManualReconcile)

/-- `loadOperationProjectionTx`, without the fence. -/
def loadOperation (l : Ledger) (key : Key) : Option Record :=
  (Table.lookup OperationRow.key key l.operations).map fun row =>
    ⟨row, if l.terminalized.contains (key, row.head.sequence, row.head.receiptDigest) then .complete
      else deriveOperationAutomationState row (l.dispatchGuarded row.command)⟩

/-- The head that a caller knows is still the head. -/
def headIs (record : Record) (head : Receipt) : Bool :=
  record.head.sequence == head.sequence && record.head.receiptDigest == head.receiptDigest

variable (g : Setting R)

/-- `validateOperationRecord`. -/
def validateOperationRecord (record : Record) : Bool :=
  g.validCommand record.command && record.provisionDispatch != .blocked &&
    g.validHead record.command record.head

/-- The checks that all writes make on what they load. -/
def current (command : Command) (head : Receipt) (record : Record) : Bool :=
  g.validReplay record.command command && validateOperationRecord g record && headIs record head

/-! ### Claims -/

/-- `validClaimCapability`. -/
def validClaimCapability (claim : Claim) : Bool :=
  [claim.key.tenantID, claim.key.operationID, claim.resourceGenerationID, claim.headReceiptDigest,
      claim.token, claim.owner].all (fun text => trimSpace text != "") &&
    decide (0 < claim.headSequence)

/-- `prepareExecutionClaim`: the claim before it has a time. -/
def prepareExecutionClaim (command : Command) (head : Receipt) (access : Access)
    (owner token : String) : Option Claim :=
  if g.validCommand command && g.validHead command head && trimSpace owner != "" &&
      trimSpace token != "" && head.phase != .requested then
    some ⟨command.key, command.resourceGenerationID, head.sequence, head.receiptDigest, access,
      trimSpace owner, trimSpace token, 0⟩
  else none

variable (env : Environment) (clock : ℤ)

/-- The row of a claim that is given. -/
def grantedRow (claim : Claim) : ClaimRow :=
  ⟨claim.key, claim.headSequence, claim.headReceiptDigest, g.tokenDigest claim.token, claim.owner,
    claim.access, .active, clock + g.claimTTL⟩

/-- A row that may be taken over: it was released, or it is active and has expired. -/
def takeover (row : ClaimRow) : Bool :=
  row.state == .released || (row.state == .active && decide (row.expiresAt ≤ clock))

/-- `upsertExecutionClaimTx`. -/
def upsertExecutionClaim (l : Ledger) (claim : Claim) : Option (Ledger × Claim) :=
  let granted := ({ l with claims := Table.put ClaimRow.head (grantedRow g clock claim) l.claims },
    { claim with expiresAt := clock + g.claimTTL })
  match Table.lookup ClaimRow.head claim.head l.claims with
  | none => some granted
  | some row =>
    if row.headSequence = claim.headSequence ∧ takeover clock row = true then some granted
    else none

/-- The row that a holder may still use: it has the token and the owner, and it is active and has
not expired. -/
def holds (claim : Claim) (row : ClaimRow) : Bool :=
  row.tokenDigest == g.tokenDigest claim.token && row.owner == claim.owner &&
    row.state == .active && decide (clock < row.expiresAt)

/-- An update of the row that a holder may still use. -/
def updateClaim (l : Ledger) (claim : Claim) (update : ClaimRow → ClaimRow) : Option Ledger :=
  (Table.lookup ClaimRow.head claim.head l.claims).bind fun row =>
    if validClaimCapability claim && holds g clock claim row then
      some { l with claims := Table.put ClaimRow.head (update row) l.claims }
    else none

/-- `validateClaimGenerationTx`, with `loadOperationCustodyTx`. -/
def validateClaimGeneration (l : Ledger) (claim : Claim) : Bool :=
  (l.loadOperation claim.key).any fun record =>
    ((env.loadFence record.command.operation true).any fun fence =>
      decide (1 ≤ record.runtimeServerGeneration) &&
        decide (record.runtimeServerGeneration ≤ fence.serverGeneration)) &&
      record.command.resourceGenerationID == claim.resourceGenerationID &&
      record.head.sequence == claim.headSequence &&
      record.head.receiptDigest == claim.headReceiptDigest

/-- `RenewExecutionClaim`. -/
def renewExecutionClaim (l : Ledger) (claim : Claim) : Option (Ledger × Claim) :=
  if validateClaimGeneration env l claim && env.projected then
    (updateClaim g clock l claim fun row => { row with expiresAt := clock + g.claimTTL }).map
      fun l => (l, { claim with expiresAt := clock + g.claimTTL })
  else none

/-- `ReleaseExecutionClaim`. -/
def releaseExecutionClaim (l : Ledger) (claim : Claim) : Option Ledger :=
  if validateClaimGeneration env l claim && env.projected then
    updateClaim g clock l claim fun row => { row with state := .released }
  else none

/-! ### Guards -/

/-- `loadProvisionGenerationCustodyTx`. -/
def custody (l : Ledger) (generation : Generation) : Option GuardRow :=
  Table.lookup GuardRow.generation generation l.guards

/-- The insert of a guard: the operation and the generation are unique. -/
def insertGuard (l : Ledger) (guard : GuardRow) : Option Ledger :=
  if l.guards.any fun other => other.key == guard.key || other.generation == guard.generation then
    none
  else some { l with guards := guard :: l.guards }

/-- `ensureCrashRecoverableProvisionCustodyTx`. -/
def ensureCrashRecoverableProvisionCustody (l : Ledger) (record : Record)
    (claim : Claim) : Option Ledger :=
  if record.provisionDispatch = .nativeIdempotency ∨
      record.provisionDispatch = .providerCorrelation then
    match l.custody record.command.generation with
    | some guard =>
      if guard.key = record.command.key ∧ guard.dispatchMode = record.provisionDispatch then some l
      else none
    | none => l.insertGuard ⟨record.command.key, record.command.generation, record.head.sequence,
        record.head.receiptDigest, record.provisionDispatch, none, g.tokenDigest claim.token,
        claim.owner⟩
  else none

/-- `isExactUnsettledClaimRecoveryTx`. -/
def isExactUnsettledClaimRecovery (l : Ledger) (record : Record) (claim : Claim) : Bool :=
  claim.access == .sideEffecting && l.claims.any fun row =>
    row.key == record.command.key && row.headSequence == record.head.sequence &&
      row.headReceiptDigest == record.head.receiptDigest && row.access == .sideEffecting &&
      takeover clock row

/-- `validateExecutionClaimLeaseFenceTx`. -/
def validateExecutionClaimLeaseFence (l : Ledger) (record : Record) (claim : Claim) : Bool :=
  let recovering := isExactUnsettledClaimRecovery clock l record claim
  let continues := recovering || (claim.access == .readOnly &&
    record.command.operation == .provision && record.head.phase == .resourcesBound)
  ((env.loadFence record.command.operation continues).any fun fence =>
    decide (1 ≤ record.runtimeServerGeneration) &&
      decide (record.runtimeServerGeneration ≤ fence.serverGeneration) &&
      (record.runtimeServerGeneration == fence.serverGeneration || claim.access == .readOnly ||
        recovering)) &&
    record.automationState != .manualReconcileRequired &&
    !(record.command.operation == .provision &&
      record.provisionDispatch == .atMostOnceManualReconcile && record.head.phase == .accepted)

/-- `AcquireExecutionClaim`. -/
def acquireExecutionClaim (l : Ledger)
    (command : Command) (head : Receipt) (access : Access) (owner token : String) :
    Option (Ledger × Claim) :=
  (prepareExecutionClaim g command head access owner token).bind fun claim =>
    (l.loadOperation command.key).bind fun record =>
      if current g command head record &&
          classifyExecutionClaimAccess record.command.operation record.head.phase == some access &&
          validateExecutionClaimLeaseFence env clock l record claim && env.authorized &&
          validClaimCapability claim then
        if record.command.operation = .provision ∧ record.head.status = .pending ∧
            record.head.phase = .accepted then
          (ensureCrashRecoverableProvisionCustody g l record claim).bind fun l =>
            upsertExecutionClaim g clock l claim
        else upsertExecutionClaim g clock l claim
      else none

/-- `AcquireProvisionDispatchClaim`: the guard and the first claim of the accepted head. -/
def acquireProvisionDispatchClaim (l : Ledger)
    (command : Command) (head : Receipt) (binding : Binding) (owner token : String) :
    Option (Ledger × Claim) :=
  (prepareExecutionClaim g command head .sideEffecting owner token).bind fun claim =>
    (l.loadOperation command.key).bind fun record =>
      if isResourceFreePendingProvisionAcceptedHead command head &&
          (env.loadFence record.command.operation false).any
            (fun fence => record.runtimeServerGeneration == fence.serverGeneration) &&
          current g command head record &&
          validatePreparedProvisionBinding g binding command head record.adapterManifestHash &&
          record.provisionDispatch == .atMostOnceManualReconcile &&
          isResourceFreePendingProvisionAcceptedHead record.command record.head &&
          env.authorized && validClaimCapability claim &&
          (l.custody record.command.generation).isNone then
        (l.insertGuard ⟨command.key, command.generation, head.sequence, head.receiptDigest,
          .atMostOnceManualReconcile, some binding, g.tokenDigest claim.token, claim.owner⟩).bind
            fun l => upsertExecutionClaim g clock l claim
      else none

/-! ### Receipts -/

/-- `persistAcceptedReceiptTx`: the number and the digest of a receipt are unique in its
operation, and the head is compared and swapped. -/
def persistAcceptedReceipt (l : Ledger) (record : Record)
    (previous next : Receipt) : Option Ledger :=
  let key := record.command.key
  if l.receipts.any (fun entry => entry.1 == key && (entry.2.sequence == next.sequence ||
      entry.2.receiptDigest == next.receiptDigest)) || !env.projected ||
      !(headIs record previous) then none
  else some { l with
    receipts := l.receipts ++ [(key, next)]
    operations := Table.put OperationRow.key { record.toOperationRow with head := next }
      l.operations }

/-- `AppendReceipt`: the coordinator accepts what was requested. -/
def appendReceipt (l : Ledger) (command : Command) (previous next : Receipt) : Option Ledger :=
  if previous.phase = .requested ∧ next.phase = .accepted ∧
      g.validateAppend command previous next = true then
    (l.loadOperation command.key).bind fun record =>
      if current g command previous record &&
          (env.loadFence record.command.operation false).any
            (fun fence => record.runtimeServerGeneration == fence.serverGeneration) then
        persistAcceptedReceipt env l record previous next
      else none
  else none

/-- `AppendClaimedReceipt`: the claim is consumed in the transaction that swaps the head. -/
def appendClaimedReceipt (l : Ledger)
    (command : Command) (previous next : Receipt) (claim : Claim) : Option Ledger :=
  if claim.key = command.key ∧ claim.resourceGenerationID = command.resourceGenerationID ∧
      claim.headSequence = previous.sequence ∧ claim.headReceiptDigest = previous.receiptDigest ∧
      g.validateAppend command previous next = true then
    (l.loadOperation command.key).bind fun record =>
      -- `requireClaimedReceiptCustodyFenceTx`.
      if current g command previous record &&
          (Table.lookup ClaimRow.head claim.head l.claims).any
            (fun row => row.headSequence == claim.headSequence && holds g clock claim row) &&
          ((env.loadFence record.command.operation true).any fun fence =>
            decide (1 ≤ record.runtimeServerGeneration) &&
              decide (record.runtimeServerGeneration ≤ fence.serverGeneration)) then
        (updateClaim g clock l claim fun row => { row with state := .consumed }).bind fun l =>
          persistAcceptedReceipt env l record previous next
      else none
  else none

/-- `BeginOperation` for an operation that is not there yet: the first receipt is a pending
request with number one. -/
def beginOperation (l : Ledger) (row : OperationRow) : Option Ledger :=
  if g.validCommand row.command && g.validHead row.command row.head &&
      row.provisionDispatch != .blocked && row.head.sequence == 1 &&
      row.head.status == .pending && row.head.phase == .requested &&
      (env.loadFence row.command.operation false).any
        (fun fence => row.runtimeServerGeneration == fence.serverGeneration) &&
      decide (1 ≤ row.runtimeServerGeneration) && env.projected &&
      (Table.lookup OperationRow.key row.key l.operations).isNone then
    some { l with
      operations := Table.put OperationRow.key row l.operations
      receipts := l.receipts ++ [(row.key, row.head)] }
  else none

/-- `FinalizeResourceFreeTeardown`, as far as the ledger shows it: the current head is marked. -/
def finalizeResourceFreeTeardown (l : Ledger) (key : Key) : Option Ledger :=
  (Table.lookup OperationRow.key key l.operations).map fun row =>
    { l with terminalized := (key, row.head.sequence, row.head.receiptDigest) :: l.terminalized }

end Ledger

end

end TechStack.ProviderControl
