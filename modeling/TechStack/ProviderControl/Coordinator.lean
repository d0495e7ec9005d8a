import TechStack.Lib.Slots
import TechStack.Lib.Transition
import TechStack.ProviderControl.Ledger

/-!
# Coordinators

Any number of coordinators advance operations on one ledger.  Each call of `Advance` is an
execution of its own: it loads, prepares, acquires a claim, calls the adapter, renews the claim
meanwhile, appends the result or releases the claim.  Every ledger transaction is one step, in
any order; it may be refused, it may fail, and it may be committed while its caller sees an
error.  An execution may stop between any two steps.

The tokens of claims are random: here they are fresh, and the system remembers to which execution
a token was given.  That memory and the log of dispatches are read by no step.
-/

namespace TechStack.ProviderControl

open Lib

/-! ### Executions -/

/-- A claim that is held, with its heartbeat: a renewal has failed, and that it has failed was
noticed. -/
structure Holding where
  claim : Claim
  failed : Bool := false
  lost : Bool := false
  deriving DecidableEq

/-- `ExecutePermit`. -/
structure Permit where
  key : Key
  headReceiptDigest : String
  claimTokenDigest : String
  preparationDigest : String
  deriving DecidableEq

/-- Where an execution of `Advance` is. -/
inductive Stage where
  | loaded
  /-- `PrepareProvision` has returned. -/
  | prepared (binding : Binding)
  /-- The claim is held and the adapter not yet called; a prepared request comes with a permit. -/
  | granted (holding : Holding) (permit : Option (Binding × Permit))
  | executing (holding : Holding)
  /-- The adapter has returned, and the next receipt is assembled. -/
  | returned (holding : Holding) (next : Receipt)
  /-- The claim is to be released. -/
  | leaving (holding : Holding)
  | done
  deriving DecidableEq

/-- The claim that an execution holds. -/
def Stage.holding : Stage → Option Holding
  | .granted holding _ => some holding
  | .executing holding => some holding
  | .returned holding _ => some holding
  | .leaving holding => some holding
  | _ => none

/-- The same stage with another state of the heartbeat. -/
def Stage.withHolding (holding : Holding) : Stage → Stage
  | .granted _ permit => .granted holding permit
  | .executing _ => .executing holding
  | .returned _ next => .returned holding next
  | .leaving _ => .leaving holding
  | stage => stage

/-- An execution: what it has loaded, who runs it, and where it is. -/
structure Execution where
  record : Record
  owner : String
  stage : Stage

/-- A call of `DispatchPreparedProvision`. -/
structure Dispatch where
  execution : ℕ
  command : Command
  claim : Claim
  binding : Binding

structure System where
  ledger : Ledger := {}
  clock : ℤ := 0
  executions : List Execution := []
  issued : List (String × ℕ) := []
  dispatches : List Dispatch := []

/-- What becomes of a transaction: it is committed and its caller knows, it is committed and its
caller sees an error, or it fails. -/
inductive Fate where
  | seen
  | lost
  | failed

inductive Action (R : Type) where
  | ticks (clock : ℤ)
  | begins (row : OperationRow) (env : Environment)
  | terminalizes (key : Key)
  | loads (key : Key) (owner : String)
  | accepts (i : ℕ) (next : Receipt) (env : Environment) (fate : Fate)
  | prepares (i : ℕ) (binding : Binding)
  | acquires (i : ℕ) (token : String) (env : Environment) (fate : Fate)
  | calls (i : ℕ)
  | renews (i : ℕ) (env : Environment) (fate : Fate)
  | notices (i : ℕ)
  | returns (i : ℕ) (result : R)
  | appends (i : ℕ) (env : Environment) (fate : Fate)
  | releases (i : ℕ) (env : Environment) (fate : Fate)
  | stops (i : ℕ)

namespace System

variable {R : Type}

/-- An execution goes on to another stage. -/
def enter (s : System) (i : ℕ) (execution : Execution) (stage : Stage) : System :=
  { s with executions := s.executions.set i { execution with stage := stage } }

/-- The ledger after a transaction, and what its caller gets. -/
def transact {α : Type} (l : Ledger) (fate : Fate) (committed : Option (Ledger × α)) :
    Ledger × Option α :=
  match fate, committed with
  | .seen, some (l', value) => (l', some value)
  | .lost, some (l', _) => (l', none)
  | _, _ => (l, none)

/-- The stage in which `Advance` goes on with what it has loaded; it does not go on with a head
that is terminal, complete or left to the operator. -/
def firstStage (record : Record) : Stage :=
  if isTerminal record.head || record.automationState != .runnable then .done else .loaded

variable (g : Setting R)

/-- `newExecutePermit`. -/
def newExecutePermit (claim : Claim) (binding : Binding) : Permit :=
  ⟨claim.key, claim.headReceiptDigest, g.tokenDigest claim.token, g.bindingDigest binding⟩

/-- `validExecutePermit`. -/
def validExecutePermit (permit : Permit) (claim : Claim) (binding : Binding) : Bool :=
  permit.key == claim.key && permit.headReceiptDigest == claim.headReceiptDigest &&
    permit.claimTokenDigest == g.tokenDigest claim.token &&
    permit.preparationDigest == g.bindingDigest binding && Ledger.validClaimCapability claim

/-- The acquisition for the stage of an execution. -/
def acquire (s : System) (execution : Execution) (token : String)
    (env : Environment) : Option (Ledger × Claim) :=
  let record := execution.record
  match execution.stage with
  | .prepared binding =>
    s.ledger.acquireProvisionDispatchClaim g env s.clock record.command record.head binding
      execution.owner token
  | .loaded =>
    (classifyExecutionClaimAccess record.command.operation record.head.phase).bind fun access =>
      s.ledger.acquireExecutionClaim g env s.clock record.command record.head access
        execution.owner token
  | _ => none

/-- `acquireAdapterExecutionClaim` with the claim that the ledger gave: a prepared request goes on
only with a valid permit. -/
def grantedStage (stage : Stage) (claim : Claim) : Stage :=
  match stage with
  | .prepared binding =>
    let permit := newExecutePermit g claim binding
    if validExecutePermit g permit claim binding then
      .granted ⟨claim, false, false⟩ (some (binding, permit))
    else .done
  | _ => .granted ⟨claim, false, false⟩ none

/-- A stage from which a claim is acquired. -/
def acquiring : Stage → Bool
  | .loaded => true
  | .prepared _ => true
  | _ => false

/-- One step; none if it cannot be taken. -/
def act (s : System) : Action R → Option System
  | .ticks clock => if s.clock ≤ clock then some { s with clock := clock } else none
  | .begins row env =>
    (s.ledger.beginOperation g env row).map fun l => { s with ledger := l }
  | .terminalizes key =>
    (s.ledger.finalizeResourceFreeTeardown key).map fun l => { s with ledger := l }
  | .loads key owner =>
    ((s.ledger.loadOperation key).filter (Ledger.validateOperationRecord g)).map fun record =>
      { s with executions := s.executions ++ [⟨record, owner, firstStage record⟩] }
  | .accepts i next env fate =>
    s.executions[i]?.bind fun execution =>
      if execution.stage = .loaded ∧ execution.record.head.phase = .requested then
        let appended := s.ledger.appendReceipt g env execution.record.command
          execution.record.head next
        let l := (transact s.ledger fate (appended.map fun l => (l, ()))).1
        some ({ s with ledger := l }.enter i execution .done)
      else none
  | .prepares i binding =>
    s.executions[i]?.bind fun execution =>
      if execution.stage = .loaded ∧ execution.record.command.operation = .provision ∧
          execution.record.head.phase = .accepted ∧
          validatePreparedProvisionBinding g binding execution.record.command
            execution.record.head execution.record.adapterManifestHash = true then
        some (s.enter i execution (.prepared binding))
      else none
  | .acquires i token env fate =>
    s.executions[i]?.bind fun execution =>
      -- A token is 32 random bytes in base64.
      if acquiring execution.stage = true ∧ trimSpace token = token ∧
          s.issued.all (fun entry => entry.1 != token) = true then
        let (l, claim) := transact s.ledger fate (acquire g s execution token env)
        let stage := match claim with
          | some claim => grantedStage g execution.stage claim
          | none => .done
        some ({ s with ledger := l, issued := (token, i) :: s.issued }.enter i execution stage)
      else none
  | .calls i =>
    s.executions[i]?.bind fun execution =>
      match execution.stage with
      | .granted holding (some (binding, _)) =>
        some { s.enter i execution (.executing holding) with
          dispatches := s.dispatches ++
            [⟨i, execution.record.command, holding.claim, binding⟩] }
      | .granted holding none => some (s.enter i execution (.executing holding))
      | _ => none
  | .renews i env fate =>
    s.executions[i]?.bind fun execution =>
      execution.stage.holding.bind fun holding =>
        if holding.failed = false then
          let (l, renewed) := transact s.ledger fate
            (s.ledger.renewExecutionClaim g env s.clock holding.claim)
          let holding' := match renewed with
            | some claim => { holding with claim := claim }
            | none => { holding with failed := true }
          some ({ s with ledger := l }.enter i execution (execution.stage.withHolding holding'))
        else none
  | .notices i =>
    s.executions[i]?.bind fun execution =>
      execution.stage.holding.bind fun holding =>
        if holding.failed = true then
          some (s.enter i execution (execution.stage.withHolding { holding with lost := true }))
        else none
  | .returns i result =>
    s.executions[i]?.bind fun execution =>
      match execution.stage with
      | .executing holding =>
        let record := execution.record
        let assembled :=
          if holding.lost = false ∧ g.admitsResult record.command record.head result = true then
            (g.assembleReceipt record.command record.head result).filter fun next =>
              !isNoProgressPendingReceipt record.head next
          else none
        match assembled with
        | some next => some (s.enter i execution (.returned holding next))
        | none => some (s.enter i execution (.leaving holding))
      | _ => none
  | .appends i env fate =>
    s.executions[i]?.bind fun execution =>
      match execution.stage with
      | .returned holding next =>
        if holding.lost = true then some (s.enter i execution (.leaving holding))
        else
          let appended := s.ledger.appendClaimedReceipt g env s.clock execution.record.command
            execution.record.head next holding.claim
          match transact s.ledger fate (appended.map fun l => (l, ())) with
          | (l, some ()) => some ({ s with ledger := l }.enter i execution .done)
          | (l, none) => some ({ s with ledger := l }.enter i execution (.leaving holding))
      | _ => none
  | .releases i env fate =>
    s.executions[i]?.bind fun execution =>
      match execution.stage with
      | .leaving holding =>
        let released := s.ledger.releaseExecutionClaim g env s.clock holding.claim
        let l := (transact s.ledger fate (released.map fun l => (l, ()))).1
        some ({ s with ledger := l }.enter i execution .done)
      | _ => none
  | .stops i => s.executions[i]?.map fun execution => s.enter i execution .done

/-- Coordinators on an empty ledger. -/
def machine : Machine System (Action R) where
  init s := s = {}
  step s action s' := act g s action = some s'

end System

/-! ### Runs -/

/-- A contract that admits every receipt that extends the one before it.  The result of an adapter
is the receipt. -/
def openSetting : Setting Receipt where
  validCommand _ := true
  validHead _ _ := true
  validReplay _ _ := true
  validateAppend _ previous next := next.sequence == previous.sequence + 1 &&
    next.previousReceiptDigest == previous.receiptDigest
  appendExtends command previous next valid := by simpa using valid
  assembleReceipt _ _ result := some result
  admitsResult _ _ _ := true
  tokenDigest token := token
  tokenDigest_injective := fun _ _ same => same
  bindingDigest binding := binding.requestDigest
  correlationHash _ _ := "correlation"
  isDigest _ := true
  claimTTL := 60

/-- A lease that is there. -/
def openEnvironment : Environment := ⟨some ⟨false, false, 1⟩, true, true⟩

namespace System

/-- The receipt with a number and a phase. -/
def receipt (sequence : ℕ) (previous digest : String) (phase : Phase) : Receipt :=
  ⟨sequence, previous, digest, .pending, phase, []⟩

/-- An operation of the one lease is begun and accepted. -/
def accepted (operation : Operation) (operationID : String) : List (Action Receipt) :=
  let command : Command :=
    ⟨⟨"tenant", operationID⟩, "lease", "generation", operation, "custody", "connection"⟩
  [.begins ⟨command, "manifest", .atMostOnceManualReconcile, 1, receipt 1 "" "one" .requested⟩
      openEnvironment,
    .loads command.key "first",
    .accepts 0 (receipt 2 "one" "two" .accepted) openEnvironment .seen]

lemma enacted : (machine openSetting).Enacts (act openSetting) {} := ⟨rfl, fun _ _ _ => id⟩

end System

end TechStack.ProviderControl
