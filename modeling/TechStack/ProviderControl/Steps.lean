import TechStack.ProviderControl.Coordinator

/-!
# What the steps of coordinators do

One lemma for each transaction of the ledger says what it has written when it is committed, and
`moves_of_act` says what a step can do to the system.  The invariants are read off these alone.

* `Acquired` and `Appended` — what an acquisition and a new receipt leave in the ledger.
* `Stage.Goes` — an execution that acquires nothing has the claim that it had, perhaps with another
  time, or none any more.
* `Moves` — the steps.  A transaction is committed or not, and the caller may see an error either
  way, so an execution may have written what it does not know of.
-/

namespace TechStack.ProviderControl

open Option Lib Table ClaimRow Ledger System Stage

variable {R : Type} {g : Setting R} {env : Environment} {clock : ℤ} {l l' : Ledger}

/-! ### Transactions -/

/-- The guards are as before, or one of a new generation was added. -/
def GuardsGrow (guards guards' : List GuardRow) : Prop :=
  guards' = guards ∨ ∃ guard, guards' = guard :: guards ∧
    ∀ other ∈ guards, other.generation ≠ guard.generation

/-- What a committed acquisition has written. -/
structure Acquired (g : Setting R) (clock : ℤ) (l l' : Ledger) (command : Command) (head : Receipt)
    (token : String) (claim : Claim) : Prop where
  key : claim.key = command.key
  sequence : claim.headSequence = head.sequence
  digest : claim.headReceiptDigest = head.receiptDigest
  token : claim.token = trimSpace token
  free : ∀ row, Table.lookup ClaimRow.head claim.head l.claims = some row →
    Ledger.takeover clock row = true
  operations : l'.operations = l.operations
  receipts : l'.receipts = l.receipts
  claims : l'.claims = Table.put ClaimRow.head (Ledger.grantedRow g clock claim) l.claims
  guards : GuardsGrow l.guards l'.guards

/-- A guard that was made for a claim and a prepared request. -/
structure GuardRow.Carries (g : Setting R) (guard : GuardRow) (command : Command) (claim : Claim)
    (binding : Binding) : Prop where
  generation : guard.generation = command.generation
  token : guard.tokenDigest = g.tokenDigest claim.token
  prepared : guard.prepared = some binding

lemma upsertExecutionClaim_eq_some {claim claim' : Claim}
    (done : l.upsertExecutionClaim g clock claim = some (l', claim')) :
    claim' = { claim with expiresAt := clock + g.claimTTL } ∧ l' = { l with
        claims := put head (grantedRow g clock claim) l.claims } ∧
      ∀ row, lookup head claim.head l.claims = some row →
        takeover clock row = true := by
  unfold upsertExecutionClaim at done
  dsimp only at done
  split at done
  case h_1 missing =>
    cases done
    exact ⟨rfl, rfl, fun row found => nomatch missing.symm.trans found⟩
  case h_2 row found =>
    obtain ⟨⟨-, free⟩, granted⟩ := ite_none_right_eq_some.mp done
    cases granted
    refine ⟨rfl, rfl, fun row' found' => ?_⟩
    cases found.symm.trans found'
    exact free

lemma insertGuard_eq_some {guard : GuardRow} (done : l.insertGuard guard = some l') :
    l' = { l with guards := guard :: l.guards } ∧
      ∀ other ∈ l.guards, other.generation ≠ guard.generation := by
  obtain ⟨new, made⟩ := ite_none_left_eq_some.mp done
  refine ⟨(Option.some.inj made).symm, fun other mem same => new ?_⟩
  exact List.any_eq_true.mpr ⟨other, mem, by simp [same]⟩

lemma ensureCrashRecoverableProvisionCustody_eq_some {record : Record} {claim : Claim}
    (done : l.ensureCrashRecoverableProvisionCustody g record claim = some l') :
    ∃ guards, l' = { l with guards := guards } ∧ GuardsGrow l.guards guards := by
  obtain ⟨-, rest⟩ := ite_none_right_eq_some.mp done
  split at rest
  · obtain ⟨-, same⟩ := ite_none_right_eq_some.mp rest
    cases same
    exact ⟨l.guards, rfl, .inl rfl⟩
  · obtain ⟨rfl, new⟩ := insertGuard_eq_some rest
    exact ⟨_, rfl, .inr ⟨_, rfl, new⟩⟩

variable {command : Command}

/-- The claim is made for the head that the caller knows. -/
lemma prepareExecutionClaim_eq_some {head : Receipt} {access : Access}
    {owner token : String} {claim : Claim}
    (done : prepareExecutionClaim g command head access owner token = some claim) :
    claim = ⟨command.key, command.resourceGenerationID, head.sequence, head.receiptDigest, access,
      trimSpace owner, trimSpace token, 0⟩ := by
  obtain ⟨-, made⟩ := ite_none_right_eq_some.mp done
  exact (Option.some.inj made).symm

/-- A claim is given, after the guards may have grown. -/
lemma acquired_of_upsert {head : Receipt} {access : Access}
    {owner token : String} {claim granted : Claim} {guards : List GuardRow}
    (prepared : prepareExecutionClaim g command head access owner token = some claim)
    (grown : GuardsGrow l.guards guards)
    (done : upsertExecutionClaim g clock { l with guards := guards } claim =
      some (l', granted)) :
    Acquired g clock l l' command head token granted ∧ granted.token = claim.token ∧
      l'.guards = guards := by
  obtain rfl := prepareExecutionClaim_eq_some prepared
  obtain ⟨rfl, rfl, free⟩ := upsertExecutionClaim_eq_some done
  exact ⟨⟨rfl, rfl, rfl, rfl, free, rfl, rfl, rfl, grown⟩, rfl, rfl⟩

lemma acquireExecutionClaim_eq_some {head : Receipt} {access : Access}
    {owner token : String} {granted : Claim}
    (done : l.acquireExecutionClaim g env clock command head access owner token =
      some (l', granted)) : Acquired g clock l l' command head token granted := by
  obtain ⟨claim, prepared, loaded⟩ := bind_eq_some_iff.mp done
  obtain ⟨record, -, checked⟩ := bind_eq_some_iff.mp loaded
  obtain ⟨-, rest⟩ := ite_none_right_eq_some.mp checked
  split at rest
  · obtain ⟨middle, ensured, upserted⟩ := bind_eq_some_iff.mp rest
    obtain ⟨guards, rfl, grown⟩ := ensureCrashRecoverableProvisionCustody_eq_some ensured
    exact (acquired_of_upsert prepared grown upserted).1
  · exact (acquired_of_upsert prepared (.inl rfl) rest).1

lemma acquireProvisionDispatchClaim_eq_some {head : Receipt}
    {binding : Binding} {owner token : String} {granted : Claim}
    (done : l.acquireProvisionDispatchClaim g env clock command head binding owner token =
      some (l', granted)) :
    Acquired g clock l l' command head token granted ∧
      ∃ guard ∈ l'.guards, guard.Carries g command granted binding := by
  obtain ⟨claim, prepared, loaded⟩ := bind_eq_some_iff.mp done
  obtain ⟨record, -, checked⟩ := bind_eq_some_iff.mp loaded
  obtain ⟨-, rest⟩ := ite_none_right_eq_some.mp checked
  obtain ⟨middle, inserted, upserted⟩ := bind_eq_some_iff.mp rest
  obtain ⟨rfl, new⟩ := insertGuard_eq_some inserted
  obtain ⟨acquired, token, guards⟩ := acquired_of_upsert prepared (.inr ⟨_, rfl, new⟩) upserted
  refine ⟨acquired, _, guards ▸ List.mem_cons_self, rfl, ?_, rfl⟩
  exact congrArg g.tokenDigest token.symm

/-- A holder changes its row. -/
lemma updateClaim_eq_some {claim : Claim} {update : ClaimRow → ClaimRow}
    (done : l.updateClaim g clock claim update = some l') :
    ∃ row, lookup head claim.head l.claims = some row ∧
      holds g clock claim row = true ∧
      l' = { l with claims := put head (update row) l.claims } := by
  obtain ⟨row, found, rest⟩ := bind_eq_some_iff.mp done
  obtain ⟨checked, made⟩ := ite_none_right_eq_some.mp rest
  exact ⟨row, found, ((Bool.and_eq_true _ _).mp checked).2, (Option.some.inj made).symm⟩

/-- What a committed append has written: the head is the one that the caller knows, and the next
receipt extends it by one. -/
structure Appended (l l' : Ledger) (command : Command) (previous next : Receipt) : Prop where
  extends_ : next.sequence = previous.sequence + 1 ∧
    next.previousReceiptDigest = previous.receiptDigest
  written : ∃ row, Table.lookup OperationRow.key command.key l.operations = some row ∧
    row.head.sequence = previous.sequence ∧ row.head.receiptDigest = previous.receiptDigest ∧
    l'.operations = Table.put OperationRow.key { row with head := next } l.operations
  receipts : l'.receipts = l.receipts ++ [(command.key, next)]
  new : ∀ entry ∈ l.receipts, entry.1 = command.key → entry.2.receiptDigest ≠ next.receiptDigest
  guards : l'.guards = l.guards

lemma loadOperation_eq_some {key : Key} {record : Record}
    (loaded : l.loadOperation key = some record) :
    lookup OperationRow.key key l.operations = some record.toOperationRow := by
  obtain ⟨row, found, rfl⟩ := map_eq_some_iff.mp loaded
  exact found

lemma persistAcceptedReceipt_eq_some {record : Record}
    {previous next : Receipt} {claims : List ClaimRow}
    (loaded : l.loadOperation command.key = some record)
    (extends_ : next.sequence = previous.sequence + 1 ∧
      next.previousReceiptDigest = previous.receiptDigest)
    (done : persistAcceptedReceipt env { l with claims := claims } record previous next =
      some l') : Appended l l' command previous next ∧ l'.claims = claims := by
  have found := loadOperation_eq_some loaded
  have key : record.command.key = command.key := (mem_of_lookup found).2
  obtain ⟨checked, made⟩ := ite_none_left_eq_some.mp done
  simp only [Bool.or_eq_true, not_or, Bool.not_eq_true, Bool.not_eq_false', headIs,
    Bool.and_eq_true, beq_iff_eq, List.any_eq_false] at checked
  obtain ⟨⟨new, -⟩, sequence, digest⟩ := checked
  obtain rfl := (Option.some.inj made).symm
  refine ⟨⟨extends_, ⟨_, found, sequence, digest, rfl⟩, by rw [← key], ?_, rfl⟩, rfl⟩
  intro entry mem same digests
  exact new entry mem ⟨same.trans key.symm, .inr digests⟩

lemma appendReceipt_eq_some {previous next : Receipt}
    (done : l.appendReceipt g env command previous next = some l') :
    Appended l l' command previous next ∧ l'.claims = l.claims ∧ previous.phase = .requested ∧
      next.phase = .accepted := by
  obtain ⟨⟨requested, accepted, valid⟩, rest⟩ := ite_none_right_eq_some.mp done
  obtain ⟨record, loaded, checked⟩ := bind_eq_some_iff.mp rest
  obtain ⟨-, persisted⟩ := ite_none_right_eq_some.mp checked
  obtain ⟨appended, claims⟩ :=
    persistAcceptedReceipt_eq_some loaded (g.appendExtends _ _ _ valid) persisted
  exact ⟨appended, claims, requested, accepted⟩

lemma appendClaimedReceipt_eq_some {previous next : Receipt} {claim : Claim}
    (done : l.appendClaimedReceipt g env clock command previous next claim = some l') :
    Appended l l' command previous next ∧ claim.head = (command.key, previous.receiptDigest) ∧
      ∃ row, lookup head claim.head l.claims = some row ∧
        row.headSequence = previous.sequence ∧ holds g clock claim row = true ∧
        l'.claims = put head { row with state := .consumed } l.claims := by
  obtain ⟨⟨key, -, sequence, digest, valid⟩, rest⟩ := ite_none_right_eq_some.mp done
  obtain ⟨record, loaded, checked⟩ := bind_eq_some_iff.mp rest
  obtain ⟨fenced, claimed⟩ := ite_none_right_eq_some.mp checked
  obtain ⟨middle, consumed, persisted⟩ := bind_eq_some_iff.mp claimed
  obtain ⟨row, found, held, rfl⟩ := updateClaim_eq_some consumed
  obtain ⟨appended, claims⟩ :=
    persistAcceptedReceipt_eq_some loaded (g.appendExtends _ _ _ valid) persisted
  simp only [found, any_some, Bool.and_eq_true, beq_iff_eq] at fenced
  exact ⟨appended, Prod.ext key digest, row, found, fenced.1.2.1.trans sequence, held, claims⟩

lemma beginOperation_eq_some {row : OperationRow} (done : l.beginOperation g env row = some l') :
    lookup OperationRow.key row.key l.operations = none ∧ row.head.sequence = 1 ∧
      row.head.phase = .requested ∧
      l' = { l with
        operations := put OperationRow.key row l.operations
        receipts := l.receipts ++ [(row.key, row.head)] } := by
  obtain ⟨checked, made⟩ := ite_none_right_eq_some.mp done
  simp only [Bool.and_eq_true, beq_iff_eq, isNone_iff_eq_none] at checked
  obtain ⟨⟨⟨⟨⟨⟨⟨-, sequence⟩, -⟩, requested⟩, -⟩, -⟩, -⟩, missing⟩ := checked
  exact ⟨missing, sequence, requested, (Option.some.inj made).symm⟩

/-! ### Steps -/

/-- The same claim, perhaps with another time. -/
def Claim.Same (claim claim' : Claim) : Prop :=
  claim' = { claim with expiresAt := claim'.expiresAt }

lemma Claim.Same.refl (claim : Claim) : claim.Same claim := rfl

lemma Claim.Same.token {claim claim' : Claim} (same : claim.Same claim') :
    claim'.token = claim.token := (congrArg Claim.token same).trans rfl

lemma Claim.Same.head {claim claim' : Claim} (same : claim.Same claim') :
    claim'.head = claim.head := (congrArg Claim.head same).trans rfl

/-- How an execution goes on without acquiring anything. -/
structure Stage.Goes (stage stage' : Stage) : Prop where
  claim : ∀ holding', stage'.holding = some holding' →
    ∃ holding, stage.holding = some holding ∧ holding.claim.Same holding'.claim
  permit : ∀ holding' permit, stage' = .granted holding' (some permit) →
    ∃ holding, stage = .granted holding (some permit) ∧ holding.claim.Same holding'.claim
  acquired : System.acquiring stage' = true → System.acquiring stage = true

lemma Stage.Goes.done (stage : Stage) : stage.Goes .done :=
  ⟨fun _ held => (nomatch held), fun _ _ same => (nomatch same), fun acquiring => (nomatch acquiring)⟩

/-- The heartbeat changes nothing but the time of the claim. -/
lemma Stage.goes_withHolding {stage : Stage} {holding holding' : Holding}
    (held : stage.holding = some holding) (same : holding.claim.Same holding'.claim) :
    stage.Goes (stage.withHolding holding') := by
  cases stage with
  | granted before permit =>
    cases held
    refine ⟨fun after eq => ?_, fun after permit' eq => ?_, fun acquiring => nomatch acquiring⟩
    · cases eq
      exact ⟨_, rfl, same⟩
    · injection eq with first second
      subst first second
      exact ⟨_, rfl, same⟩
  | executing before | returned before next | leaving before =>
    cases held
    refine ⟨fun after eq => ?_, fun _ _ eq => (nomatch eq), fun acquiring => (nomatch acquiring)⟩
    cases eq
    exact ⟨_, rfl, same⟩
  | loaded | prepared binding | done => cases held

/-- **What a step can do.** -/
inductive Moves (g : Setting R) (s : System) : Action R → System → Prop where
  | outside {l : Ledger} {clock : ℤ} (later : s.clock ≤ clock)
      (operations : l.operations = s.ledger.operations) (receipts : l.receipts = s.ledger.receipts)
      (claims : l.claims = s.ledger.claims) (guards : l.guards = s.ledger.guards) :
      Moves g s a { s with ledger := l, clock := clock }
  | begins {env : Environment} (row : OperationRow)
      (new : Table.lookup OperationRow.key row.key s.ledger.operations = none)
      (first : row.head.sequence = 1) (requested : row.head.phase = .requested) :
      Moves g s (.begins row env) { s with ledger := { s.ledger with
        operations := Table.put OperationRow.key row s.ledger.operations
        receipts := s.ledger.receipts ++ [(row.key, row.head)] } }
  | loads {key : Key} {owner : String} (stage : Stage)
      (loaded : s.ledger.loadOperation key = some record) (free : stage = .loaded ∨ stage = .done) :
      Moves g s (.loads key owner)
        { s with executions := s.executions ++ [⟨record, owner, stage⟩] }
  /-- An execution goes on, and the ledger stays. -/
  | enters (held : s.executions[i]? = some execution) (goes : execution.stage.Goes stage) :
      Moves g s a (s.enter i execution stage)
  /-- A holder renews or releases its claim. -/
  | settles {holding : Holding} (held : s.executions[i]? = some execution)
      (goes : execution.stage.Goes stage)
      (found : Table.lookup ClaimRow.head holding.claim.head s.ledger.claims = some row)
      (holds : Ledger.holds g s.clock holding.claim row = true) (head : row'.head = row.head)
      (token : row'.tokenDigest = row.tokenDigest) :
      Moves g s a (System.enter { s with ledger := { s.ledger with
        claims := Table.put ClaimRow.head row' s.ledger.claims } } i execution stage)
  | accepts {env : Environment} {l : Ledger} (held : s.executions[i]? = some execution)
      (appended : Appended s.ledger l execution.record.command execution.record.head next)
      (claims : l.claims = s.ledger.claims) (requested : execution.record.head.phase = .requested)
      (accepted : next.phase = .accepted) :
      Moves g s (.accepts i next env fate) (System.enter { s with ledger := l } i execution .done)
  /-- A claim is acquired; the execution may not come to know. -/
  | acquires {env : Environment} {l : Ledger} {claim : Claim}
      (held : s.executions[i]? = some execution)
      (acquiring : System.acquiring execution.stage = true) (solid : trimSpace token = token)
      (fresh : ∀ j, (token, j) ∉ s.issued)
      (acquired : Acquired g s.clock s.ledger l execution.record.command execution.record.head
        token claim)
      (holding : ∀ holding, stage.holding = some holding → holding.claim = claim)
      (permit : ∀ holding permit, stage = .granted holding (some permit) →
        ∃ guard ∈ l.guards, guard.Carries g execution.record.command claim permit.1)
      (spent : System.acquiring stage = false) :
      Moves g s (.acquires i token env fate) (System.enter
        { s with ledger := l, issued := (token, i) :: s.issued } i execution stage)
  | refused {env : Environment} (held : s.executions[i]? = some execution)
      (fresh : ∀ j, (token, j) ∉ s.issued) : Moves g s (.acquires i token env fate)
        (System.enter { s with issued := (token, i) :: s.issued } i execution .done)
  | dispatches {holding : Holding} (held : s.executions[i]? = some execution)
      (granted : execution.stage = .granted holding (some (binding, permit))) :
      Moves g s (.calls i) { s.enter i execution (.executing holding) with
        dispatches := s.dispatches ++ [⟨i, execution.record.command, holding.claim, binding⟩] }
  | appends {holding : Holding} {env : Environment} {l : Ledger}
      (held : s.executions[i]? = some execution)
      (returned : execution.stage = .returned holding next)
      (appended : Appended s.ledger l execution.record.command execution.record.head next)
      (head : holding.claim.head =
        (execution.record.command.key, execution.record.head.receiptDigest))
      (found : Table.lookup ClaimRow.head holding.claim.head s.ledger.claims = some row)
      (sequence : row.headSequence = execution.record.head.sequence)
      (holds : Ledger.holds g s.clock holding.claim row = true)
      (claims : l.claims = Table.put ClaimRow.head { row with state := .consumed }
        s.ledger.claims)
      (goes : execution.stage.Goes stage) :
      Moves g s (.appends i env fate) (System.enter { s with ledger := l } i execution stage)

/-- What a caller and the ledger make of a transaction. -/
lemma transact_cases {α : Type} (fate : Fate) (committed : Option (Ledger × α)) :
    transact l fate committed = (l, none) ∨ ∃ l' value, committed = some (l', value) ∧
        (transact l fate committed = (l', some value) ∨
          transact l fate committed = (l', none)) := by
  cases committed with
  | none => cases fate <;> exact .inl rfl
  | some result =>
    obtain ⟨l', value⟩ := result
    cases fate with
    | seen => exact .inr ⟨l', value, rfl, .inl rfl⟩
    | lost => exact .inr ⟨l', value, rfl, .inr rfl⟩
    | failed => exact .inl rfl

/-- The same for a transaction that returns nothing. -/
lemma transact_unit_cases (fate : Fate) (committed : Option Ledger) :
    transact l fate (committed.map fun l => (l, ())) = (l, none) ∨
      ∃ l' reply, committed = some l' ∧
        transact l fate (committed.map fun l => (l, ())) = (l', reply) := by
  rcases transact_cases (l := l) fate (committed.map fun l => (l, ())) with
    same | ⟨l', value, made, reply⟩
  · exact .inl same
  · obtain ⟨l'', found, eq⟩ := map_eq_some_iff.mp made
    obtain ⟨rfl, -⟩ := Prod.mk.inj eq
    rcases reply with seen | lost
    · exact .inr ⟨_, _, found, seen⟩
    · exact .inr ⟨_, _, found, lost⟩

variable {s s' : System}

/-- The stages that come after the call. -/
lemma goes_on {stage stage' : Stage} {holding : Holding} (held : stage.holding = some holding)
    (held' : stage'.holding = some holding)
    (called : ∀ holding permit, stage' ≠ .granted holding (some permit)) :
    stage.Goes stage' := by
  refine ⟨fun holding' eq => ?_, fun holding' permit eq => absurd eq (called _ _), ?_⟩
  · cases held'.symm.trans eq
    exact ⟨_, held, .refl _⟩
  · intro acquiring
    cases stage' with
    | loaded | prepared binding => cases held'
    | granted | executing | returned | leaving | done => cases acquiring

variable {i : ℕ}

lemma moves_accepts {next : Receipt} {fate : Fate}
    (acted : act g s (.accepts i next env fate) = some s') :
    Moves g s (.accepts i next env fate) s' := by
  obtain ⟨execution, held, rest⟩ := bind_eq_some_iff.mp acted
  obtain ⟨-, made⟩ := ite_none_right_eq_some.mp rest
  dsimp only at made
  rcases transact_unit_cases fate (s.ledger.appendReceipt g env execution.record.command
    execution.record.head next) with same | ⟨l', reply, done, eq⟩
  · rw [same] at made
    cases made
    exact .enters held (.done _)
  · obtain ⟨appended, claims, requested, accepted⟩ := appendReceipt_eq_some done
    rw [eq] at made
    cases made
    exact .accepts held appended claims requested accepted

/-- A claim is held as it was given, with a permit only for a prepared request. -/
lemma grantedStage_spec (g : Setting R) (stage : Stage) (claim : Claim) :
    (∀ holding, (grantedStage g stage claim).holding = some holding →
      holding.claim = claim) ∧
    (∀ holding permit, grantedStage g stage claim = .granted holding (some permit) →
      stage = .prepared permit.1) ∧
    acquiring (grantedStage g stage claim) = false := by
  unfold grantedStage
  split
  · dsimp only
    split
    · refine ⟨fun holding eq => ?_, fun holding permit eq => ?_, rfl⟩
      · cases eq
        rfl
      · injection eq with first second
        cases second
        rfl
    · exact ⟨fun _ eq => (nomatch eq), fun _ _ eq => (nomatch eq), rfl⟩
  · refine ⟨fun holding eq => ?_, fun holding permit eq => ?_, rfl⟩
    · cases eq
      rfl
    · injection eq with first second
      cases second

/-- What the ledger has written for an acquisition. -/
lemma acquire_eq_some {execution : Execution} {token : String} {claim : Claim}
    (done : acquire g s execution token env = some (l', claim)) :
    Acquired g s.clock s.ledger l' execution.record.command execution.record.head token claim ∧
      ∀ binding, execution.stage = .prepared binding →
        ∃ guard ∈ l'.guards, guard.Carries g execution.record.command claim binding := by
  unfold acquire at done
  dsimp only at done
  split at done
  case h_1 binding stage =>
    obtain ⟨acquired, guarded⟩ := acquireProvisionDispatchClaim_eq_some done
    refine ⟨acquired, fun binding' same => ?_⟩
    obtain rfl := prepared.inj (stage.symm.trans same)
    exact guarded
  case h_2 stage =>
    obtain ⟨access, -, plain⟩ := bind_eq_some_iff.mp done
    exact ⟨acquireExecutionClaim_eq_some plain, fun _ same => (nomatch stage.symm.trans same)⟩
  case h_3 => cases done

lemma moves_acquires {token : String} {fate : Fate}
    (acted : act g s (.acquires i token env fate) = some s') :
    Moves g s (.acquires i token env fate) s' := by
  obtain ⟨execution, held, rest⟩ := bind_eq_some_iff.mp acted
  obtain ⟨⟨acquiring, solid, unused⟩, made⟩ := ite_none_right_eq_some.mp rest
  have fresh : ∀ j, (token, j) ∉ s.issued := fun j mem =>
    absurd rfl (bne_iff_ne.mp (List.all_eq_true.mp unused _ mem))
  rcases transact_cases (l := s.ledger) fate (acquire g s execution token env) with
    same | ⟨l', claim, done, seen | lost⟩
  · rw [same] at made
    cases made
    exact .refused held fresh
  · obtain ⟨acquired, guarded⟩ := acquire_eq_some done
    obtain ⟨holding, permit, spent⟩ := grantedStage_spec g execution.stage claim
    rw [seen] at made
    cases made
    exact .acquires held acquiring solid fresh acquired holding
      (fun holding' permit' eq => guarded _ (permit holding' permit' eq)) spent
  · rw [lost] at made
    cases made
    exact .acquires held acquiring solid fresh (acquire_eq_some done).1 (fun _ eq => (nomatch eq))
      (fun _ _ eq => (nomatch eq)) rfl

lemma renewExecutionClaim_eq_some {claim renewed : Claim}
    (done : l.renewExecutionClaim g env clock claim = some (l', renewed)) :
    claim.Same renewed ∧ ∃ row, lookup head claim.head l.claims = some row ∧
      holds g clock claim row = true ∧ l' = { l with
        claims := put head { row with expiresAt := clock + g.claimTTL }
          l.claims } := by
  obtain ⟨-, rest⟩ := ite_none_right_eq_some.mp done
  obtain ⟨l'', updated, eq⟩ := map_eq_some_iff.mp rest
  obtain ⟨rfl, rfl⟩ := Prod.mk.inj eq
  exact ⟨rfl, updateClaim_eq_some updated⟩

lemma moves_renews {fate : Fate} (acted : act g s (.renews i env fate) = some s') :
    Moves g s (.renews i env fate) s' := by
  obtain ⟨execution, held, rest⟩ := bind_eq_some_iff.mp acted
  obtain ⟨holding, stage, checked⟩ := bind_eq_some_iff.mp rest
  obtain ⟨-, made⟩ := ite_none_right_eq_some.mp checked
  rcases transact_cases (l := s.ledger) fate
    (s.ledger.renewExecutionClaim g env s.clock holding.claim) with
    same | ⟨l', claim, done, seen | lost⟩
  · rw [same] at made
    cases made
    exact .enters held (goes_withHolding stage (.refl _))
  · obtain ⟨same, row, found, holds, rfl⟩ := renewExecutionClaim_eq_some done
    rw [seen] at made
    cases made
    exact .settles held (goes_withHolding stage same) found holds rfl rfl
  · obtain ⟨-, row, found, holds, rfl⟩ := renewExecutionClaim_eq_some done
    rw [lost] at made
    cases made
    exact .settles held (goes_withHolding stage (.refl _)) found holds rfl rfl

lemma moves_releases {fate : Fate} (acted : act g s (.releases i env fate) = some s') :
    Moves g s (.releases i env fate) s' := by
  obtain ⟨execution, held, rest⟩ := bind_eq_some_iff.mp acted
  split at rest
  case h_1 holding stage =>
    dsimp only at rest
    rcases transact_unit_cases fate
      (s.ledger.releaseExecutionClaim g env s.clock holding.claim) with same | ⟨l', reply, done, eq⟩
    · rw [same] at rest
      cases rest
      exact .enters held (.done _)
    · obtain ⟨-, updated⟩ := ite_none_right_eq_some.mp done
      obtain ⟨row, found, holds, rfl⟩ := updateClaim_eq_some updated
      rw [eq] at rest
      cases rest
      exact .settles held (.done _) found holds rfl rfl
  case h_2 => cases rest

lemma moves_appends {fate : Fate} (acted : act g s (.appends i env fate) = some s') :
    Moves g s (.appends i env fate) s' := by
  obtain ⟨execution, held, rest⟩ := bind_eq_some_iff.mp acted
  split at rest
  case h_2 => cases rest
  case h_1 holding next stage =>
    have leaving : execution.stage.Goes (.leaving holding) :=
      goes_on (congrArg Stage.holding stage) rfl fun _ _ eq => nomatch eq
    split at rest
    · cases rest
      exact .enters held leaving
    · dsimp only at rest
      rcases transact_unit_cases fate (s.ledger.appendClaimedReceipt g env s.clock
        execution.record.command execution.record.head next holding.claim) with
        same | ⟨l', reply, done, eq⟩
      · rw [same] at rest
        cases rest
        exact .enters held leaving
      · obtain ⟨appended, head, row, found, sequence, holds, claims⟩ :=
          appendClaimedReceipt_eq_some done
        rw [eq] at rest
        cases reply with
        | none =>
          cases rest
          exact .appends held stage appended head found sequence holds claims leaving
        | some reply =>
          cases rest
          exact .appends held stage appended head found sequence holds claims (.done _)

lemma moves_calls (acted : act g s (.calls i) = some s') : Moves g s (.calls i) s' := by
  obtain ⟨execution, held, rest⟩ := bind_eq_some_iff.mp acted
  split at rest <;> cases rest
  case h_1 holding binding permit stage =>
    exact .dispatches held stage
  case h_2 holding stage =>
    exact .enters held (goes_on (congrArg Stage.holding stage) rfl fun _ _ eq => nomatch eq)

lemma moves_returns {result : R} (acted : act g s (.returns i result) = some s') :
    Moves g s (.returns i result) s' := by
  obtain ⟨execution, held, rest⟩ := bind_eq_some_iff.mp acted
  split at rest
  case h_1 holding stage =>
    dsimp only at rest
    have called := congrArg Stage.holding stage
    split at rest
    all_goals cases rest
    all_goals exact .enters held (goes_on called rfl fun _ _ eq => nomatch eq)
  case h_2 => cases rest

/-- **Every step is one of the moves.** -/
lemma moves_of_act {a : Action R} (acted : act g s a = some s') : Moves g s a s' := by
  cases a with
  | ticks clock =>
    obtain ⟨later, made⟩ := ite_none_right_eq_some.mp acted
    cases made
    exact .outside later rfl rfl rfl rfl
  | begins row env =>
    obtain ⟨l, begun, rfl⟩ := map_eq_some_iff.mp acted
    obtain ⟨new, first, requested, rfl⟩ := beginOperation_eq_some begun
    exact .begins row new first requested
  | terminalizes key =>
    obtain ⟨l, finalized, rfl⟩ := map_eq_some_iff.mp acted
    obtain ⟨row, -, rfl⟩ := map_eq_some_iff.mp finalized
    exact .outside le_rfl rfl rfl rfl rfl
  | loads key owner =>
    obtain ⟨record, filtered, rfl⟩ := map_eq_some_iff.mp acted
    obtain ⟨loaded, -⟩ := filter_eq_some_iff.mp filtered
    refine .loads _ loaded ?_
    unfold firstStage
    split
    · exact .inr rfl
    · exact .inl rfl
  | accepts i next env fate => exact moves_accepts acted
  | prepares i binding =>
    obtain ⟨execution, held, rest⟩ := bind_eq_some_iff.mp acted
    obtain ⟨⟨stage, -⟩, made⟩ := ite_none_right_eq_some.mp rest
    cases made
    refine .enters held ⟨fun _ eq => (nomatch eq), fun _ _ eq => (nomatch eq), fun _ => ?_⟩
    rw [stage]
    rfl
  | acquires i token env fate => exact moves_acquires acted
  | calls i => exact moves_calls acted
  | renews i env fate => exact moves_renews acted
  | notices i =>
    obtain ⟨execution, held, rest⟩ := bind_eq_some_iff.mp acted
    obtain ⟨holding, stage, checked⟩ := bind_eq_some_iff.mp rest
    obtain ⟨-, made⟩ := ite_none_right_eq_some.mp checked
    cases made
    exact .enters held (goes_withHolding stage (.refl _))
  | returns i result => exact moves_returns acted
  | appends i env fate => exact moves_appends acted
  | releases i env fate => exact moves_releases acted
  | stops i =>
    obtain ⟨execution, held, rfl⟩ := map_eq_some_iff.mp acted
    exact .enters held (.done _)

end TechStack.ProviderControl
