import TechStack.GuardReach.Model

/-!
# Revoked until bound anew

A row that was revoked is to come back only with a key or a pairing it did not have.  The pass
that brings it back decides on the row it has leased, and its first write sets the row active
without looking whether the row has been revoked since.  `Fresh` names the steps that keep out
of this window, and `revoked_until_rebound` says that they keep the rule.

The first half of the module says once what a step can do to the row, the registries and what
is under way; the module on the registries uses it too.
-/

namespace TechStack.GuardReach

open List Option Lib

/-! ### Writes that leave the binding alone -/

/-- A write that leaves the desired state and the binding as they are, and puts no target to
revoked.  Where it changes what is published, the target is pending and keeps its address. -/
structure Row.Alike (r r' : Row) : Prop where
  desired : r'.desired = r.desired
  binding : r'.binding = r.binding
  generation : r'.generation = r.generation
  target : r'.me = r.me ∧ r'.publicReach = r.publicReach ∨
    r'.publicReach ≠ r.publicReach ∧ r'.me.state = .pending ∧ r'.me.ref = r.me.ref
  connect : r'.connect.state = r.connect.state ∨ r'.connect.state ≠ .revoked
  tenant : r.connectTenantID ≠ "" → r'.connectTenantID ≠ ""

namespace Row

lemma Alike.refl (r : Row) : r.Alike r := ⟨rfl, rfl, rfl, .inl ⟨rfl, rfl⟩, .inl rfl, id⟩

lemma Alike.me {r r' : Row} (alike : r.Alike r') :
    r'.me.state = r.me.state ∨ r'.me.state ≠ .revoked := by
  rcases alike.target with ⟨same, -⟩ | ⟨-, pending, -⟩
  · exact .inl (by rw [same])
  · exact .inr (by simp [pending])

lemma alike_settle {r snapshot : Row} {apply : Row → Row} (alike : ∀ r, Alike r (apply r)) :
    r.Alike (r.settle snapshot apply) := by
  unfold settle
  split
  · exact alike r
  · exact .refl r

/-- Rescheduling touches nothing else. -/
lemma reschedule_eq (r : Row) (failure : String) (now : ℤ) : ∃ attempts lastError nextAttemptAt,
      r.reschedule failure now = { r with attempts, lastError, nextAttemptAt } := by
  unfold reschedule
  split
  · exact ⟨_, _, _, rfl⟩
  · split <;> exact ⟨_, _, _, rfl⟩

lemma alike_rejectProof (r snapshot : Row) : r.Alike (r.rejectProof snapshot) := by
  unfold rejectProof
  split
  · exact .refl r
  · exact ⟨rfl, rfl, rfl, .inl ⟨rfl, rfl⟩, .inl rfl, id⟩

lemma alike_recordNode (r snapshot : Row) (error : Option CallError) (nodeID : String)
    (now : ℤ) : r.Alike (r.recordNode snapshot error nodeID now) := by
  unfold recordNode
  split
  · exact .refl r
  · cases error with
    | some e => exact ⟨rfl, rfl, rfl, .inl ⟨rfl, rfl⟩, .inr (by simp), id⟩
    | none =>
      dsimp only
      split
      · exact .refl r
      · exact ⟨rfl, rfl, rfl, .inl ⟨rfl, rfl⟩, .inr (by simp), id⟩

lemma alike_setPublic (r : Row) (owner : String) (want : PublicReach) (now : ℤ) :
    r.Alike (r.setPublic owner want now) := by
  unfold setPublic
  split
  · exact .refl r
  · rename_i changed
    exact ⟨rfl, rfl, rfl, .inr ⟨fun same => changed (.inr (.inr same.symm)), rfl, rfl⟩, .inl rfl,
      id⟩

lemma alike_applyRelayReport (r : Row) (report : RelayReport) :
    r.Alike (r.applyRelayReport report) := by
  unfold applyRelayReport
  split
  · exact ⟨rfl, rfl, rfl, .inl ⟨rfl, rfl⟩, .inl rfl, id⟩
  · exact .refl r

end Row

/-! ### What a step does -/

/-- The events a consumer has still to apply. -/
def Consumer.held : Consumer → List Revocation
  | .reading events _ => events
  | .found event events _ | .revoking event events _ | .recording event events _ =>
    event :: events
  | .done => []

/-- The event whose row was read and found to be concerned. -/
def Consumer.concerned : Consumer → Option Revocation
  | .revoking event _ _ | .recording event _ _ => some event
  | .reading _ _ | .found _ _ _ | .done => none

variable {q q' : Reach} {move : Move}

namespace Reach

/-- The changes to the row, the registries and what is under way. -/
inductive Happens (q : Reach) : Move → Reach → Prop where
  | claims (now lease : ℤ) :
      q.Happens (.claim now lease) { q with
        row := { q.row with nextAttemptAt := now + lease }
        passes := q.passes ++ [.claimed { q.row with nextAttemptAt := now + lease }
          q.revocations] }
  | resolves (i : ℕ) (snapshot : Row) (subject : Option Subject) (seen : ℕ) :
      q.passes[i]? = some (.claimed snapshot seen) →
      q.Happens (.resolve i subject) (q.setPass i (.resolved snapshot subject seen))
  /-- Nothing is decided, and the row is put off. -/
  | defers (i : ℕ) (snapshot : Row) (subject : Option Subject) (seen : ℕ) (now : ℤ)
      (row : Row) : q.passes[i]? = some (.resolved snapshot subject seen) → q.row.Alike row →
      q.Happens (.decide i now) ({ q with row }.setPass i .done)
  | marks (i : ℕ) (snapshot : Row) (subject : Subject) (seen : ℕ) (now : ℤ) :
      q.passes[i]? = some (.resolved snapshot (some subject) seen) →
      snapshot.decideAction subject = .revoke →
      q.Happens (.decide i now)
        ({ q with row := q.row.markRevoked }.setPass i (.afterMark q.row.markRevoked))
  | registers (i : ℕ) (snapshot : Row) (subject : Subject) (seen : ℕ) (now : ℤ) :
      q.passes[i]? = some (.resolved snapshot (some subject) seen) →
      snapshot.decideAction subject = .register →
      q.Happens (.decide i now) ({ q with row := q.row.register subject }.setPass i
        (.afterRegister (q.row.register subject)))
  | withdraws (i : ℕ) (current : Row) (outcome : Outcome) :
      q.passes[i]? = some (.withdrawing current) →
      q.Happens (.withdraw i outcome)
        ((q.setMe outcome false).setPass i (.afterWithdraw current outcome))
  | routes (i : ℕ) (current : Row) (address : String) : q.passes[i]? = some (.routing current) →
      q.Happens (.ensureRoute i (.ok address)) (q.setPass i (.registering current address))
  | unrouted (i : ℕ) (current : Row) (e : CallError) : q.passes[i]? = some (.routing current) →
      q.Happens (.ensureRoute i (.error e)) (q.setPass i (.meFailed current (meReason e)))
  | registersServer (i : ℕ) (current : Row) (address : String) (outcome : Outcome) :
      q.passes[i]? = some (.registering current address) →
      q.Happens (.registerServer i outcome)
        ((q.setMe outcome true).setPass i (.afterRegisterServer current address outcome))
  | settles (i : ℕ) (current : Row) (failure : String) (now : ℤ) :
      q.passes[i]? = some (.settling current failure) →
      q.Happens (.settle i now)
        ({ q with row := q.row.settleRegister current failure now }.setPass i .done)
  | revokesServer (i : ℕ) (current : Row) (outcome : Outcome) :
      q.passes[i]? = some (.revokingMe current) →
      q.Happens (.revokeServer i outcome)
        ((q.setMe outcome false).setPass i (.afterRevokeServer current outcome))
  | revokesNode (i : ℕ) (current : Row) (failed : Bool) (outcome : Outcome) :
      q.passes[i]? = some (.revokingConnect current failed) →
      q.Happens (.revokeNode i outcome) ((q.revokeNode current current.revokeReason
        outcome).setPass i (.afterRevokeNode current failed outcome))
  | writes (i : ℕ) (current : Row) (failed : Bool) (now : ℤ) :
      q.passes[i]? = some (.writing current failed) →
      q.Happens (.write i now)
        ({ q with row := q.row.writeRevoked current failed now }.setPass i .done)
  | presents (valid : Bool) (now : ℤ) : q.row.proofWanted now = true →
      q.Happens (.present valid now) { q with
        exchanges := q.exchanges ++ [if valid then .proved q.row else .rejected q.row] }
  | rejects (i : ℕ) (snapshot : Row) : q.exchanges[i]? = some (.rejected snapshot) →
      q.Happens (.reject i)
        ({ q with row := q.row.rejectProof snapshot }.setExchange i .done)
  | puts (i : ℕ) (snapshot : Row) (outcome : Outcome) (nodeID : String)
      (error : Option CallError) : q.exchanges[i]? = some (.proved snapshot) →
      q.Happens (.putNode i outcome nodeID)
        ((q.putNode outcome).setExchange i (.put snapshot error nodeID))
  | records (i : ℕ) (snapshot : Row) (error : Option CallError) (nodeID : String) (now : ℤ) :
      q.exchanges[i]? = some (.put snapshot error nodeID) →
      q.Happens (.record i now)
        ({ q with row := q.row.recordNode snapshot error nodeID now }.setExchange i
          (if q.row.mustUndo snapshot error then .undoing snapshot else .done))
  | undoes (i : ℕ) (snapshot : Row) (outcome : Outcome) :
      q.exchanges[i]? = some (.undoing snapshot) →
      q.Happens (.undo i outcome) ((q.revokeNode snapshot "detached" outcome).setExchange i .done)
  | reads (count next : ℕ) :
      q.Happens (.read count) { q with
        consumers := q.consumers ++ [.reading ((q.events.drop q.cursor).take count) next] }
  /-- A consumer goes on; it holds no event it did not hold before. -/
  | consumes (move : Move) (i : ℕ) (consumer consumer' : Consumer) :
      q.consumers[i]? = some consumer → consumer'.held ⊆ consumer.held →
      (∀ event, consumer'.concerned = some event →
        consumer.concerned = some event ∨ event.echo = false) → move.pass = none →
      q.Happens move (q.setConsumer i consumer')
  | applies (i : ℕ) (event : Revocation) (events : List Revocation) (next : ℕ) (now : ℤ) :
      q.consumers[i]? = some (.recording event events next) →
      q.Happens (.applyRevocation i now)
        ({ q with row := q.row.applyRevocation event now }.setConsumer i (.reading events next))
  | advances (i next : ℕ) : q.consumers[i]? = some (.reading [] next) →
      q.Happens (.advance i) ({ q with cursor := max q.cursor next }.setConsumer i .done)
  | ownerRevokes (event : Revocation) :
      q.Happens (.ownerRevokes event)
        { q with connectLive := false, events := q.events ++ [event] }
  | alters (move : Move) (row : Row) (observed : Bool) : q.row.Alike row →
      move.pass = none → q.Happens move { q with row, observed }

lemma happens_of_actPass (stepped : q.actPass move = some q') : q.Happens move q' := by
  cases move with
  | claim now lease =>
    obtain ⟨-, ⟨⟩⟩ := ite_none_right_eq_some.mp stepped
    exact .claims now lease
  | decide i now =>
    simp only [actPass] at stepped
    split at stepped
    case h_1 snapshot seen here =>
      cases stepped
      refine .defers i snapshot none seen now _ here (Row.alike_settle fun r => ?_)
      exact ⟨rfl, rfl, rfl, .inl ⟨rfl, rfl⟩, .inl rfl, id⟩
    case h_2 snapshot subject seen here =>
      split at stepped
      case h_1 revoke =>
        cases stepped
        exact .marks i snapshot subject seen now here revoke
      case h_2 wait =>
        cases stepped
        refine .defers i snapshot (some subject) seen now _ here (Row.alike_settle fun r => ?_)
        exact ⟨rfl, rfl, rfl, .inl ⟨rfl, rfl⟩, .inl rfl, id⟩
      case h_3 register =>
        cases stepped
        exact .registers i snapshot subject seen now here register
    case h_3 => cases stepped
  | ensureRoute i route =>
    simp only [actPass] at stepped
    split at stepped
    case h_1 current here =>
      cases route with
      | ok address =>
        cases stepped
        exact .routes i current address here
      | error e =>
        cases stepped
        exact .unrouted i current e here
    case h_2 => cases stepped
  | resolve | withdraw | registerServer | settle | revokeServer | revokeNode | write =>
    simp only [actPass] at stepped
    split at stepped <;> cases stepped
    constructor
    assumption
  | _ => cases stepped

lemma happens_of_actExchange (stepped : q.actExchange move = some q') : q.Happens move q' := by
  cases move with
  | present valid now =>
    obtain ⟨wanted, ⟨⟩⟩ := ite_none_right_eq_some.mp stepped
    exact .presents valid now wanted
  | reject | putNode | record | undo =>
    simp only [actExchange] at stepped
    split at stepped <;> cases stepped
    constructor
    assumption
  | _ => cases stepped

/-- A row an event concerns is not concerned by an echo. -/
lemma echo_of_concerns {r : Row} {event : Revocation} (concerns : r.concerns event = true) :
    event.echo = false := by
  simp only [Row.concerns, Bool.and_eq_true, Bool.not_eq_true'] at concerns
  exact concerns.2

lemma happens_of_actConsumer (stepped : q.actConsumer move = some q') : q.Happens move q' := by
  cases move with
  | read count =>
    cases stepped
    exact .reads count _
  | find i =>
    simp only [actConsumer] at stepped
    split at stepped
    case h_1 event events next here =>
      split at stepped <;> cases stepped
      · exact .consumes _ i _ _ here (List.Subset.refl _) (by simp [Consumer.concerned]) rfl
      · exact .consumes _ i _ _ here (subset_cons_self _ _) (by simp [Consumer.concerned])
          rfl
    case h_2 => cases stepped
  | get i =>
    simp only [actConsumer] at stepped
    split at stepped
    case h_1 event events next here =>
      split at stepped <;> cases stepped
      · rename_i concerns
        refine .consumes _ i _ _ here (List.Subset.refl _) ?_ rfl
        rintro e ⟨⟩
        exact .inr (echo_of_concerns concerns)
      · exact .consumes _ i _ _ here (subset_cons_self _ _) (by simp [Consumer.concerned])
          rfl
    case h_2 => cases stepped
  | revokeAccess i works =>
    simp only [actConsumer] at stepped
    split at stepped
    case h_1 event events next here =>
      split at stepped <;> cases stepped
      · exact .consumes _ i _ _ here (List.Subset.refl _) (fun e same => .inl same) rfl
      · exact .consumes _ i _ _ here (nil_subset _) (by simp [Consumer.concerned]) rfl
    case h_2 => cases stepped
  | applyRevocation | advance =>
    simp only [actConsumer] at stepped
    split at stepped <;> cases stepped
    constructor
    assumption
  | _ => cases stepped

lemma happens_of_actOwner (stepped : q.actOwner move = some q') : q.Happens move q' := by
  cases move with
  | ownerRevokes event =>
    cases stepped
    exact .ownerRevokes event
  | setPublic owner want now =>
    obtain ⟨normal, -, rfl⟩ := map_eq_some_iff.mp stepped
    exact .alters _ _ q.observed (Row.alike_setPublic _ _ _ _) rfl
  | enroll serverID owner connectTenantID =>
    simp only [actOwner] at stepped
    split at stepped <;> cases stepped
    · refine .alters _ _ _ ⟨rfl, rfl, rfl, .inl ⟨rfl, rfl⟩, .inl rfl, fun named => ?_⟩ rfl
      show (if _ then _ else _) ≠ ""
      split
      case isTrue observes =>
        simp only [Bool.and_eq_true, bne_iff_ne] at observes
        exact observes.1
      case isFalse => exact named
    · exact .alters _ q.row q.observed (.refl _) rfl
  | report report =>
    cases stepped
    exact .alters _ _ q.observed (Row.alike_applyRelayReport _ _) rfl
  | _ => cases stepped

/-- Every step is one of these changes, with a revocation of the row counted. -/
lemma happens_of_act (stepped : q.act move = some q') :
    ∃ after, q.Happens move after ∧ q' = q.counted after := by
  obtain ⟨after, acted, rfl⟩ := map_eq_some_iff.mp stepped
  refine ⟨after, ?_, rfl⟩
  rcases or_eq_some_iff.mp acted with pass | ⟨-, acted⟩
  · exact happens_of_actPass pass
  rcases or_eq_some_iff.mp acted with exchange | ⟨-, acted⟩
  · exact happens_of_actExchange exchange
  rcases or_eq_some_iff.mp acted with consumer | ⟨-, owner⟩
  · exact happens_of_actConsumer consumer
  · exact happens_of_actOwner owner

end Reach

/-! ### The binding -/

/-- A pass that has read the row and not written to it: the row it read, and the revocations
there were. -/
def Pass.watching : Pass → Option (Row × ℕ)
  | .claimed snapshot seen | .resolved snapshot _ seen => some (snapshot, seen)
  | _ => none

namespace Pass

variable (current : Row)

/-- What `register` does next: it creates a route, withdraws one, or has nothing to call, where a
target that is pending and remembers no address needs no withdrawal. -/
lemma afterRegister_cases :
    afterRegister current = .routing current ∧ current.publicReach.enabled = true ∨
    afterRegister current = .withdrawing current ∧ current.publicReach.enabled = false ∨
    ∃ me, afterRegister current = .settling { current with me } "" ∧ me.state ≠ .revoked ∧
      (me = current.me ∨ current.publicReach.enabled = false ∧ current.me.state = .pending ∧
        current.me.ref = "" ∧ me.state = .notEnabled) := by
  unfold afterRegister
  split
  case isTrue enabled =>
    split
    case isTrue registered =>
      simp only [Target.registeredAt, Bool.and_eq_true, beq_iff_eq] at registered
      exact .inr (.inr ⟨current.me, rfl, by simp [registered.1], .inl rfl⟩)
    case isFalse => exact .inl ⟨rfl, enabled⟩
  case isFalse disabled =>
    have disabled := Bool.eq_false_iff.mpr disabled
    split
    case isTrue off => exact .inr (.inr ⟨current.me, rfl, by simp [off.1], .inl rfl⟩)
    case isFalse =>
      split
      case isTrue => exact .inr (.inl ⟨rfl, disabled⟩)
      case isFalse unassigned =>
        simp only [ne_eq, not_or, Decidable.not_not] at unassigned
        exact .inr (.inr ⟨_, rfl, by simp, .inr ⟨disabled, unassigned.1, unassigned.2, rfl⟩⟩)

/-- A withdrawal was refused because the binding is revoked. -/
def bindingRevoked : Outcome → Bool
  | .ok => false
  | .fails e _ => e.denial && e.reasonCode == "binding_revoked"

/-- A withdrawal ends in a failed target, or in one that is not enabled when it was processed
or refused for a revoked binding. -/
lemma afterWithdraw_cases (outcome : Outcome) :
    ∃ me failure, afterWithdraw current outcome = .settling { current with me } failure ∧
      (me.state = .failed ∨ me.state = .notEnabled ∧
        (outcome.effective = true ∨ bindingRevoked outcome = true)) := by
  cases outcome with
  | ok => exact ⟨_, _, rfl, .inr ⟨rfl, .inl rfl⟩⟩
  | fails e took =>
    unfold afterWithdraw
    dsimp only
    split
    · rename_i refused
      exact ⟨_, _, rfl, .inr ⟨rfl, .inr (by simp [bindingRevoked, refused])⟩⟩
    · exact ⟨_, _, rfl, .inl rfl⟩

/-- A registration ends in a failed target, or in one that is registered when it was processed. -/
lemma afterRegisterServer_cases (address : String) (outcome : Outcome) :
    ∃ me failure, afterRegisterServer current address outcome =
        .settling { current with me } failure ∧
      (me.state = .failed ∨ me.state = .registered ∧ outcome.effective = true) := by
  cases outcome with
  | ok => exact ⟨_, _, rfl, .inr ⟨rfl, rfl⟩⟩
  | fails e took => exact ⟨_, _, rfl, .inl rfl⟩

lemma toConnect_cases (failed : Bool) : toConnect current failed = .revokingConnect current failed ∨
    ∃ connect, toConnect current failed = .writing { current with connect } failed := by
  unfold toConnect
  split
  · exact .inr ⟨_, rfl⟩
  · split
    · exact .inr ⟨_, rfl⟩
    · exact .inl rfl

lemma watching_toConnect (failed : Bool) : (toConnect current failed).watching = none := by
  rcases toConnect_cases current failed with same | ⟨_, same⟩ <;> rw [same] <;> rfl

end Pass

namespace Row

variable (r : Row)

lemma register_desired (s : Subject) : (r.register s).desired = .active := by
  unfold register
  simp only
  split <;> rfl

/-- The row is bound to what the Guard has. -/
lemma register_binding (s : Subject) : (r.register s).binding = s.binding := by
  unfold register
  simp only
  split
  · rfl
  · rename_i same
    push Not at same
    exact Prod.ext same.2.1 same.2.2

/-- The generation rises with a new binding, and with the first. -/
lemma register_generation (s : Subject) : (r.register s).generation =
      if r.generation = 0 ∨ s.binding ≠ r.binding then r.generation + 1 else r.generation := by
  have differ : (r.keyThumbprint ≠ s.thumbprint ∨ r.credentialEpoch ≠ s.credentialEpoch) ↔
      s.binding ≠ r.binding := by
    rw [Ne, Ne, Ne, ← not_and_or, not_iff_not, Subject.binding, Row.binding, Prod.mk.injEq]
    exact ⟨fun same => ⟨same.1.symm, same.2.symm⟩, fun same => ⟨same.1.symm, same.2.symm⟩⟩
  unfold register
  simp only [differ]
  split <;> rfl

lemma markRevoked_eq :
    ∃ revokeReason, r.markRevoked = { r with desired := .revoked, revokeReason } := by
  unfold markRevoked
  split
  · rename_i already
    exact ⟨r.revokeReason, by rw [← already.1]⟩
  · exact ⟨_, rfl⟩

end Row

namespace Reach

/-- What a step may do to the desired state and the binding. -/
inductive Rebinds (q : Reach) (move : Move) (r : Row) : Prop where
  | keeps (desired : r.desired = q.row.desired) (binding : r.binding = q.row.binding)
      (generation : r.generation = q.row.generation)
  | revokes (desired : r.desired = .revoked) (binding : r.binding = q.row.binding)
      (generation : r.generation = q.row.generation)
  | registers (i : ℕ) (now : ℤ) (snapshot : Row) (subject : Subject) (seen : ℕ)
      (asks : move = .decide i now)
      (here : q.passes[i]? = some (.resolved snapshot (some subject) seen))
      (decides : snapshot.decideAction subject = .register) (row : r = q.row.register subject)

lemma rebinds_of_alike {q : Reach} {r : Row} (alike : q.row.Alike r) : q.Rebinds move r :=
  .keeps alike.desired alike.binding alike.generation

lemma rebinds_settleRegister (q : Reach) (current : Row) (failure : String) (now : ℤ)
    : q.Rebinds move (q.row.settleRegister current failure now) := by
  unfold Row.settleRegister Row.settle
  split
  · obtain ⟨attempts, lastError, next, same⟩ :=
      (q.row.registeredTargets current).reschedule_eq failure now
    dsimp only
    rw [same]
    exact .keeps rfl rfl rfl
  · exact .keeps rfl rfl rfl

lemma rebinds_writeRevoked (q : Reach) (current : Row) (failed : Bool) (now : ℤ)
    : q.Rebinds move (q.row.writeRevoked current failed now) := by
  unfold Row.writeRevoked
  split
  · cases failed <;> exact .keeps rfl rfl rfl
  · exact .keeps rfl rfl rfl

lemma rebinds_applyRevocation (q : Reach) (event : Revocation) (now : ℤ) :
    q.Rebinds move (q.row.applyRevocation event now) := by
  unfold Row.applyRevocation
  split
  · exact .keeps rfl rfl rfl
  · exact .revokes rfl rfl rfl

/-- A revocation at Connect touches nothing else. -/
lemma revokeNode_eq (q : Reach) (snapshot : Row) (reason : String) (outcome : Outcome) :
    ∃ connectLive events, q.revokeNode snapshot reason outcome = { q with connectLive, events } ∧
      (q.connectLive = false → connectLive = false) := by
  unfold revokeNode
  split
  · exact ⟨_, _, rfl, fun _ => rfl⟩
  · exact ⟨_, _, rfl, id⟩

/-- Every change is one to the binding, and nobody but a pass looks at the row for it. -/
lemma rebinds_of_happens {q after : Reach} (happens : q.Happens move after) :
    after.revocations = q.revocations ∧ q.Rebinds move after.row ∧
      ∀ p ∈ after.passes, ∀ snapshot seen, p.watching = some (snapshot, seen) →
        (∃ p₀ ∈ q.passes, p₀.watching = some (snapshot, seen)) ∨
        (seen = q.revocations ∧ snapshot.desired = q.row.desired ∧
          snapshot.binding = q.row.binding ∧ after.row.desired = q.row.desired ∧
          after.row.binding = q.row.binding) := by
  have same (p : Pass) (mem : p ∈ q.passes) (snapshot : Row) (seen : ℕ)
      (watches : p.watching = some (snapshot, seen)) :
      ∃ p₀ ∈ q.passes, p₀.watching = some (snapshot, seen) := ⟨p, mem, watches⟩
  -- A pass that is past its first write watches no longer.
  have past {i : ℕ} {new : Pass} (blind : new.watching = none) (p : Pass)
      (mem : p ∈ q.passes.set i new) (snapshot : Row) (seen : ℕ)
      (watches : p.watching = some (snapshot, seen)) :
      ∃ p₀ ∈ q.passes, p₀.watching = some (snapshot, seen) := by
    rcases mem_or_eq_of_mem_set mem with old | rfl
    · exact same p old snapshot seen watches
    · cases blind.symm.trans watches
  cases happens with
  | claims now lease =>
    refine ⟨rfl, .keeps rfl rfl rfl, fun p mem snapshot seen watches => ?_⟩
    rcases mem_append.mp mem with old | new
    · exact .inl (same p old snapshot seen watches)
    · obtain rfl := mem_singleton.mp new
      cases watches
      exact .inr ⟨rfl, rfl, rfl, rfl, rfl⟩
  | resolves i snapshot subject seen here =>
    refine ⟨rfl, .keeps rfl rfl rfl, fun p mem snapshot' seen' watches => .inl ?_⟩
    rcases mem_or_eq_of_mem_set mem with old | rfl
    · exact same p old snapshot' seen' watches
    · exact ⟨_, mem_of_getElem? here, watches⟩
  | defers i snapshot subject seen now row here alike =>
    exact ⟨rfl, rebinds_of_alike alike, fun p mem s n w => .inl (past rfl p mem s n w)⟩
  | marks i snapshot subject seen now here decides =>
    obtain ⟨reason, marked⟩ := q.row.markRevoked_eq
    rw [marked]
    refine ⟨rfl, .revokes rfl rfl rfl, fun p mem s n w => .inl (past ?_ p mem s n w)⟩
    unfold Pass.afterMark
    split
    · exact Pass.watching_toConnect _ _
    · rfl
  | registers i snapshot subject seen now here decides =>
    refine ⟨rfl, .registers i now snapshot subject seen rfl here decides rfl,
      fun p mem s n w => .inl (past ?_ p mem s n w)⟩
    rcases Pass.afterRegister_cases (q.row.register subject) with
      ⟨same, -⟩ | ⟨same, -⟩ | ⟨_, same, -⟩ <;> rw [same] <;> rfl
  | withdraws i current outcome here =>
    obtain ⟨_, _, same, -⟩ := Pass.afterWithdraw_cases current outcome
    rw [same]
    exact ⟨rfl, .keeps rfl rfl rfl, fun p mem s n w => .inl (past rfl p mem s n w)⟩
  | routes | unrouted =>
    exact ⟨rfl, .keeps rfl rfl rfl, fun p mem s n w => .inl (past rfl p mem s n w)⟩
  | registersServer i current address outcome here =>
    refine ⟨rfl, .keeps rfl rfl rfl, fun p mem s n w => .inl (past ?_ p mem s n w)⟩
    cases outcome <;> rfl
  | settles i current failure now here =>
    exact ⟨rfl, rebinds_settleRegister q current failure now,
      fun p mem s n w => .inl (past rfl p mem s n w)⟩
  | revokesServer i current outcome here =>
    refine ⟨rfl, .keeps rfl rfl rfl, fun p mem s n w => .inl (past ?_ p mem s n w)⟩
    cases outcome <;> exact Pass.watching_toConnect _ _
  | revokesNode i current failed outcome here =>
    obtain ⟨_, _, same, -⟩ := q.revokeNode_eq current current.revokeReason outcome
    rw [same]
    refine ⟨rfl, .keeps rfl rfl rfl, fun p mem s n w => .inl (past ?_ p mem s n w)⟩
    cases outcome <;> rfl
  | writes i current failed now here =>
    exact ⟨rfl, rebinds_writeRevoked q current failed now,
      fun p mem s n w => .inl (past rfl p mem s n w)⟩
  | presents | puts | reads | consumes | advances | ownerRevokes =>
    exact ⟨rfl, .keeps rfl rfl rfl, fun p mem s n w => .inl (same p mem s n w)⟩
  | rejects i snapshot here =>
    exact ⟨rfl, rebinds_of_alike (Row.alike_rejectProof _ _),
      fun p mem s n w => .inl (same p mem s n w)⟩
  | records i snapshot error nodeID now here =>
    exact ⟨rfl, rebinds_of_alike (Row.alike_recordNode _ _ _ _ _),
      fun p mem s n w => .inl (same p mem s n w)⟩
  | undoes i snapshot outcome here =>
    obtain ⟨_, _, kept, -⟩ := q.revokeNode_eq snapshot "detached" outcome
    rw [kept]
    exact ⟨rfl, .keeps rfl rfl rfl, fun p mem s n w => .inl (same p mem s n w)⟩
  | applies i event events next now here =>
    exact ⟨rfl, rebinds_applyRevocation q event now,
      fun p mem s n w => .inl (same p mem s n w)⟩
  | alters _ row observed alike =>
    exact ⟨rfl, rebinds_of_alike alike, fun p mem s n w => .inl (same p mem s n w)⟩

/-- The steps that do not bring a row back on an outdated decision: no revocation was recorded
since the pass that registers it leased the row, and the first binding is a binding. -/
def Fresh (q : Reach) (move : Move) : Prop :=
  ∀ i now snapshot subject seen, move = .decide i now →
    q.passes[i]? = some (.resolved snapshot (some subject) seen) →
    snapshot.decideAction subject = .register →
    q.revocations = seen ∧ (q.row.generation = 0 → subject.binding ≠ ("", 0))

/-- What the passes that have read the row know of it. -/
structure Watched (q : Reach) : Prop where
  generation : 0 ≤ q.row.generation
  /-- Before the first registration the row has no binding. -/
  unbound : q.row.generation = 0 → q.row.binding = ("", 0)
  seen : ∀ p ∈ q.passes, ∀ snapshot seen, p.watching = some (snapshot, seen) →
    seen ≤ q.revocations
  /-- A row that is revoked, and was not revoked since it was read, is the one that was read. -/
  same : ∀ p ∈ q.passes, ∀ snapshot seen, p.watching = some (snapshot, seen) →
    seen = q.revocations → q.row.desired = .revoked →
    snapshot.desired = .revoked ∧ snapshot.binding = q.row.binding

lemma counted_row (q after : Reach) : (q.counted after).row = after.row := by
  unfold counted
  split <;> rfl

lemma counted_passes (q after : Reach) : (q.counted after).passes = after.passes := by
  unfold counted
  split <;> rfl

/-- A revocation is counted when the row was active. -/
lemma counted_revocations {q after : Reach} (same : after.revocations = q.revocations) :
    (q.counted after).revocations =
      if q.row.desired = .active ∧ after.row.desired = .revoked then q.revocations + 1
      else q.revocations := by
  unfold counted
  split
  · rfl
  · exact same

namespace Watched

lemma kept (watched : q.Watched) (stepped : q.act move = some q') : q'.Watched := by
  obtain ⟨after, happens, rfl⟩ := happens_of_act stepped
  obtain ⟨same, rebinds, passes⟩ := rebinds_of_happens happens
  have count := counted_revocations (q := q) same
  have more : q.revocations ≤ (q.counted after).revocations := by
    rw [count]
    split
    · exact Nat.le_succ _
    · exact le_rfl
  have bound : 0 ≤ after.row.generation ∧
      (after.row.generation = 0 → after.row.binding = ("", 0)) := by
    cases rebinds with
    | keeps _ binding generation | revokes _ binding generation =>
      rw [binding, generation]
      exact ⟨watched.generation, watched.unbound⟩
    | registers i now snapshot subject seen asks here decides row =>
      have := watched.generation
      rw [row, Row.register_generation]
      split
      · exact ⟨by omega, fun zero => by omega⟩
      · rename_i later
        exact ⟨this, fun zero => absurd (.inl zero) later⟩
  constructor
  case generation => rw [counted_row]; exact bound.1
  case unbound => rw [counted_row]; exact bound.2
  case seen =>
    intro p mem snapshot seen watches
    rw [counted_passes] at mem
    rcases passes p mem snapshot seen watches with ⟨p₀, old, watches₀⟩ | ⟨now, -⟩
    · exact (watched.seen p₀ old snapshot seen watches₀).trans more
    · exact now ▸ more
  case same =>
    intro p mem snapshot seen watches latest revoked
    rw [counted_passes] at mem
    rw [counted_row] at revoked ⊢
    rw [count] at latest
    rcases passes p mem snapshot seen watches with ⟨p₀, old, watches₀⟩ | ⟨now, facts⟩
    · have before := watched.seen p₀ old snapshot seen watches₀
      -- The row was revoked before the step, or the step was counted.
      have was : q.row.desired = .revoked := by
        cases was : q.row.desired with
        | revoked => rfl
        | active =>
          rw [if_pos ⟨was, revoked⟩] at latest
          omega
      rw [if_neg (by rw [was]; simp)] at latest
      obtain ⟨desired, binding⟩ := watched.same p₀ old snapshot seen watches₀ latest was
      cases rebinds with
      | keeps _ same' _ | revokes _ same' _ => exact ⟨desired, binding.trans same'.symm⟩
      | registers i _ _ subject _ _ _ _ row =>
        rw [row, Row.register_desired] at revoked
        cases revoked
    · obtain ⟨desired, binding, desired', binding'⟩ := facts
      exact ⟨by rw [desired, ← desired', revoked], binding.trans binding'.symm⟩

lemma of_reaches {q : Reach} (reached : machine.Reaches Fresh q) : q.Watched := by
  refine reached.invariant Watched ?_ fun _ _ _ watched _ stepped => watched.kept stepped
  rintro _ ⟨workerID, serverID, owner, connectTenantID, observed, now, rfl⟩
  exact ⟨le_rfl, fun _ => rfl, by simp [enrolled], by simp [enrolled]⟩

end Watched

/-- A pass that registers a revoked row brings a binding the row it read does not have. -/
lemma rebound_of_decideAction {snapshot : Row} {subject : Subject}
    (decides : snapshot.decideAction subject = .register) (revoked : snapshot.desired = .revoked) :
    subject.binding ≠ snapshot.binding := by
  unfold Row.decideAction at decides
  rw [if_pos revoked] at decides
  split at decides
  · rename_i differs
    rintro same
    obtain ⟨thumbprint, epoch⟩ := Prod.mk.inj same
    rcases differs.2 with other | other
    · exact other thumbprint
    · exact other epoch
  · cases decides

/-- **A revoked row returns only with a new binding**, as long as no pass acts on an outdated
decision: a step makes a revoked row active only with another key or pairing than the one it
was revoked with, and leaves the binding of a row alone that stays revoked; the generation
never falls, and rises exactly when the binding changes. -/
theorem revoked_until_rebound {q q' : Reach} {move : Move} (reached : machine.Reaches Fresh q)
    (fresh : q.Fresh move) (stepped : q.act move = some q') :
    (q.row.desired = .revoked → q'.row.desired = .active → q'.row.binding ≠ q.row.binding) ∧
    (q.row.desired = .revoked → q'.row.desired = .revoked → q'.row.binding = q.row.binding) ∧
    q.row.generation ≤ q'.row.generation ∧
    (q.row.generation < q'.row.generation ↔ q'.row.binding ≠ q.row.binding) := by
  have watched := Watched.of_reaches reached
  obtain ⟨after, happens, rfl⟩ := happens_of_act stepped
  obtain ⟨-, rebinds, -⟩ := rebinds_of_happens happens
  rw [counted_row]
  cases rebinds with
  | keeps desired binding generation =>
    refine ⟨fun revoked active => ?_, fun _ _ => binding, generation.ge, ?_⟩
    · rw [desired, revoked] at active
      cases active
    · rw [generation, binding]
      simp
  | revokes desired binding generation =>
    refine ⟨fun _ active => ?_, fun _ _ => binding, generation.ge, ?_⟩
    · cases desired.symm.trans active
    · rw [generation, binding]
      simp
  | registers i now snapshot subject seen asks here decides row =>
    obtain ⟨latest, first⟩ := fresh i now snapshot subject seen asks here decides
    have watching : (Pass.resolved snapshot (some subject) seen).watching =
      some (snapshot, seen) := rfl
    have changes : q.row.desired = .revoked → subject.binding ≠ q.row.binding := by
      intro revoked
      obtain ⟨desired, binding⟩ := watched.same _ (mem_of_getElem? here) snapshot seen
        watching latest.symm revoked
      exact binding ▸ rebound_of_decideAction decides desired
    rw [row, Row.register_desired, Row.register_binding, Row.register_generation]
    refine ⟨fun revoked _ => changes revoked, nofun, ?_, ?_⟩
    · split
      · exact Int.le_add_one le_rfl
      · exact le_rfl
    · by_cases differ : subject.binding ≠ q.row.binding
      · rw [if_pos (.inr differ)]
        exact ⟨fun _ => differ, fun _ => Int.lt_succ _⟩
      · -- The first binding is a change too.
        have later : q.row.generation ≠ 0 := by
          intro zero
          exact first zero ((not_not.mp differ).trans (watched.unbound zero))
        rw [if_neg (not_or.mpr ⟨later, differ⟩)]
        exact ⟨fun less => absurd less (lt_irrefl _), fun changed => absurd changed differ⟩

/-- A Guard's row, due at once. -/
def guard : Reach := enrolled "w1" "s1" "owner" "org_1" true 0

lemma enacted : machine.Enacts act guard := ⟨⟨_, _, _, _, _, _, rfl⟩, fun _ _ _ => id⟩

/-- A Guard whose key is bound. -/
def boundTo (thumbprint : String) : Subject := ⟨true, true, "bound", thumbprint, 1⟩

/-- The row is bound to a key; it is not published. -/
def bind (pass : ℕ) (thumbprint : String) (now : ℤ) : List Move :=
  [.claim now 1, .resolve pass (some (boundTo thumbprint)), .decide pass now, .settle pass now]

/-- An owner revokes the server at Connect, and the consumer follows. -/
def ownerRevocation (consumer : ℕ) (now : ℤ) : List Move :=
  [.ownerRevokes ⟨"org_1", "", 1, "", "owner_request", "owner"⟩, .read 1, .find consumer,
    .get consumer, .revokeAccess consumer true, .applyRevocation consumer now, .advance consumer]

/-- A check that no pass acts on an outdated decision. -/
def freshNow (q : Reach) : Move → Bool
  | .decide i _ =>
    match q.passes[i]? with
    | some (.resolved snapshot (some subject) seen) =>
      snapshot.decideAction subject != .register ||
        decide (q.revocations = seen) &&
          (q.row.generation != 0 || subject.binding != ("", 0))
    | _ => true
  | _ => true

lemma fresh_of_now (q : Reach) (move : Move) (now : q.freshNow move = true) : q.Fresh move := by
  rintro i time snapshot subject seen rfl here decides
  simp only [freshNow, here, decides, bne_self_eq_false, Bool.false_or, Bool.and_eq_true,
    decide_eq_true_eq, Bool.or_eq_true, bne_iff_ne] at now
  exact ⟨now.1, fun zero => now.2.resolve_left fun other => other zero⟩

/-- A row that was revoked returns with a new key, at the next generation. -/
theorem revoked_until_rebound_key :
    ∃ q q', machine.Reaches Fresh q ∧ q.act (.decide 1 2) = some q' ∧
      q.row.desired = .revoked ∧ q'.row.desired = .active ∧ q'.row.binding ≠ q.row.binding := by
  obtain ⟨q, reached, revoked, fresh, q', stepped, active⟩ := enacted.reaches freshNow fresh_of_now
    (bind 0 "k1" 0 ++ ownerRevocation 0 1 ++ [.claim 2 1, .resolve 1 (some (boundTo "k2"))])
    (fun q => q.row.desired = .revoked ∧ q.freshNow (.decide 1 2) = true ∧
      ∃ q' ∈ q.act (.decide 1 2), q'.row.desired = .active) (by decide +kernel)
  exact ⟨q, q', reached, stepped, revoked, active,
    (revoked_until_rebound reached (fresh_of_now q _ fresh) stepped).1 revoked active⟩

/-- A pass that read the row before an owner's revocation makes it active again, with the key
it was revoked with. -/
theorem outdated_pass_reactivates :
    ∃ q q', machine.Reaches (fun _ _ => True) q ∧ q.act (.decide 1 2) = some q' ∧
      q.row.desired = .revoked ∧ q'.row.desired = .active ∧ q'.row.binding = q.row.binding := by
  obtain ⟨q, reached, revoked, q', stepped, active⟩ := enacted.reaches_any
    (bind 0 "k1" 0 ++ [.claim 1000000000000 1, .resolve 1 (some (boundTo "k1"))] ++
      ownerRevocation 0 1)
    (fun q => q.row.desired = .revoked ∧ ∃ q' ∈ q.act (.decide 1 2),
      q'.row.desired = .active ∧ q'.row.binding = q.row.binding) (by decide +kernel)
  exact ⟨q, q', reached, stepped, revoked, active⟩

end Reach

end TechStack.GuardReach
