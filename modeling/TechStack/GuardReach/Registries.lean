import TechStack.GuardReach.Binding
import TechStack.Lib.Slots

/-!
# Revocations that are complete

A row that says it is revoked, with both its targets revoked, is not looked at again, so
nothing may be left at the registries then.  This holds as long as registrations and
revocations of the row keep apart (`Apart`): no revocation is recorded while a registration is
under way, no pass begins to register while another one revokes, and Connect takes up no
registration between an owner's revocation and the write that follows it.

The invariant `Sound` says what is live at a registry: what the row does not call revoked, or
what somebody is about to write down.
-/

namespace TechStack.GuardReach

open Bool List Lib Row Pass

/-- The row a pass registers, from its first write to its last. -/
def Pass.registers : Pass → Option Row
  | .withdrawing current | .routing current | .registering current _ | .settling current _ =>
    some current
  | _ => none

/-- The row a pass revokes, from its first write to its last. -/
def Pass.revokes : Pass → Option Row
  | .revokingMe current | .revokingConnect current _ | .writing current _ => some current
  | _ => none

/-- The row an exchange registers, from its read to its write. -/
def Exchange.proves : Exchange → Option Row
  | .proved snapshot | .put snapshot _ _ => some snapshot
  | _ => none

variable {p : Pass} {current : Row} {i : ℕ} {failure : String}

namespace Reach

/-- A registration is under way. -/
def registersNow (q : Reach) : Bool :=
  q.passes.any (·.registers.isSome) || q.exchanges.any (·.proves.isSome)

/-- A pass revokes the row. -/
def revokesNow (q : Reach) : Bool := q.passes.any (·.revokes.isSome)

/-- The revocations that are reported and not yet written down. -/
def outstanding (q : Reach) : List Revocation :=
  q.events.drop q.cursor ++ q.consumers.flatMap (·.held)

/-- The steps that keep registrations and revocations apart. -/
structure Apart (q : Reach) (move : Move) : Prop where
  /-- A pass begins to revoke only while nobody registers. -/
  revokes : ∀ i now snapshot subject seen, move = .decide i now →
    q.passes[i]? = some (.resolved snapshot (some subject) seen) →
    snapshot.decideAction subject = .revoke → q.registersNow = false
  /-- So is an owner's revocation written down. -/
  applies : ∀ i now, move = .applyRevocation i now → q.registersNow = false
  /-- A pass begins to register only while no pass revokes. -/
  registers : ∀ i now snapshot subject seen, move = .decide i now →
    q.passes[i]? = some (.resolved snapshot (some subject) seen) →
    snapshot.decideAction subject = .register → q.revokesNow = false
  /-- Connect takes up a registration only when no owner's revocation is outstanding. -/
  puts : ∀ i outcome nodeID, move = .putNode i outcome nodeID →
    ∀ event ∈ q.outstanding, event.echo = true

/-! ### The invariant -/

/-- What a pass that revokes knows. -/
structure Revoking (row : Row) (meLive connectLive : Bool) (current : Row) : Prop where
  desired : row.desired = .revoked
  me : current.me.state = .revoked → meLive = false
  connect : current.connect.state = .revoked → connectLive = false
  tenant : current.connectTenantID = "" → connectLive = false

/-- What a pass that registers knows. -/
structure Registering (row current : Row) : Prop where
  desired : row.desired = .active
  active : current.desired = .active
  generation : current.generation ≤ row.generation
  me : current.generation ≠ row.generation → row.me.state ≠ .revoked

/-- What an exchange that registers knows. -/
structure Proving (row snapshot : Row) : Prop where
  desired : row.desired = .active
  generation : snapshot.generation ≤ row.generation
  connect : snapshot.generation ≠ row.generation → row.connect.state ≠ .revoked
  tenant : row.connectTenantID ≠ ""

/-- An exchange begins with a row that wants a proof. -/
lemma proving_of_wanted {row : Row} {now : ℤ} (wanted : row.proofWanted now = true) :
    Proving row row := by
  simp only [proofWanted, and_eq_true, beq_iff_eq, bne_iff_ne] at wanted
  exact ⟨wanted.1.1.1.1.1, le_rfl, fun other => absurd rfl other, wanted.1.1.1.2⟩

/-- What an exchange writes down is not revoked. -/
lemma Proving.recorded {row snapshot : Row} (facts : Proving row snapshot)
    (error : Option CallError) (nodeID : String) (now : ℤ) :
    (row.recordNode snapshot error nodeID now).connect.state ≠ .revoked := by
  unfold recordNode
  split
  · rename_i other
    exact facts.connect fun same => other same.symm
  · cases error with
    | some e => simp
    | none =>
      dsimp only
      rw [if_neg (by rw [facts.desired]; decide)]
      simp

/-- What is live is not revoked, or somebody is about to write it down. -/
structure Sound (q : Reach) : Prop where
  revoking : ∀ p ∈ q.passes, ∀ current, p.revokes = some current →
    Revoking q.row q.meLive q.connectLive current
  registering : ∀ p ∈ q.passes, ∀ current, p.registers = some current → Registering q.row current
  settling : ∀ p ∈ q.passes, ∀ current failure, p = .settling current failure →
    current.me.state ≠ .revoked
  proving : ∀ e ∈ q.exchanges, ∀ snapshot, e.proves = some snapshot → Proving q.row snapshot
  me : q.meLive = true → q.row.me.state = .revoked → ∃ p ∈ q.passes, p.registers.isSome = true
  connect : q.connectLive = true → q.row.connect.state = .revoked →
    ∃ e ∈ q.exchanges, e.proves.isSome = true
  tenant : q.connectLive = true → q.row.connectTenantID ≠ ""
  outstanding : ∀ event ∈ q.outstanding, event.echo = false → q.connectLive = false
  concerned : ∀ c ∈ q.consumers, ∀ event, c.concerned = some event → event.echo = false

namespace Sound

variable {q : Reach}

/-- While the row is revoked nobody registers. -/
lemma unregistered (sound : q.Sound) (revoked : q.row.desired = .revoked) :
    q.registersNow = false := by
  have idle (p : Pass) (mem : p ∈ q.passes) : p.registers.isSome = false := by
    rcases registers : p.registers with _ | current
    · rfl
    · have active := (sound.registering p mem current registers).desired
      cases revoked.symm.trans active
  have idle' (e : Exchange) (mem : e ∈ q.exchanges) : e.proves.isSome = false := by
    rcases proves : e.proves with _ | snapshot
    · rfl
    · have active := (sound.proving e mem snapshot proves).desired
      cases revoked.symm.trans active
  simp only [registersNow, or_eq_false_iff, any_eq_false]
  exact ⟨fun p mem => by simp [idle p mem], fun e mem => by simp [idle' e mem]⟩

lemma no_pass (quiet : q.registersNow = false) (p : Pass) (mem : p ∈ q.passes) :
    p.registers = none := by
  simp only [registersNow, or_eq_false_iff, any_eq_false] at quiet
  simpa using quiet.1 p mem

lemma no_exchange (quiet : q.registersNow = false) (e : Exchange) (mem : e ∈ q.exchanges) :
    e.proves = none := by
  simp only [registersNow, or_eq_false_iff, any_eq_false] at quiet
  simpa using quiet.2 e mem

section

variable (sound : q.Sound)
include sound

/-- While nobody registers, what the row calls revoked is not live. -/
lemma me_down (quiet : q.registersNow = false)
    (revoked : q.row.me.state = .revoked) : q.meLive = false := by
  apply eq_false_iff.mpr
  intro live
  obtain ⟨p, mem, registers⟩ := sound.me live revoked
  rw [no_pass quiet p mem] at registers
  cases registers

lemma connect_down (quiet : q.registersNow = false)
    (revoked : q.row.connect.state = .revoked) : q.connectLive = false := by
  apply eq_false_iff.mpr
  intro live
  obtain ⟨e, mem, proves⟩ := sound.connect live revoked
  rw [no_exchange quiet e mem] at proves
  cases proves

/-- The registration of an exchange keeps the passes from revoking. -/
lemma unrevoking (active : q.row.desired = .active) (mem : p ∈ q.passes)
    : p.revokes ≠ some current := by
  intro revokes
  have revoked := (sound.revoking p mem current revokes).desired
  cases active.symm.trans revoked

/-! ### Changes of the row -/

/-- A write that leaves the binding alone. -/
lemma alike {row : Row} (observed : Bool) (alike : q.row.Alike row) :
    Sound { q with row, observed } := { sound with
  revoking p mem current revokes :=
    let facts := sound.revoking p mem current revokes
    ⟨alike.desired.trans facts.desired, facts.me, facts.connect, facts.tenant⟩
  registering p mem current registers := by
    have facts := sound.registering p mem current registers
    refine ⟨alike.desired.trans facts.desired, facts.active,
      facts.generation.trans alike.generation.ge, fun other => ?_⟩
    have before := facts.me (alike.generation ▸ other)
    rcases alike.me with same | free
    · exact same ▸ before
    · exact free
  proving e mem snapshot proves := by
    have facts := sound.proving e mem snapshot proves
    refine ⟨alike.desired.trans facts.desired, facts.generation.trans alike.generation.ge,
      fun other => ?_, alike.tenant facts.tenant⟩
    have before := facts.connect (alike.generation ▸ other)
    rcases alike.connect with same | free
    · exact same ▸ before
    · exact free
  me live revoked := by
    rcases alike.me with same | free
    · exact sound.me live (same ▸ revoked)
    · exact absurd revoked free
  connect live revoked := by
    rcases alike.connect with same | free
    · exact sound.connect live (same ▸ revoked)
    · exact absurd revoked free
  tenant live := alike.tenant (sound.tenant live) }

/-- The row is marked revoked while nobody registers. -/
lemma marked (quiet : q.registersNow = false) {row : Row}
    (desired : row.desired = .revoked) (me : row.me = q.row.me) (connect : row.connect.state =
      .revoked → q.row.connect.state = .revoked ∨ q.connectLive = false)
    (tenant : row.connectTenantID = q.row.connectTenantID) : Sound { q with row } := { sound with
  revoking p mem current revokes :=
    let facts := sound.revoking p mem current revokes
    ⟨desired, facts.me, facts.connect, facts.tenant⟩
  registering p mem current registers := by
    rw [no_pass quiet p mem] at registers
    cases registers
  proving e mem snapshot proves := by
    rw [no_exchange quiet e mem] at proves
    cases proves
  me live revoked := sound.me live (by rw [← me]; exact revoked)
  connect live revoked := by
    rcases connect revoked with before | down
    · exact sound.connect live before
    · rw [show q.connectLive = true from live] at down
      cases down
  tenant live := by
    rw [tenant]
    exact sound.tenant live }

/-- The row is bound to what the Guard has while no pass revokes. -/
lemma bound (quiet : q.revokesNow = false) (subject : Subject) :
    Sound { q with row := q.row.register subject } := by
  have tenant : (q.row.register subject).connectTenantID = q.row.connectTenantID := by
    unfold register
    dsimp only
    split <;> rfl
  -- A new generation starts with targets that are pending.
  have targets : ((q.row.register subject).generation = q.row.generation ∧
      (q.row.register subject).me = q.row.me ∧
      (q.row.register subject).connect = q.row.connect) ∨
      (q.row.generation < (q.row.register subject).generation ∧
      (q.row.register subject).me.state = .pending ∧
      (q.row.register subject).connect.state = .pending) := by
    unfold register
    dsimp only
    split
    · exact .inr ⟨Int.lt_succ _, rfl, rfl⟩
    · exact .inl ⟨rfl, rfl, rfl⟩
  constructor
  case revoking =>
    intro p mem current revokes
    simp only [revokesNow, any_eq_false] at quiet
    exact absurd (by rw [revokes]; rfl) (quiet p mem)
  case registering =>
    intro p mem current registers
    have facts := sound.registering p mem current registers
    refine ⟨register_desired _ _, facts.active, ?_, fun other => ?_⟩
    · rcases targets with ⟨same, -⟩ | ⟨more, -⟩
      · exact facts.generation.trans same.ge
      · exact facts.generation.trans more.le
    · rcases targets with ⟨same, me, -⟩ | ⟨-, me, -⟩
      · show (q.row.register subject).me.state ≠ .revoked
        rw [me]
        exact facts.me (same ▸ other)
      · show (q.row.register subject).me.state ≠ .revoked
        rw [me]
        decide
  case settling => exact sound.settling
  case proving =>
    intro e mem snapshot proves
    have facts := sound.proving e mem snapshot proves
    refine ⟨register_desired _ _, ?_, fun other => ?_, ?_⟩
    · rcases targets with ⟨same, -⟩ | ⟨more, -⟩
      · exact facts.generation.trans same.ge
      · exact facts.generation.trans more.le
    · rcases targets with ⟨same, -, connect⟩ | ⟨-, -, connect⟩
      · show (q.row.register subject).connect.state ≠ .revoked
        rw [connect]
        exact facts.connect (same ▸ other)
      · show (q.row.register subject).connect.state ≠ .revoked
        rw [connect]
        decide
    · show (q.row.register subject).connectTenantID ≠ ""
      rw [tenant]
      exact facts.tenant
  case me =>
    intro live revoked
    rcases targets with ⟨-, me, -⟩ | ⟨-, me, -⟩
    · exact sound.me live (me ▸ revoked)
    · rw [show (q.row.register subject).me.state = .revoked from revoked] at me
      cases me
  case connect =>
    intro live revoked
    rcases targets with ⟨-, -, connect⟩ | ⟨-, -, connect⟩
    · exact sound.connect live (connect ▸ revoked)
    · rw [show (q.row.register subject).connect.state = .revoked from revoked] at connect
      cases connect
  case tenant =>
    intro live
    show (q.row.register subject).connectTenantID ≠ ""
    rw [tenant]
    exact sound.tenant live
  case outstanding => exact sound.outstanding
  case concerned => exact sound.concerned

/-- A pass settles what it has registered. -/
lemma settled (here : q.passes[i]? = some (.settling current failure)) (now : ℤ) :
    Sound { q with row := q.row.settleRegister current failure now } ∧
      (q.row.settleRegister current failure now).me.state ≠ .revoked := by
  have mem := mem_of_getElem? here
  have facts := sound.registering _ mem current rfl
  have free := sound.settling _ mem current failure rfl
  unfold settleRegister settle
  by_cases guard : q.row.generation = current.generation ∧ q.row.desired = current.desired
  · rw [if_pos guard]
    obtain ⟨attempts, lastError, next, same⟩ :=
      (q.row.registeredTargets current).reschedule_eq failure now
    dsimp only
    rw [same]
    refine ⟨?_, free⟩
    -- Where Connect matters, the tenant has a namespace and its target is left alone.
    have connect : q.row.connectTenantID ≠ "" →
        (q.row.registeredTargets current).connect = q.row.connect := by
      intro named
      simp [registeredTargets, named]
    constructor
    case revoking =>
      intro p there held revokes
      exact absurd revokes (sound.unrevoking facts.desired there)
    case registering =>
      intro p there held registers
      have other := sound.registering p there held registers
      exact ⟨other.desired, other.active, other.generation, fun _ => free⟩
    case settling => exact sound.settling
    case proving =>
      intro e there snapshot proves
      have other := sound.proving e there snapshot proves
      refine ⟨other.desired, other.generation, fun differs => ?_, other.tenant⟩
      show (q.row.registeredTargets current).connect.state ≠ .revoked
      rw [connect other.tenant]
      exact other.connect differs
    case me => exact fun _ revoked => absurd revoked free
    case connect =>
      intro live revoked
      have revoked' : (q.row.registeredTargets current).connect.state = .revoked := revoked
      rw [connect (sound.tenant live)] at revoked'
      exact sound.connect live revoked'
    case tenant => exact sound.tenant
    case outstanding => exact sound.outstanding
    case concerned => exact sound.concerned
  · rw [if_neg guard]
    refine ⟨sound, facts.me fun same => guard ⟨same.symm, ?_⟩⟩
    rw [facts.desired, facts.active]

/-- A pass writes down what it has revoked. -/
lemma written {failed : Bool} (here : q.passes[i]? = some (.writing current failed)) (now : ℤ) :
    Sound { q with row := q.row.writeRevoked current failed now } := by
  have facts := sound.revoking _ (mem_of_getElem? here) current rfl
  have quiet := sound.unregistered facts.desired
  have row : ∃ attempts lastError nextAttemptAt, q.row.writeRevoked current failed now =
      { q.row with
        me := current.me, connect := current.connect, attempts, lastError, nextAttemptAt } := by
    unfold writeRevoked
    rw [if_pos facts.desired]
    cases failed <;> exact ⟨_, _, _, rfl⟩
  obtain ⟨attempts, lastError, next, row⟩ := row
  rw [row]
  constructor
  case revoking =>
    intro p there held revokes
    have other := sound.revoking p there held revokes
    exact ⟨other.desired, other.me, other.connect, other.tenant⟩
  case registering =>
    intro p there held registers
    rw [no_pass quiet p there] at registers
    cases registers
  case settling => exact sound.settling
  case proving =>
    intro e there snapshot proves
    rw [no_exchange quiet e there] at proves
    cases proves
  case me =>
    intro live revoked
    have down := facts.me revoked
    rw [show q.meLive = true from live] at down
    cases down
  case connect =>
    intro live revoked
    have down := facts.connect revoked
    rw [show q.connectLive = true from live] at down
    cases down
  case tenant => exact sound.tenant
  case outstanding => exact sound.outstanding
  case concerned => exact sound.concerned

/-! ### Changes of what is under way -/

/-- A pass moves on. -/
lemma setPass {p p' : Pass} (here : q.passes[i]? = some p)
    (revokes : ∀ current, p'.revokes = some current → Revoking q.row q.meLive q.connectLive current)
    (registers : ∀ current, p'.registers = some current → Registering q.row current)
    (settles : ∀ current failure, p' = .settling current failure → current.me.state ≠ .revoked)
    (leaves : p.registers.isSome = true → p'.registers.isSome = false →
      q.row.me.state ≠ .revoked) : (q.setPass i p').Sound := { sound with
  revoking := forall_mem_set sound.revoking revokes
  registering := forall_mem_set sound.registering registers
  settling := forall_mem_set sound.settling settles
  me live revoked := by
    refine exists_mem_set (sound.me live revoked) here fun registers' => ?_
    by_contra gone
    exact leaves registers' (eq_false_iff.mpr gone) revoked }

/-- A pass begins. -/
lemma addPass (p : Pass) (revokes : p.revokes = none)
    (registers : p.registers = none) : Sound { q with passes := q.passes ++ [p] } := { sound with
  revoking := forall_mem_snoc sound.revoking (by simp [revokes])
  registering := forall_mem_snoc sound.registering (by simp [registers])
  settling := by
    refine forall_mem_snoc sound.settling fun current failure same => ?_
    rw [same] at registers
    cases registers
  me live revoked := by
    obtain ⟨held, there, registers'⟩ := sound.me live revoked
    exact ⟨held, mem_append_left _ there, registers'⟩ }

/-- A pass that neither registers nor revokes moves on. -/
lemma setPass_idle {p p' : Pass} (here : q.passes[i]? = some p)
    (quiet : p.registers = none) (revokes : p'.revokes = none) (registers : p'.registers = none) :
    (q.setPass i p').Sound := by
  refine sound.setPass here (fun c some_ => ?_) (fun c some_ => ?_) (fun c f same => ?_)
    fun some_ => ?_
  · rw [revokes] at some_
    cases some_
  · rw [registers] at some_
    cases some_
  · rw [same] at registers
    cases registers
  · rw [quiet] at some_
    cases some_

/-- An exchange moves on. -/
lemma setExchange {e e' : Exchange} (here : q.exchanges[i]? = some e)
    (proves : ∀ snapshot, e'.proves = some snapshot → Proving q.row snapshot)
    (leaves : e.proves.isSome = true → e'.proves.isSome = false →
      q.row.connect.state ≠ .revoked) : (q.setExchange i e').Sound := { sound with
  proving := forall_mem_set sound.proving proves
  connect live revoked := by
    refine exists_mem_set (sound.connect live revoked) here fun proves' => ?_
    by_contra gone
    exact leaves proves' (eq_false_iff.mpr gone) revoked }

/-- An exchange begins. -/
lemma addExchange (e : Exchange)
    (proves : ∀ snapshot, e.proves = some snapshot → Proving q.row snapshot) :
    Sound { q with exchanges := q.exchanges ++ [e] } := { sound with
  proving := forall_mem_snoc sound.proving proves
  connect live revoked := by
    obtain ⟨held, there, proves'⟩ := sound.connect live revoked
    exact ⟨held, mem_append_left _ there, proves'⟩ }

end

/-- A consumer that holds no event it did not hold before makes none outstanding. -/
lemma outstanding_set {consumer consumer' : Consumer} (here : q.consumers[i]? = some consumer)
    (held : consumer'.held ⊆ consumer.held) :
    ∀ event ∈ q.events.drop q.cursor ++ (q.consumers.set i consumer').flatMap (·.held),
      event ∈ q.outstanding := by
  intro event mem
  rcases mem_append.mp mem with later | now
  · exact mem_append_left _ later
  · obtain ⟨c, there, holds⟩ := mem_flatMap.mp now
    refine mem_append_right _ (mem_flatMap.mpr ?_)
    rcases mem_or_eq_of_mem_set there with old | rfl
    · exact ⟨c, old, holds⟩
    · exact ⟨consumer, mem_of_getElem? here, held holds⟩

section

variable (sound : q.Sound)
include sound

/-- The cursor and the consumers change, and nothing becomes outstanding. -/
lemma consumed {consumers : List Consumer} {cursor : ℕ}
    (less : ∀ event ∈ q.events.drop cursor ++ consumers.flatMap (·.held), event ∈ q.outstanding)
    (concerned : ∀ c ∈ consumers, ∀ event, c.concerned = some event → event.echo = false) :
    Sound { q with consumers, cursor } := { sound with
  outstanding event mem := sound.outstanding event (less event mem)
  concerned := concerned }

/-! ### Changes at the registries -/

/-- Me ends the registration. -/
lemma meEnded (outcome : Outcome) : (q.setMe outcome false).Sound := { sound with
  revoking p mem current revokes :=
    let facts := sound.revoking p mem current revokes
    ⟨facts.desired, fun revoked => by
      show (if _ then _ else _) = false
      split
      · rfl
      · exact facts.me revoked, facts.connect, facts.tenant⟩
  me live revoked := by
    have live' : (if outcome.effective then false else q.meLive) = true := live
    split at live'
    · cases live'
    · exact sound.me live' revoked }

/-- Me takes up a registration of a pass. -/
lemma meMade (mem : p ∈ q.passes) (registers : p.registers = some current) (outcome : Outcome) :
    (q.setMe outcome true).Sound := { sound with
  revoking p' there held revokes :=
    absurd revokes (sound.unrevoking (sound.registering p mem current registers).desired there)
  me _ _ := ⟨p, mem, by rw [registers]; rfl⟩ }

/-- Connect ends the registration and reports it. -/
lemma connectEnded (events : List Revocation) :
    Sound { q with connectLive := false, events } := { sound with
  revoking p mem current revokes :=
    let facts := sound.revoking p mem current revokes
    ⟨facts.desired, facts.me, fun _ => rfl, fun _ => rfl⟩
  connect live := by cases live
  tenant live := by cases live
  outstanding _ _ _ := rfl }

lemma nodeRevoked (snapshot : Row) (reason : String) (outcome : Outcome) :
    (q.revokeNode snapshot reason outcome).Sound := by
  unfold revokeNode
  split
  · exact sound.connectEnded _
  · exact sound

/-- Connect takes up a registration of an exchange. -/
lemma connectMade {e : Exchange} {snapshot : Row} (mem : e ∈ q.exchanges)
    (proves : e.proves = some snapshot) (quiet : ∀ event ∈ q.outstanding, event.echo = true)
    (outcome : Outcome) : (q.putNode outcome).Sound := { sound with
  revoking p there held revokes :=
    absurd revokes (sound.unrevoking (sound.proving e mem snapshot proves).desired there)
  connect _ _ := ⟨e, mem, by rw [proves]; rfl⟩
  tenant _ := (sound.proving e mem snapshot proves).tenant
  outstanding event there owner := by
    rw [quiet event there] at owner
    cases owner }

end

/-! ### Every step -/

section

variable (sound : q.Sound)
include sound

/-- What a pass does after its first write to register. -/
lemma afterRegister (here : q.passes[i]? = some p) (idle : p.registers = none)
    (active : q.row.desired = .active) :
    (q.setPass i (.afterRegister q.row)).Sound := by
  have facts (me : Target) : Registering q.row { q.row with me } :=
    ⟨active, active, le_rfl, fun other => absurd rfl other⟩
  have leaves (p' : Pass) : p.registers.isSome = true → p'.registers.isSome = false →
      q.row.me.state ≠ .revoked := by simp [idle]
  rcases afterRegister_cases q.row with ⟨same, -⟩ | ⟨same, -⟩ | ⟨me, same, free, -⟩ <;> rw [same]
  case inr.inr =>
    refine sound.setPass here (fun c some_ => by cases some_) ?_ ?_ (leaves _)
    · rintro c ⟨⟩
      exact facts me
    · rintro c f ⟨⟩
      exact free
  all_goals
    refine sound.setPass here (fun c some_ => by cases some_) ?_ (fun c f same => by cases same)
      (leaves _)
    rintro c ⟨⟩
    exact facts q.row.me

/-- A pass that registers goes on to its last write. -/
lemma toSettling (current : Row) {current' : Row} (here : q.passes[i]? = some p)
    (registers : p.registers = some current) (desired : current'.desired = current.desired)
    (generation : current'.generation = current.generation) (free : current'.me.state ≠ .revoked)
    : (q.setPass i (.settling current' failure)).Sound := by
  have facts := sound.registering p (mem_of_getElem? here) current registers
  refine sound.setPass here (fun c revokes => by cases revokes) ?_ ?_ fun _ gone => by cases gone
  · rintro c ⟨⟩
    exact ⟨facts.desired, desired.trans facts.active, generation ▸ facts.generation,
      fun other => facts.me (generation ▸ other)⟩
  · rintro c f ⟨⟩
    exact free

/-- A pass that revokes goes on. -/
lemma goesOn {p p' : Pass} (here : q.passes[i]? = some p) (idle : p.registers = none)
    (revokes : p'.revokes = some current) (facts : Revoking q.row q.meLive q.connectLive current)
    : (q.setPass i p').Sound := by
  have registers : p'.registers = none := by
    cases p' <;> first | rfl | cases revokes
  refine sound.setPass here (fun c revokes' => ?_) (fun c some_ => ?_) (fun c f same => ?_)
    fun some_ => ?_
  · rw [revokes] at revokes'
    cases revokes'
    exact facts
  · rw [registers] at some_
    cases some_
  · rw [same] at registers
    cases registers
  · rw [idle] at some_
    cases some_

/-- `revoke` goes on to Connect: a tenant without a namespace has nothing there. -/
lemma toConnect (failed : Bool) (here : q.passes[i]? = some p) (idle : p.registers = none)
    (facts : Revoking q.row q.meLive q.connectLive current) :
    (q.setPass i (.toConnect current failed)).Sound := by
  unfold Pass.toConnect
  split
  · exact sound.goesOn here idle rfl facts
  · split
    · rename_i unmapped
      have down := facts.tenant unmapped
      exact sound.goesOn here idle rfl ⟨facts.desired, facts.me, fun _ => down, fun _ => down⟩
    · exact sound.goesOn here idle rfl facts

/-- The changes keep the invariant as long as registrations and revocations keep apart. -/
lemma happened {q' : Reach} {move : Move} (apart : q.Apart move) (happens : q.Happens move q')
    : q'.Sound := by
  cases happens with
  | claims now lease =>
    have row : q.row.Alike { q.row with nextAttemptAt := now + lease } :=
      ⟨rfl, rfl, rfl, .inl ⟨rfl, rfl⟩, .inl rfl, id⟩
    exact (sound.alike q.observed row).addPass _ rfl rfl
  | resolves i snapshot subject seen here => exact sound.setPass_idle here rfl rfl rfl
  | defers i snapshot subject seen now row here alike =>
    exact (sound.alike q.observed alike).setPass_idle here rfl rfl rfl
  | marks i snapshot subject seen now here decides =>
    have quiet := apart.revokes i now snapshot subject seen rfl here decides
    obtain ⟨revokeReason, row⟩ := q.row.markRevoked_eq
    rw [row]
    have marked : Sound { q with row := { q.row with desired := .revoked, revokeReason } } :=
      sound.marked quiet rfl rfl .inl rfl
    have facts : Revoking { q.row with desired := .revoked, revokeReason } q.meLive q.connectLive
        { q.row with desired := .revoked, revokeReason } :=
      ⟨rfl, marked.me_down quiet, marked.connect_down quiet, fun unmapped =>
        eq_false_iff.mpr fun live => marked.tenant live unmapped⟩
    unfold afterMark
    split
    · exact marked.toConnect false here rfl facts
    · exact marked.goesOn here rfl rfl facts
  | registers i snapshot subject seen now here decides =>
    have quiet := apart.registers i now snapshot subject seen rfl here decides
    exact (sound.bound quiet subject).afterRegister here rfl (register_desired _ _)
  | withdraws i current outcome here =>
    have ended := sound.meEnded outcome
    obtain ⟨me, failure, same, state⟩ := afterWithdraw_cases current outcome
    rw [same]
    refine ended.toSettling current here rfl rfl rfl ?_
    rcases state with state | ⟨state, -⟩ <;> simp [state]
  | routes i current address here =>
    have facts := sound.registering _ (mem_of_getElem? here) current rfl
    refine sound.setPass here (fun c revokes => by cases revokes) ?_
      (fun c f same => by cases same) fun _ gone => by cases gone
    rintro c ⟨⟩
    exact facts
  | unrouted i current e here =>
    exact sound.toSettling current here rfl rfl rfl (by simp)
  | registersServer i current address outcome here =>
    have made := sound.meMade (mem_of_getElem? here) rfl outcome
    obtain ⟨me, failure, same, state⟩ := afterRegisterServer_cases current address outcome
    rw [same]
    refine made.toSettling current here rfl rfl rfl ?_
    rcases state with state | ⟨state, -⟩ <;> simp [state]
  | settles i current failure now here =>
    obtain ⟨settled, free⟩ := sound.settled here now
    refine settled.setPass here (fun c revokes => by cases revokes)
      (fun c registers => by cases registers) (fun c f same => by cases same) fun _ _ => free
  | revokesServer i current outcome here =>
    have facts := sound.revoking _ (mem_of_getElem? here) current rfl
    have ended := sound.meEnded outcome
    cases outcome with
    | ok =>
      exact ended.toConnect false here rfl
        ⟨facts.desired, fun _ => rfl, facts.connect, facts.tenant⟩
    | fails e took =>
      exact ended.toConnect true here rfl
        ⟨facts.desired, nofun, facts.connect, facts.tenant⟩
  | revokesNode i current failed outcome here =>
    have facts := sound.revoking _ (mem_of_getElem? here) current rfl
    have ended := sound.nodeRevoked current current.revokeReason outcome
    cases outcome with
    | ok => exact ended.goesOn here rfl rfl ⟨facts.desired, facts.me, fun _ => rfl, fun _ => rfl⟩
    | fails e took =>
      obtain ⟨_, _, same, down⟩ := q.revokeNode_eq current current.revokeReason (.fails e took)
      rw [same] at ended ⊢
      exact ended.goesOn here rfl rfl
        ⟨facts.desired, facts.me, nofun, fun unmapped => down (facts.tenant unmapped)⟩
  | writes i current failed now here =>
    exact (sound.written here now).setPass_idle here rfl rfl rfl
  | presents valid now wanted =>
    refine sound.addExchange _ fun snapshot proves => ?_
    cases valid with
    | true =>
      cases proves
      exact proving_of_wanted wanted
    | false => cases proves
  | rejects i snapshot here =>
    refine (sound.alike q.observed (alike_rejectProof q.row snapshot)).setExchange here
      (fun s proves => by cases proves) fun some_ => by cases some_
  | puts i snapshot outcome nodeID error here =>
    have mem := mem_of_getElem? here
    have made := sound.connectMade mem rfl (apart.puts i outcome nodeID rfl) outcome
    refine made.setExchange here ?_ nofun
    rintro s ⟨⟩
    exact sound.proving _ mem snapshot rfl
  | records i snapshot error nodeID now here =>
    have facts := sound.proving _ (mem_of_getElem? here) snapshot rfl
    have recorded := sound.alike q.observed (alike_recordNode q.row snapshot error nodeID now)
    refine recorded.setExchange here (fun s proves => ?_) fun _ _ => ?_
    · split at proves <;> cases proves
    · exact facts.recorded error nodeID now
  | undoes i snapshot outcome here =>
    have ended := sound.nodeRevoked snapshot "detached" outcome
    obtain ⟨_, _, same, -⟩ := q.revokeNode_eq snapshot "detached" outcome
    rw [same] at ended ⊢
    exact ended.setExchange here (fun s proves => by cases proves) fun some_ => by cases some_
  | reads count next =>
    refine sound.consumed (fun event mem => ?_) ?_
    · simp only [flatMap_append, flatMap_singleton, ← append_assoc] at mem
      rcases mem_append.mp mem with old | new
      · exact old
      · exact mem_append_left _ (mem_of_mem_take new)
    · exact forall_mem_snoc sound.concerned nofun
  | consumes _ i consumer consumer' here held concerned =>
    refine sound.consumed (outstanding_set here held) (forall_mem_set sound.concerned ?_)
    intro event now
    rcases concerned event now with before | owner
    · exact sound.concerned consumer (mem_of_getElem? here) event before
    · exact owner
  | applies i event events next now here =>
    have quiet := apart.applies i now rfl
    have mem := mem_of_getElem? here
    have owner := sound.concerned _ mem event rfl
    have down : q.connectLive = false := sound.outstanding event
      (mem_append_right _ (mem_flatMap.mpr ⟨_, mem, .head _⟩)) owner
    have applied : Sound { q with row := q.row.applyRevocation event now } := by
      unfold applyRevocation
      split
      · exact sound
      · exact sound.marked quiet rfl rfl (fun _ => .inr down) rfl
    refine applied.consumed (outstanding_set here (subset_cons_self _ _))
      (forall_mem_set applied.concerned nofun)
  | advances i next here =>
    refine sound.consumed (fun event mem => ?_)
      (forall_mem_set sound.concerned nofun)
    rcases mem_append.mp mem with later | held
    · refine mem_append_left _ ?_
      rw [← Nat.add_sub_of_le (le_max_left q.cursor next), ← drop_drop] at later
      exact mem_of_mem_drop later
    · have nothing : Consumer.done.held ⊆ (Consumer.reading [] next).held := nil_subset _
      exact outstanding_set here nothing event (mem_append_right _ held)
  | ownerRevokes event => exact sound.connectEnded _
  | alters _ row observed alike => exact sound.alike observed alike

/-- Every step that keeps registrations and revocations apart keeps the invariant. -/
lemma kept {q' : Reach} {move : Move} (apart : q.Apart move) (stepped : q.act move = some q')
    : q'.Sound := by
  obtain ⟨after, happens, rfl⟩ := happens_of_act stepped
  have happened := sound.happened apart happens
  unfold counted
  split
  · exact ⟨happened.revoking, happened.registering, happened.settling, happened.proving,
      happened.me, happened.connect, happened.tenant, happened.outstanding, happened.concerned⟩
  · exact happened

end

lemma of_reaches (reached : machine.Reaches Apart q) : q.Sound := by
  refine reached.invariant Sound ?_ fun _ _ _ sound apart stepped => sound.kept apart stepped
  rintro _ ⟨workerID, serverID, owner, connectTenantID, observed, now, rfl⟩
  constructor <;> simp [enrolled, Reach.outstanding]

end Sound

/-- **A revocation is complete**, as long as registrations and revocations keep apart: when the
row is revoked and calls both its targets revoked, neither registry holds a registration. -/
theorem revocation_complete {q : Reach} (reached : machine.Reaches Apart q)
    (revoked : q.row.desired = .revoked) (me : q.row.me.state = .revoked)
    (connect : q.row.connect.state = .revoked) : q.meLive = false ∧ q.connectLive = false := by
  have sound := Sound.of_reaches reached
  have quiet := sound.unregistered revoked
  exact ⟨sound.me_down quiet me, sound.connect_down quiet connect⟩

/-- A check that a step keeps registrations and revocations apart. -/
def apartNow (q : Reach) : Move → Bool
  | .decide i _ =>
    match q.passes[i]? with
    | some (.resolved snapshot (some subject) _) =>
      match snapshot.decideAction subject with
      | .revoke => !q.registersNow
      | .register => !q.revokesNow
      | .wait => true
    | _ => true
  | .applyRevocation _ _ => !q.registersNow
  | .putNode _ _ _ => q.outstanding.all (·.echo)
  | _ => true

lemma apart_of_now (q : Reach) (move : Move) (now : q.apartNow move = true) : q.Apart move where
  revokes := by
    rintro i time snapshot subject seen rfl here decides
    simpa [apartNow, here, decides] using now
  applies := by
    rintro i time rfl
    simpa [apartNow] using now
  registers := by
    rintro i time snapshot subject seen rfl here decides
    simpa [apartNow, here, decides] using now
  puts := by
    rintro i outcome nodeID rfl
    simpa [apartNow] using now

/-- The server is published and registered at both registries. -/
def published : List Move :=
  [.setPublic "owner" ⟨true, "web", "http", 80⟩ 0, .claim 0 1,
    .resolve 0 (some (boundTo "k1")), .decide 0 0, .ensureRoute 0 (.ok "web.example"),
    .registerServer 0 .ok, .settle 0 0, .present true 1, .putNode 0 .ok "n1", .record 0 1]

/-- A Guard that was detached is revoked everywhere, although the first call to Me is
answered with an error after it took effect. -/
theorem revocation_complete_detached :
    ∃ q, machine.Reaches Apart q ∧ q.row.desired = .revoked ∧ q.row.me.state = .revoked ∧
      q.row.connect.state = .revoked ∧ q.meLive = false ∧ q.connectLive = false := by
  let late : ℤ := 1000000000000
  obtain ⟨q, reached, revoked, me, connect⟩ := enacted.reaches apartNow apart_of_now
    (published ++ [.claim late 1, .resolve 1 (some ⟨false, false, "", "", 0⟩), .decide 1 late,
      .revokeServer 1 (.fails ⟨false, "", true⟩ true), .revokeNode 1 .ok, .write 1 late,
      .claim (2 * late) 1, .resolve 2 (some ⟨false, false, "", "", 0⟩), .decide 2 (2 * late),
      .revokeServer 2 .ok, .write 2 (2 * late)])
    (fun q => q.row.desired = .revoked ∧ q.row.me.state = .revoked ∧
      q.row.connect.state = .revoked) (by decide +kernel)
  exact ⟨q, reached, revoked, me, connect, revocation_complete reached revoked me connect⟩

/-- A pass registers the server at Me after another one has revoked it there: nobody
is at work any more, the row calls both targets revoked, and the server is still served. -/
theorem late_registration_stays :
    ∃ q, machine.Reaches (fun _ _ => True) q ∧ q.passes.all (· == .done) = true ∧
      q.exchanges = [] ∧ q.row.desired = .revoked ∧ q.row.me.state = .revoked ∧
      q.row.connect.state = .revoked ∧ q.meLive = true :=
  enacted.reaches_any
    ([.setPublic "owner" ⟨true, "web", "http", 80⟩ 0, .claim 0 1,
      .resolve 0 (some (boundTo "k1")), .decide 0 0, .ensureRoute 0 (.ok "web.example")] ++
      ownerRevocation 0 1 ++
      [.claim 1 1, .resolve 1 (some ⟨true, true, "revoked", "k1", 1⟩), .decide 1 1,
        .revokeServer 1 .ok, .write 1 1, .registerServer 0 .ok, .settle 0 1])
    _ (by decide +kernel)

end Reach

end TechStack.GuardReach
