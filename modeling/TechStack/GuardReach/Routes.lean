import TechStack.GuardReach.Registries

/-!
# Public routes

`Me`, the registry of addresses, serves the routes of the last registration it has processed for
the server, and each leads where it was last created for.  An owner publishes a server, changes
what it publishes, or takes it back; each time the target is set to pending, and a reconcile pass
creates the route and registers the server with it, or registers it without one.  A registration
sends the route's name only: the scheme and the port travel with the call that creates it.

A pass works with the row as it was at its first write, and its last write looks only at the
generation and the desired state.  An owner's change in between is overwritten, so that a
published address may lead to what the owner gave up (`outdated_route_stays`).  Whether a
withdrawal is needed is read off the target: one that is pending and remembers no address is
taken for one that never had a route.  A failed registration forgets the address, so that a
server may stay public although its owner has taken it back (`forgotten_route_stays`).

`Publication` follows a run of `Reach` and adds what the registry serves.  Both properties say
that the target is truthful about the routes, each in its own sense.  `Truth` lists what such a
sense has to respect, and `Honest` is the invariant for any of them: the row's target is truthful,
and so is the target that a pass which acts on the current setting is about to write.
-/

namespace TechStack.GuardReach

open List Lib Pass

/-- The binding and the owner's setting are the same in two rows. -/
abbrev Row.SameSetting (r' r : Row) : Prop :=
  r'.generation = r.generation ∧ r'.publicReach = r.publicReach

/-- A row with its passes, and what is served. -/
structure Publication where
  reach : Reach
  /-- The changes of the owner's setting and of the binding so far. -/
  version : ℕ
  /-- The version at the first write of a pass. -/
  stamps : ℕ → ℕ
  /-- The services of the last registration that was processed. -/
  routes : List String
  /-- What the route of a service was last created for. -/
  leads : String → Option PublicReach

namespace Publication

/-- A row that was just enrolled. -/
def enrolled (workerID serverID owner connectTenantID : String) (now : ℤ) : Publication :=
  ⟨.enrolled workerID serverID owner connectTenantID true now, 0, fun _ => 0, [], fun _ => none⟩

variable (p : Publication)

abbrev row : Row := p.reach.row

/-- The services that are served after a call. -/
def served : Move → List String
  | .withdraw _ outcome | .revokeServer _ outcome => if outcome.effective then [] else p.routes
  | .registerServer i outcome =>
    match p.reach.passes[i]? with
    | some (.registering current _) =>
      if outcome.effective then [current.publicReach.service] else p.routes
    | _ => p.routes
  | _ => p.routes

/-- Where the routes lead after a call: `EnsureRoute` creates a route or changes it. -/
def ensured : Move → String → Option PublicReach
  | .ensureRoute i (.ok _) =>
    match p.reach.passes[i]? with
    | some (.routing current) =>
      Function.update p.leads current.publicReach.service (some current.publicReach)
    | _ => p.leads
  | _ => p.leads

/-- What a step of the row and its passes does to what is served. -/
def follow (move : Move) (q : Reach) : Publication :=
  let version := if q.row.SameSetting p.row then p.version else p.version + 1
  { reach := q
    version
    stamps := match move with
      | .decide i _ => Function.update p.stamps i version
      | _ => p.stamps
    routes := p.served move
    leads := p.ensured move }

/-- What a step does, when it can be taken.  A pass that stops takes no further step. -/
def act (move : Move) : Option Publication := (p.reach.act move).map (p.follow move)

/-- The row and what is served under any interleaving. -/
def machine : Machine Publication Move where
  init p := ∃ workerID serverID owner connectTenantID now,
    p = enrolled workerID serverID owner connectTenantID now
  step p move p' := p.act move = some p'

end Publication

/-! ### What the writes keep -/

/-- What a step may do to the setting, the binding and the target of the addresses. -/
inductive Reach.Retargets (q : Reach) (move : Move) (r : Row) : Prop where
  | keeps (me : r.me = q.row.me) (same : r.SameSetting q.row)
  /-- The setting or the binding changes: the target is pending and keeps its address. -/
  | resets (changed : ¬ r.SameSetting q.row) (pending : r.me.state = .pending)
      (ref : r.me.ref = q.row.me.ref) (uncalled : move.pass = none ∨ ∃ i now, move = .decide i now)
  /-- A pass that registers writes its target. -/
  | settles (i : ℕ) (now : ℤ) (current : Row) (failure : String) (move_eq : move = .settle i now)
      (here : q.passes[i]? = some (.settling current failure)) (me : r.me = current.me)
      (same : r.SameSetting q.row)
  /-- A pass that revokes writes its target. -/
  | writes (i : ℕ) (current : Row) (failed : Bool)
      (here : q.passes[i]? = some (.writing current failed)) (me : r.me = current.me)
      (same : r.SameSetting q.row)

namespace Reach

variable {q after : Reach} {move : Move}

lemma retargets_of_alike {r : Row} (alike : q.row.Alike r)
    (uncalled : move.pass = none ∨ ∃ i now, move = .decide i now) : q.Retargets move r := by
  rcases alike.target with ⟨me, reach⟩ | ⟨differs, pending, ref⟩
  · exact .keeps me ⟨alike.generation, reach⟩
  · exact .resets (fun same => differs same.2) pending ref uncalled

lemma retargets_of_happens (happens : q.Happens move after) : q.Retargets move after.row := by
  cases happens with
  | claims | resolves | withdraws | routes | unrouted | registersServer | revokesServer | presents
  | puts | reads | consumes | advances | ownerRevokes => exact .keeps rfl ⟨rfl, rfl⟩
  | revokesNode i current failed outcome here =>
    obtain ⟨_, _, same, -⟩ := q.revokeNode_eq current current.revokeReason outcome
    rw [same]
    exact .keeps rfl ⟨rfl, rfl⟩
  | undoes i snapshot outcome here =>
    obtain ⟨_, _, same, -⟩ := q.revokeNode_eq snapshot "detached" outcome
    rw [same]
    exact .keeps rfl ⟨rfl, rfl⟩
  | defers i snapshot subject seen now row here alike =>
    exact retargets_of_alike alike (.inr ⟨i, now, rfl⟩)
  | rejects => exact retargets_of_alike (Row.alike_rejectProof _ _) (.inl rfl)
  | records => exact retargets_of_alike (Row.alike_recordNode _ _ _ _ _) (.inl rfl)
  | alters move row observed alike idle => exact retargets_of_alike alike (.inl idle)
  | marks =>
    show q.Retargets _ q.row.markRevoked
    unfold Row.markRevoked
    split <;> exact .keeps rfl ⟨rfl, rfl⟩
  | applies i event events next now here =>
    show q.Retargets _ (q.row.applyRevocation event now)
    unfold Row.applyRevocation
    split <;> exact .keeps rfl ⟨rfl, rfl⟩
  | registers i snapshot subject seen now here decides =>
    show q.Retargets _ (q.row.register subject)
    unfold Row.register
    dsimp only
    split
    · exact .resets (by simp) rfl rfl (.inr ⟨i, now, rfl⟩)
    · exact .keeps rfl ⟨rfl, rfl⟩
  | settles i current failure now here =>
    show q.Retargets _ (q.row.settleRegister current failure now)
    unfold Row.settleRegister Row.settle
    split
    · obtain ⟨_, _, _, same⟩ := (q.row.registeredTargets current).reschedule_eq failure now
      dsimp only
      rw [same]
      exact .settles i now current failure rfl here rfl ⟨rfl, rfl⟩
    · exact .keeps rfl ⟨rfl, rfl⟩
  | writes i current failed now here =>
    show q.Retargets _ (q.row.writeRevoked current failed now)
    unfold Row.writeRevoked
    split
    · cases failed <;> exact .writes i current _ here rfl ⟨rfl, rfl⟩
    · exact .keeps rfl ⟨rfl, rfl⟩

end Reach

/-! ### Truthful targets -/

/-- What a target is compared with. -/
structure View where
  reach : PublicReach
  generation : ℤ
  revocations : ℕ
  routes : List String
  leads : String → Option PublicReach

/-- A sense `K` in which a target tells the truth about the routes, and what `E` it asks of the
routes when a registration is processed. -/
structure Truth (K : View → Target → Prop)
    (E : PublicReach → (String → Option PublicReach) → Prop) : Prop where
  /-- A failed target says nothing. -/
  failed : ∀ (v : View) (t : Target), t.state = .failed → K v t
  revoked : ∀ (v : View) (t : Target), t.state = .revoked → K v t
  /-- The current setting has been registered. -/
  served : ∀ (v : View) (t : Target), v.reach.enabled = true → E v.reach v.leads →
    K { v with routes := [v.reach.service] } t
  /-- The server has been registered without a route, as the owner wants it. -/
  withdrawn : ∀ (v : View) (t : Target), v.reach.enabled = false → K { v with routes := [] } t
  /-- The server has been revoked. -/
  dropped : ∀ (v : View) (t : Target), v.revocations ≠ 0 → K v t → K { v with routes := [] } t
  counted : ∀ (v : View) (t : Target) (n : ℕ), v.revocations ≤ n → K v t →
    K { v with revocations := n } t
  /-- A target that is pending and remembers no address needs no withdrawal. -/
  never : ∀ (v : View) (t t' : Target), v.reach.enabled = false → t.state = .pending →
    t.ref = "" → K v t → t'.state = .notEnabled → K v t'

/-- What the position of a pass says about the row it works with. -/
def Pass.Shaped : Pass → Prop
  | .withdrawing current => current.publicReach.enabled = false
  | .routing current | .registering current _ => current.publicReach.enabled = true
  | .revokingConnect current _ | .writing current _ =>
    current.me.state = .revoked ∨ current.me.state = .failed
  | _ => True

/-- What is known of a pass that made its first write at the version `stamp`. -/
structure Pass.Fine (K : View → Target → Prop)
    (E : PublicReach → (String → Option PublicReach) → Prop) (v : View) (version : ℕ)
    (pass : Pass) (stamp : ℕ) : Prop where
  shaped : pass.Shaped
  revokes : pass.revokes ≠ none → v.revocations ≠ 0
  past : pass.registers ≠ none → stamp ≤ version
  current : ∀ current, pass.registers = some current → stamp = version →
    current.publicReach = v.reach
  ensured : ∀ current address, pass = .registering current address → stamp = version →
    E v.reach v.leads
  settles : ∀ current failure, pass = .settling current failure → stamp = version →
    K v current.me

/-! ### What a pass carries on -/

namespace Pass

/-- The pass is outside `register` and `revoke`. -/
def Idle (pass : Pass) : Prop := pass.registers = none ∧ pass.revokes = none

lemma Idle.shaped {pass : Pass} (idle : pass.Idle) : pass.Shaped := by
  obtain ⟨registers, revokes⟩ := idle
  cases pass with
  | claimed | resolved | done => trivial
  | withdrawing | routing | registering | settling => cases registers
  | revokingMe | revokingConnect | writing => cases revokes

variable (current : Row)

lemma toConnect_shaped {current : Row} (failed : Bool)
    (ended : current.me.state = .revoked ∨ current.me.state = .failed) :
    (toConnect current failed).Shaped ∧ (toConnect current failed).registers = none := by
  rcases toConnect_cases current failed with same | ⟨_, same⟩ <;> rw [same] <;> exact ⟨ended, rfl⟩

lemma afterMark_shaped : (afterMark current).Shaped ∧ (afterMark current).registers = none := by
  unfold afterMark
  split
  · rename_i revoked
    exact toConnect_shaped false (.inl revoked)
  · exact ⟨trivial, rfl⟩

lemma afterRevokeServer_shaped (outcome : Outcome) : (afterRevokeServer current outcome).Shaped ∧
      (afterRevokeServer current outcome).registers = none := by
  cases outcome with
  | ok => exact toConnect_shaped _ (.inl rfl)
  | fails e took => exact toConnect_shaped _ (.inr rfl)

lemma afterRevokeNode_shaped {current : Row} (failed : Bool) (outcome : Outcome)
    (ended : current.me.state = .revoked ∨ current.me.state = .failed) :
    (afterRevokeNode current failed outcome).Shaped ∧
      (afterRevokeNode current failed outcome).registers = none := by
  cases outcome with
  | ok => exact ⟨ended, rfl⟩
  | fails e took => exact ⟨ended, rfl⟩

end Pass

variable {K : View → Target → Prop} {E : PublicReach → (String → Option PublicReach) → Prop}
  {v v' : View} {version version' stamp : ℕ} {pass : Pass}

namespace Pass.Fine

/-- A pass that registers nothing. -/
lemma of_registers_none (shaped : pass.Shaped) (registers : pass.registers = none)
    (revokes : pass.revokes ≠ none → v.revocations ≠ 0) : Fine K E v version pass stamp where
  shaped := shaped
  revokes := revokes
  past some_ := absurd registers some_
  current current some_ _ := by simp [registers] at some_
  ensured current address here _ := by
    subst here
    cases registers
  settles current failure here _ := by
    subst here
    cases registers

lemma of_idle (idle : pass.Idle) : Fine K E v version pass stamp :=
  of_registers_none idle.shaped idle.1 fun some_ => absurd idle.2 some_

/-- A pass that is about to write a truthful target. -/
lemma of_settling {current : Row} {failure : String} (past : stamp ≤ version)
    (reach : stamp = version → current.publicReach = v.reach)
    (truthful : stamp = version → K v current.me) :
    Fine K E v version (.settling current failure) stamp where
  shaped := trivial
  revokes some_ := absurd rfl some_
  past _ := past
  current _ some_ now := by
    cases some_
    exact reach now
  ensured _ _ here := by cases here
  settles _ _ here now := by
    cases here
    exact truthful now

/-- The routes or the number of revocations have changed. -/
lemma review (fine : pass.Fine K E v version stamp) (reach : v'.reach = v.reach)
    (leads : E v.reach v.leads → E v'.reach v'.leads)
    (revocations : v.revocations ≠ 0 → v'.revocations ≠ 0) (truthful : ∀ t, K v t → K v' t) :
    pass.Fine K E v' version stamp where
  shaped := fine.shaped
  revokes some_ := revocations (fine.revokes some_)
  past := fine.past
  current current some_ now := (fine.current current some_ now).trans reach.symm
  ensured current address here now := leads (fine.ensured current address here now)
  settles current failure here now := truthful _ (fine.settles current failure here now)

/-- The setting or the binding has changed, and the pass acts on an earlier one. -/
lemma outdated (fine : pass.Fine K E v version stamp) (later : version < version')
    (revocations : v.revocations ≠ 0 → v'.revocations ≠ 0) : pass.Fine K E v' version' stamp := by
  have differ (some_ : pass.registers ≠ none) : stamp ≠ version' :=
    ((fine.past some_).trans_lt later).ne
  exact {
    shaped := fine.shaped
    revokes := fun some_ => revocations (fine.revokes some_)
    past := fun some_ => (fine.past some_).trans later.le
    current := fun current some_ now => absurd now (differ (by simp [some_]))
    ensured := fun current address here now => absurd now (differ (by simp [here, registers]))
    settles := fun current failure here now => absurd now (differ (by simp [here, registers])) }

end Pass.Fine

variable {move : Move} {p p' : Publication}

namespace Publication

def view (p : Publication) : View :=
  ⟨p.row.publicReach, p.row.generation, p.reach.revocations, p.routes, p.leads⟩

/-- The row's target is truthful, and what is about to be written is. -/
structure Honest (K : View → Target → Prop)
    (E : PublicReach → (String → Option PublicReach) → Prop) (p : Publication) : Prop where
  row : K p.view p.row.me
  passes : ∀ (i : ℕ) (pass : Pass), p.reach.passes[i]? = some pass →
    pass.Fine K E p.view p.version (p.stamps i)
  revoked : p.row.desired = .revoked → p.reach.revocations ≠ 0

/-! ### What a step does -/

lemma served_of_pass_none (p : Publication) (idle : move.pass = none) :
    p.served move = p.routes := by
  cases move <;> first | rfl | cases idle

lemma ensured_of_pass_none (p : Publication) (idle : move.pass = none) :
    p.ensured move = p.leads := by
  cases move <;> first | rfl | cases idle

/-- The state after a change. -/
abbrev next (p : Publication) (move : Move) (after : Reach) : Publication :=
  p.follow move (p.reach.counted after)

variable {after : Reach}

lemma row_next (p : Publication) (move : Move) (after : Reach) :
    (p.next move after).row = after.row := Reach.counted_row _ _

lemma passes_next (p : Publication) (move : Move) (after : Reach) :
    (p.next move after).reach.passes = after.passes := Reach.counted_passes _ _

lemma stamps_next (p : Publication) {i : ℕ} (other : move.pass ≠ some i) :
    (p.next move after).stamps i = p.stamps i := by
  cases move with
  | decide j now => exact Function.update_of_ne (fun same => other (by rw [same]; rfl)) _ _
  | _ => rfl

lemma revocations_le_next (move : Move) (count : after.revocations = p.reach.revocations) :
    p.reach.revocations ≤ (p.next move after).reach.revocations := by
  show _ ≤ (p.reach.counted after).revocations
  rw [Reach.counted_revocations count]
  split
  · exact Nat.le_succ _
  · exact le_rfl

/-- The version stays as long as the setting and the binding do. -/
lemma version_next (p : Publication) (move : Move) (after : Reach) :
    (p.next move after).version = p.version ∧ after.row.SameSetting p.row ∨
      (p.next move after).version = p.version + 1 ∧ ¬ after.row.SameSetting p.row := by
  rw [← Reach.counted_row p.reach after]
  by_cases same : (p.reach.counted after).row.SameSetting p.row
  · exact .inl ⟨if_pos same, same⟩
  · exact .inr ⟨if_neg same, same⟩

lemma version_of_same (move : Move) (same : after.row.SameSetting p.row) :
    (p.next move after).version = p.version := by
  rcases p.version_next move after with ⟨kept, -⟩ | ⟨-, changed⟩
  · exact kept
  · exact absurd same changed

lemma view_next (move : Move) (same : after.row.SameSetting p.row) :
    (p.next move after).view = { p.view with
    revocations := (p.next move after).reach.revocations
    routes := p.served move
    leads := p.ensured move } := by
  obtain ⟨generation, reach⟩ := same
  simp only [view, row_next, generation, reach]
  rfl

/-- A step that changes the setting or the binding sets the target to pending and keeps the
address it remembers. -/
lemma pending_of_reset (happens : p.reach.Happens move after)
    (reset : (p.next move after).version ≠ p.version) : after.row.me.state = .pending ∧
      after.row.me.ref = p.row.me.ref ∧ p.served move = p.routes := by
  rcases p.version_next move after with ⟨same, -⟩ | ⟨-, changed⟩
  · exact absurd same reset
  cases Reach.retargets_of_happens happens with
  | keeps me same | settles i now current failure _ here me same | writes i _ _ here me same =>
    exact absurd same changed
  | resets _ pending ref uncalled =>
    refine ⟨pending, ref, ?_⟩
    rcases uncalled with idle | ⟨i, now, rfl⟩
    · exact p.served_of_pass_none idle
    · rfl

/-! ### What a step keeps -/

/-- The pass that a registration, or the write after it, belongs to. -/
def acts : Move → Option ℕ
  | .withdraw i _ | .registerServer i _ | .settle i _ => some i
  | _ => none

/-- A pass registers, and writes down the result, only while the setting and the binding are
those it began with. -/
def Current (p : Publication) (move : Move) : Prop :=
  ∀ i, acts move = some i → p.stamps i = p.version

namespace Honest

section

variable (truth : Truth K E) (honest : p.Honest K E) (timely : p.Current move)
include truth honest timely

/-- What a step writes into the row is truthful. -/
lemma target (retargets : p.reach.Retargets move after.row)
    (unchanged : after.row.SameSetting p.row) : K p.view after.row.me := by
  cases retargets with
  | keeps me =>
    rw [me]
    exact honest.row
  | resets changed => exact absurd unchanged changed
  | settles i now current failure move_eq here me =>
    rw [me]
    subst move_eq
    exact (honest.passes i _ here).settles current failure rfl (timely i rfl)
  | writes i current failed here me =>
    rw [me]
    rcases (honest.passes i _ here).shaped with revoked | failed
    · exact truth.revoked _ _ revoked
    · exact truth.failed _ _ failed

/-- What is served after a step leaves a truthful target truthful. -/
lemma serves (happens : p.reach.Happens move after)
    (ensures : ∀ i address current, move = .ensureRoute i (.ok address) →
      p.reach.passes[i]? = some (.routing current) →
      ∀ t, K p.view t → K { p.view with leads := p.ensured move } t) (t : Target)
    (truthful : K p.view t) :
    K { p.view with routes := p.served move, leads := p.ensured move } t := by
  cases happens with
  | withdraws i current outcome here =>
    have fine := honest.passes i _ here
    have reach : current.publicReach = p.row.publicReach := fine.current current rfl (timely i rfl)
    have disabled : p.row.publicReach.enabled = false := reach ▸ fine.shaped
    show K { p.view with routes := if outcome.effective then [] else p.routes } t
    split
    · exact truth.withdrawn p.view t disabled
    · exact truthful
  | registersServer i current address outcome here =>
    have fine := honest.passes i _ here
    have reach : current.publicReach = p.row.publicReach := fine.current current rfl (timely i rfl)
    have enabled : p.row.publicReach.enabled = true := reach ▸ fine.shaped
    simp only [served, here, reach]
    show K { p.view with routes := if outcome.effective then _ else p.routes } t
    split
    · exact truth.served p.view t enabled (fine.ensured current address rfl (timely i rfl))
    · exact truthful
  | revokesServer i current outcome here =>
    show K { p.view with routes := if outcome.effective then [] else p.routes } t
    split
    · exact truth.dropped p.view t ((honest.passes i _ here).revokes (by simp [revokes])) truthful
    · exact truthful
  | routes i current address here => exact ensures i address current rfl here t truthful
  | consumes _ _ _ _ _ _ _ idle | alters _ _ _ _ idle =>
    rw [p.served_of_pass_none idle, p.ensured_of_pass_none idle]
    exact truthful
  | _ => exact truthful

end

section

variable (truth : Truth K E) (honest : p.Honest K E)
  (count : after.revocations = p.reach.revocations) {i : ℕ}
include truth honest count

/-- A pass that a step leaves alone. -/
lemma stays (serves : ∀ t, K p.view t →
      K { p.view with routes := p.served move, leads := p.ensured move } t)
    (ensures : E p.row.publicReach p.leads → E p.row.publicReach (p.ensured move))
    (other : move.pass ≠ some i) (there : p.reach.passes[i]? = some pass) :
    pass.Fine K E (p.next move after).view (p.next move after).version
      ((p.next move after).stamps i) := by
  have more := revocations_le_next move count
  have fine := honest.passes i pass there
  have positive : p.view.revocations ≠ 0 → (p.next move after).view.revocations ≠ 0 :=
    fun some_ => (Nat.pos_of_ne_zero some_ |>.trans_le more).ne'
  rw [p.stamps_next other]
  rcases p.version_next move after with ⟨version, same⟩ | ⟨version, -⟩
  · have view := view_next move same
    rw [version]
    refine fine.review (by rw [view]) ?_ positive fun t truthful => ?_
    · rw [view]
      exact ensures
    · rw [view]
      exact truth.counted _ t _ more (serves t truthful)
  · exact fine.outdated (by omega) positive

/-- A pass that goes on to its last write of `register`. -/
lemma settling {current current' : Row} {failure : String}
    (here : p.reach.passes[i]? = some pass) (registers : pass.registers = some current)
    (reach : current'.publicReach = current.publicReach) (same : after.row.SameSetting p.row)
    (truthful : p.stamps i = p.version →
      K { p.view with routes := p.served move, leads := p.ensured move } current'.me) :
    (Pass.settling current' failure).Fine K E (p.next move after).view
      (p.next move after).version (p.stamps i) := by
  have fine := honest.passes i pass here
  rw [version_of_same move same, view_next move same]
  refine .of_settling (fine.past (by simp [registers]))
    (fun now => reach.trans (fine.current current registers now)) fun now => ?_
  exact truth.counted _ _ _ (revocations_le_next move count) (truthful now)

end

/-- What `register` goes on with is about the row it has written. -/
lemma afterRegister (truth : Truth K E) (target : K p.view p.row.me) :
    (Pass.afterRegister p.row).Fine K E p.view p.version p.version := by
  rcases afterRegister_cases p.row with ⟨same, enabled⟩ | ⟨same, disabled⟩ | ⟨me, same, -, ends⟩ <;>
    rw [same]
  case inr.inr =>
    refine .of_settling le_rfl (fun _ => rfl) fun _ => ?_
    rcases ends with rfl | ⟨disabled, pending, unassigned, off⟩
    · exact target
    · exact truth.never _ _ _ disabled pending unassigned target off
  all_goals exact {
    shaped := by assumption
    revokes := fun some_ => absurd rfl some_
    past := fun _ => le_rfl
    current := by rintro _ ⟨⟩ -; rfl
    ensured := by rintro _ _ ⟨⟩
    settles := by rintro _ _ ⟨⟩ }

/-- A step keeps the invariant when its pass acts on the current setting, a refused withdrawal
leaves nothing behind, a route is created for that setting, and a change leaves a truthful
target. -/
lemma step (truth : Truth K E) (honest : p.Honest K E) (timely : p.Current move)
    (happens : p.reach.Happens move after)
    (refused : ∀ i outcome, move = .withdraw i outcome → bindingRevoked outcome = true →
      outcome.effective = false → p.row.publicReach.enabled = false →
      ∀ t : Target, t.state = .notEnabled → K p.view t)
    (ensures : ∀ i address current, move = .ensureRoute i (.ok address) →
      p.reach.passes[i]? = some (.routing current) →
      (∀ t, K p.view t → K { p.view with leads := p.ensured move } t) ∧
        E p.row.publicReach (p.ensured move))
    (resets : (p.next move after).version ≠ p.version → K (p.next move after).view after.row.me) :
    (p.next move after).Honest K E := by
  obtain ⟨count, -⟩ := Reach.rebinds_of_happens happens
  have more := revocations_le_next move count
  have serves := honest.serves truth timely happens fun i address current move_eq here =>
    (ensures i address current move_eq here).1
  have leads : E p.row.publicReach p.leads → E p.row.publicReach (p.ensured move) := by
    cases happens with
    | routes i current address here => exact fun _ => (ensures i address current rfl here).2
    | consumes _ _ _ _ _ _ _ idle | alters _ _ _ _ idle =>
      rw [p.ensured_of_pass_none idle]
      exact id
    | _ => exact id
  have target : K (p.next move after).view after.row.me := by
    rcases p.version_next move after with ⟨-, same⟩ | ⟨version, -⟩
    · rw [view_next move same]
      have written := honest.target truth timely (Reach.retargets_of_happens happens) same
      exact truth.counted _ _ _ more (serves _ written)
    · exact resets (by omega)
  have revoked (desired : after.row.desired = .revoked) :
      (p.next move after).reach.revocations ≠ 0 := by
    show (p.reach.counted after).revocations ≠ 0
    rw [Reach.counted_revocations count]
    split
    · exact Nat.succ_ne_zero _
    · rename_i before
      refine honest.revoked ?_
      cases was : p.row.desired with
      | revoked => rfl
      | active => exact absurd ⟨was, desired⟩ before
  have positive {pass : Pass} {i : ℕ} (here : p.reach.passes[i]? = some pass)
      (revokes : pass.revokes ≠ none) : (p.next move after).view.revocations ≠ 0 :=
    (Nat.pos_of_ne_zero ((honest.passes i pass here).revokes revokes) |>.trans_le more).ne'
  refine ⟨by rw [row_next]; exact target, ?_, by rw [row_next]; exact revoked⟩
  rw [passes_next]
  -- Only the pass that takes the step is another one.
  have moves {i : ℕ} {new : Pass} (acting : move.pass = some i)
      (fine : new.Fine K E (p.next move after).view (p.next move after).version
        ((p.next move after).stamps i)) (j : ℕ) (pass : Pass)
      (there : (p.reach.passes.set i new)[j]? = some pass) :
      pass.Fine K E (p.next move after).view (p.next move after).version
        ((p.next move after).stamps j) := by
    rw [getElem?_set] at there
    split at there
    · rename_i same
      subst same
      obtain ⟨-, ⟨⟩⟩ := Option.ite_none_right_eq_some.mp there
      exact fine
    · rename_i other
      refine honest.stays truth count serves leads ?_ there
      rw [acting]
      exact fun same => other (Option.some.inj same)
  have same (i : ℕ) (pass : Pass) (there : p.reach.passes[i]? = some pass)
      (idle : move.pass = none) :=
    honest.stays truth count serves leads (i := i) (by rw [idle]; nofun) there
  cases happens with
  | claims now lease =>
    intro i pass there
    rcases getElem?_snoc there with old | ⟨-, rfl⟩
    · exact same i pass old rfl
    · exact .of_idle ⟨rfl, rfl⟩
  | resolves | defers | settles | writes => exact moves rfl (.of_idle ⟨rfl, rfl⟩)
  | marks i snapshot subject seen now here decides =>
    obtain ⟨shaped, registers⟩ := afterMark_shaped p.row.markRevoked
    obtain ⟨_, marked⟩ := p.row.markRevoked_eq
    have desired := congrArg Row.desired marked
    exact moves rfl (.of_registers_none shaped registers fun _ => revoked desired)
  | registers i snapshot subject seen now here decides =>
    have written := afterRegister truth (p := p.next (.decide i now) _)
      (by rw [row_next]; exact target)
    rw [row_next] at written
    refine moves rfl ?_
    rw [show (p.next (.decide i now) _).stamps i = (p.next (.decide i now) _).version from
      Function.update_self ..]
    exact written
  | withdraws i current outcome here =>
    have fine := honest.passes i _ here
    have reach : current.publicReach = p.row.publicReach := fine.current current rfl (timely i rfl)
    have disabled : p.row.publicReach.enabled = false := reach ▸ fine.shaped
    obtain ⟨me, failure, settling, ended⟩ := afterWithdraw_cases current outcome
    refine moves rfl ?_
    rw [settling]
    refine honest.settling truth (by rfl) here rfl rfl (by exact ⟨rfl, rfl⟩) fun _ => ?_
    rcases ended with failed | ⟨off, processed⟩
    · exact truth.failed _ _ failed
    show K { p.view with routes := if outcome.effective then [] else p.routes } _
    split
    · exact truth.withdrawn p.view _ disabled
    · rename_i unprocessed
      exact refused i outcome rfl (processed.resolve_left unprocessed)
        (Bool.eq_false_iff.mpr unprocessed) disabled _ off
  | routes i current address here =>
    have fine := honest.passes i _ here
    have same : (p.reach.setPass i (.registering current address)).row.SameSetting p.row :=
      ⟨rfl, rfl⟩
    refine moves rfl ?_
    rw [version_of_same _ same, view_next _ same]
    exact {
      shaped := fine.shaped
      revokes := fun some_ => absurd rfl some_
      past := fun _ => fine.past (by simp [registers])
      current := fine.current
      ensured := fun _ _ _ _ => (ensures i address current rfl here).2
      settles := fun _ _ settling _ => by cases settling }
  | unrouted i current e here =>
    exact moves rfl (honest.settling truth count here rfl rfl ⟨rfl, rfl⟩ fun _ =>
      truth.failed _ _ rfl)
  | registersServer i current address outcome here =>
    have fine := honest.passes i _ here
    have reach : current.publicReach = p.row.publicReach := fine.current current rfl (timely i rfl)
    have enabled : p.row.publicReach.enabled = true := reach ▸ fine.shaped
    obtain ⟨me, failure, settling, ended⟩ := afterRegisterServer_cases current address outcome
    refine moves rfl ?_
    rw [settling]
    refine honest.settling truth (by rfl) here rfl rfl (by exact ⟨rfl, rfl⟩) fun _ => ?_
    rcases ended with failed | ⟨-, effective⟩
    · exact truth.failed _ _ failed
    · simp only [served, here, effective, if_true, reach]
      exact truth.served p.view _ enabled (fine.ensured current address rfl (timely i rfl))
  | revokesServer i current outcome here =>
    obtain ⟨shaped, registers⟩ := afterRevokeServer_shaped current outcome
    exact moves rfl (.of_registers_none shaped registers fun _ => positive here (by simp [revokes]))
  | revokesNode i current failed outcome here =>
    obtain ⟨shaped, registers⟩ :=
      afterRevokeNode_shaped failed outcome (honest.passes i _ here).shaped
    obtain ⟨_, _, same, -⟩ := p.reach.revokeNode_eq current current.revokeReason outcome
    intro j pass there
    refine moves rfl ?_ j pass (by rw [same] at there; exact there)
    exact .of_registers_none shaped registers fun _ => positive here (by simp [revokes])
  | presents | rejects | puts | records | reads | applies | advances | ownerRevokes =>
    exact fun i pass there => same i pass there rfl
  | undoes i snapshot outcome here =>
    obtain ⟨_, _, kept, -⟩ := p.reach.revokeNode_eq snapshot "detached" outcome
    exact fun i pass there => same i pass (by rw [kept] at there; exact there) rfl
  | consumes _ _ _ _ _ _ _ idle | alters _ _ _ _ idle =>
    exact fun i pass there => same i pass there idle

end Honest

/-- A reachable publication is honest in a sense that its start respects and every step. -/
lemma honest_of_reaches {ok : Publication → Move → Prop} (truth : Truth K E)
    (start : ∀ v t, v.routes = [] → t.state = .pending → K v t)
    (current : ∀ p move, ok p move → p.Current move)
    (refused : ∀ p i outcome, ok p (.withdraw i outcome) → bindingRevoked outcome = true →
      outcome.effective = false → ∀ t : Target, t.state = .notEnabled → K p.view t)
    (ensures : ∀ p i address current, p.Honest K E → ok p (.ensureRoute i (.ok address)) →
      p.reach.passes[i]? = some (.routing current) →
      (∀ t, K p.view t → K { p.view with leads := p.ensured (.ensureRoute i (.ok address)) } t) ∧
        E p.row.publicReach (p.ensured (.ensureRoute i (.ok address))))
    (resets : ∀ p move p', ok p move → p.act move = some p' → p'.version ≠ p.version →
      p'.row.me.state = .pending → p'.row.me.ref = p.row.me.ref → p'.routes = p.routes →
      K p'.view p'.row.me)
    (reached : machine.Reaches ok p) : p.Honest K E := by
  refine reached.invariant (Honest K E) ?_ ?_
  · rintro _ ⟨_, _, _, _, _, rfl⟩
    exact ⟨start _ _ rfl rfl, by simp [enrolled, Reach.enrolled], by simp [enrolled, Reach.enrolled]⟩
  · intro p move p' honest admitted stepped
    obtain ⟨q, acted, rfl⟩ := Option.map_eq_some_iff.mp stepped
    obtain ⟨after, happens, rfl⟩ := Reach.happens_of_act acted
    refine honest.step truth (current p move admitted) happens ?_ ?_ fun reset => ?_
    · rintro i outcome rfl revoked failed _
      exact refused p i outcome admitted revoked failed
    · rintro i address current rfl
      exact ensures p i address current honest admitted
    · obtain ⟨pending, ref, routes⟩ := pending_of_reset happens reset
      rw [← p.row_next move after] at pending ref ⊢
      exact resets p move _ admitted stepped reset pending ref routes

/-! ### Servers that are not published -/

/-- A target that is not enabled, or that a pass would take for one without a route, means that
nothing is served. -/
def Quiet (v : View) (t : Target) : Prop :=
  v.revocations = 0 → v.routes ≠ [] → v.reach.enabled = true ∨
    t.state ≠ .notEnabled ∧ (t.state ≠ .pending ∨ t.ref ≠ "")

lemma truth_quiet : Truth Quiet fun _ _ => True where
  failed v t failed _ _ := .inr (by simp [failed])
  revoked v t revoked _ _ := .inr (by simp [revoked])
  served v t enabled _ _ _ := .inl enabled
  withdrawn v t _ _ held := absurd rfl held
  dropped v t _ _ _ held := absurd rfl held
  counted v t n more quiet none_ := quiet (Nat.le_zero.mp (more.trans_eq none_))
  never v t t' disabled pending unassigned quiet _ never held := by
    rcases quiet never held with enabled | ⟨-, remembered⟩
    · simp [disabled] at enabled
    · simp [pending, unassigned] at remembered

/-- The steps under which the target remembers the route. -/
structure Remembered (p : Publication) (move : Move) : Prop where
  current : p.Current move
  /-- A server is taken back, or bound anew while it is not published, only when the target has
  the address of a route that is held. -/
  remembers : ∀ p', p.act move = some p' → p'.version ≠ p.version →
    p'.row.publicReach.enabled = false → p.row.me.ref ≠ "" ∨ p.routes = []
  /-- A binding that the registry calls revoked has no route. -/
  refused : ∀ i outcome, move = .withdraw i outcome → Pass.bindingRevoked outcome = true →
    outcome.effective = false → p.routes = []

lemma honest_quiet (reached : machine.Reaches Remembered p) :
    p.Honest Quiet fun _ _ => True := by
  refine honest_of_reaches truth_quiet ?_ (fun _ _ => Remembered.current) ?_ ?_ ?_ reached
  · exact fun _ _ none_ _ _ held => absurd none_ held
  · exact fun p i outcome admitted revoked failed t _ _ held =>
      absurd (admitted.refused i outcome rfl revoked failed) held
  · exact fun _ _ _ _ _ _ _ => ⟨fun _ => id, trivial⟩
  · intro p move p' admitted stepped reset pending ref routes _ held
    by_cases enabled : p'.row.publicReach.enabled = true
    · exact .inl enabled
    · refine .inr ⟨by simp [pending], .inr ?_⟩
      rw [ref]
      rcases admitted.remembers p' stepped reset (Bool.eq_false_iff.mpr enabled) with
        remembered | none_
      · exact remembered
      · exact absurd (routes.trans none_) held

/-- **A server that is not published has no route**, as long as the target remembers the routes
that are held. -/
theorem unpublished_without_route (reached : machine.Reaches Remembered p)
    (never : p.reach.revocations = 0) :
    p.row.publicReach.enabled = false → p.row.me.state = .notEnabled →
      p.row.me.generation = p.row.generation → p.routes = [] := by
  intro disabled off _
  by_contra held
  rcases (honest_quiet reached).row never held with enabled | ⟨on, -⟩
  · have enabled : p.row.publicReach.enabled = true := enabled
    simp [disabled] at enabled
  · exact on off

/-! ### Servers that are published -/

/-- A pass creates a route, registers the server and writes down the result only while the
setting and the binding are those it began with. -/
structure Timely (p : Publication) (move : Move) : Prop where
  current : p.Current move
  ensures : ∀ i route, move = .ensureRoute i route → p.stamps i = p.version

/-- The route of the service leads where the owner says. -/
def Leads (reach : PublicReach) (leads : String → Option PublicReach) : Prop :=
  leads reach.service = some reach

/-- A target that is registered means that the owner's setting is served, until the server is
revoked. -/
def Served (v : View) (t : Target) : Prop :=
  v.reach.enabled = true → t.registeredAt v.generation = true →
    (∀ service ∈ v.routes, service = v.reach.service ∧ v.leads service = some v.reach) ∧
      (v.revocations = 0 → v.routes = [v.reach.service])

lemma served_of_state {v : View} {t : Target} (other : t.state ≠ .registered) : Served v t := by
  intro _ registered
  simp only [Target.registeredAt, Bool.and_eq_true, beq_iff_eq] at registered
  exact absurd registered.1 other

lemma truth_served : Truth Served Leads where
  failed v t failed := served_of_state (by simp [failed])
  revoked v t revoked := served_of_state (by simp [revoked])
  served v t _ leads _ _ := ⟨forall_mem_singleton.mpr ⟨rfl, leads⟩, fun _ => rfl⟩
  withdrawn v t disabled enabled := by
    have enabled : v.reach.enabled = true := enabled
    simp [disabled] at enabled
  dropped v t revoking _ _ _ :=
    ⟨fun _ mem => (not_mem_nil mem).elim, fun none_ => absurd none_ revoking⟩
  counted v t n more served enabled registered :=
    ⟨(served enabled registered).1, fun none_ =>
      (served enabled registered).2 (Nat.le_zero.mp (more.trans_eq none_))⟩
  never v t t' _ _ _ _ off := served_of_state (by simp [off])

lemma honest_served (reached : machine.Reaches Timely p) : p.Honest Served Leads := by
  refine honest_of_reaches truth_served ?_ (fun _ _ => Timely.current) ?_ ?_ ?_ reached
  · exact fun _ _ _ pending => served_of_state (by simp [pending])
  · exact fun _ _ _ _ _ _ t off => served_of_state (by simp [off])
  · intro p i address current honest admitted here
    -- The route is created for the setting the owner has now.
    have reach : current.publicReach = p.row.publicReach :=
      (honest.passes i _ here).current current rfl (admitted.ensures i _ rfl)
    simp only [ensured, here, reach]
    refine ⟨fun t served enabled registered => ?_, Function.update_self ..⟩
    obtain ⟨routes, held⟩ := served enabled registered
    refine ⟨fun service mem => ⟨(routes service mem).1, ?_⟩, held⟩
    show Function.update p.leads _ _ service = _
    rw [(routes service mem).1]
    exact Function.update_self ..
  · exact fun _ _ _ _ _ _ pending _ _ => served_of_state (by simp [pending])

/-- **A published address leads where the owner last said**, as long as passes act on the
current setting.  A server that was revoked may have no route at all. -/
theorem published_as_set (reached : machine.Reaches Timely p) :
    p.row.publicReach.enabled = true → p.row.me.registeredAt p.row.generation = true →
      (∀ service ∈ p.routes, service = p.row.publicReach.service ∧
        p.leads service = some p.row.publicReach) ∧
      (p.reach.revocations = 0 → p.routes = [p.row.publicReach.service]) :=
  (honest_served reached).row

/-! ### Runs -/

instance (p : Publication) (move : Move) : Decidable (p.Current move) :=
  inferInstanceAs (Decidable (∀ i ∈ acts move, p.stamps i = p.version))

/-- `Timely`, as a check. -/
def timelyNow (p : Publication) (move : Move) : Bool :=
  p.Current move && match move with
    | .ensureRoute i _ => p.stamps i == p.version
    | _ => true

lemma timely_of_now (p : Publication) (move : Move) (now : p.timelyNow move = true) :
    p.Timely move := by
  obtain ⟨current, ensures⟩ := (Bool.and_eq_true ..).mp now
  refine ⟨of_decide_eq_true current, ?_⟩
  rintro i route rfl
  simpa using ensures

/-- `Remembered`, as a check that refuses every failed withdrawal. -/
def rememberedNow (p : Publication) (move : Move) : Bool :=
  p.Current move &&
    (p.act move).all (fun p' : Publication => p'.version == p.version ||
      p'.row.publicReach.enabled || p.row.me.ref != "" || p.routes.isEmpty) &&
    (match move with
      | .withdraw _ outcome => outcome.effective
      | _ => true)

lemma remembered_of_now (p : Publication) (move : Move)
    (now : p.rememberedNow move = true) : p.Remembered move := by
  simp only [rememberedNow, Bool.and_eq_true] at now
  obtain ⟨⟨current, remembers⟩, effective⟩ := now
  refine ⟨of_decide_eq_true current, ?_, ?_⟩
  · intro p' stepped reset disabled
    simpa [stepped, reset, disabled] using remembers
  · rintro i outcome rfl _ failed
    have effective : outcome.effective = true := effective
    simp [failed] at effective

/-- The owner publishes a service. -/
def publish (service : String) (port : ℤ) : Move :=
  .setPublic "owner" ⟨true, service, "http", port⟩ 0

/-- The owner takes the server back. -/
def unpublish : Move := .setPublic "owner" ⟨false, "", "", 0⟩ 0

/-- A pass up to its first write. -/
def begin_ (i : ℕ) : List Move :=
  [.claim 0 1, .resolve i (some (Reach.boundTo "k1")), .decide i 0]

/-- A pass from its first write on, when the server is published and all calls succeed. -/
def finish (i : ℕ) : List Move :=
  [.ensureRoute i (.ok "address"), .registerServer i .ok, .settle i 0]

def server : Publication := enrolled "worker" "server" "owner" "tenant" 0

lemma enacted : machine.Enacts act server := ⟨⟨_, _, _, _, _, rfl⟩, fun _ _ _ => id⟩

/-- A server that was published and taken back. -/
theorem unpublished_without_route_withdrawn :
    ∃ p, machine.Reaches Remembered p ∧ p.reach.revocations = 0 ∧ p.row.publicReach.enabled = false ∧
      p.row.me.state = .notEnabled ∧ p.row.me.generation = p.row.generation ∧ p.routes = [] := by
  obtain ⟨p, reached, never, disabled, off, generation⟩ := enacted.reaches rememberedNow
    remembered_of_now
    ([publish "web" 80] ++ begin_ 0 ++ finish 0 ++ [unpublish] ++ begin_ 1 ++
      [.withdraw 1 .ok, .settle 1 0])
    (fun p => p.reach.revocations = 0 ∧ p.row.publicReach.enabled = false ∧
      p.row.me.state = .notEnabled ∧ p.row.me.generation = p.row.generation)
    (by decide +kernel)
  exact ⟨p, reached, never, disabled, off, generation,
    unpublished_without_route reached never disabled off generation⟩

/-- A change of the published service fails and forgets the address, so that taking the server
back withdraws nothing. -/
theorem forgotten_route_stays : ∃ p, machine.Reaches (fun _ _ => True) p ∧ p.reach.revocations = 0 ∧
      p.row.publicReach.enabled = false ∧ p.row.me.state = .notEnabled ∧
      p.row.me.generation = p.row.generation ∧ p.routes = ["web"] :=
  enacted.reaches_any
    ([publish "web" 80] ++ begin_ 0 ++ finish 0 ++ [publish "api" 81] ++ begin_ 1 ++
      [.ensureRoute 1 (.error ⟨false, "", true⟩), .settle 1 0, unpublish] ++ begin_ 2 ++
      [.settle 2 0])
    _ (by decide +kernel)

/-- A server that is published, then on another port, and then with another service. -/
theorem published_as_set_registered :
    ∃ p, machine.Reaches Timely p ∧ p.row.publicReach.enabled = true ∧
      p.row.me.registeredAt p.row.generation = true ∧
      (∀ service ∈ p.routes, service = p.row.publicReach.service ∧
        p.leads service = some p.row.publicReach) ∧
      (p.reach.revocations = 0 → p.routes = [p.row.publicReach.service]) := by
  obtain ⟨p, reached, enabled, registered⟩ := enacted.reaches timelyNow timely_of_now
    ([publish "web" 80] ++ begin_ 0 ++ finish 0 ++ [publish "web" 81] ++ begin_ 1 ++ finish 1 ++
      [publish "api" 81] ++ begin_ 2 ++ finish 2)
    (fun p => p.row.publicReach.enabled = true ∧
      p.row.me.registeredAt p.row.generation = true)
    (by decide +kernel)
  exact ⟨p, reached, enabled, registered, published_as_set reached enabled registered⟩

/-- The owner publishes another service while a pass registers the first one: the row says that
it is registered, and the first service is served. -/
theorem outdated_route_stays :
    ∃ p, machine.Reaches (fun _ _ => True) p ∧ p.row.publicReach = ⟨true, "api", "http", 81⟩ ∧
      p.row.me.registeredAt p.row.generation = true ∧ p.reach.revocations = 0 ∧
      p.routes = ["web"] ∧ p.leads "web" = some ⟨true, "web", "http", 80⟩ :=
  enacted.reaches_any ([publish "web" 80] ++ begin_ 0 ++ [publish "api" 81] ++ finish 0) _
    (by decide +kernel)

end Publication

end TechStack.GuardReach
