import TechStack.Ports.Invariant

/-!
# Host ports are exclusive

Two claims of unreleased generations on overlapping listeners are virtual hosts of one group,
or they are exclusive claims of one stack, of which a later plan takes over from an earlier one.
A plan is admitted beside another one only when that one is active or uncertain, so that one of
them at most is about to change the host.

This last part is not kept afterwards: an uncertain generation may be started again while the
plan that was admitted beside it is pending (`restarted_beside_pending`).  `Single` names the
steps that do not do so.
-/

namespace TechStack.Ports

open Bool Lib

lemma Listener.overlaps_comm (a b : Listener) : a.overlaps b = b.overlaps a := by
  have transport : (a.transport == b.transport) = (b.transport == a.transport) := Bool.beq_comm
  have port : (a.port == b.port) = (b.port == a.port) := Bool.beq_comm
  have address : addressesOverlap a.bindAddress b.bindAddress =
      addressesOverlap b.bindAddress a.bindAddress := by
    have same : (a.bindAddress == b.bindAddress) = (b.bindAddress == a.bindAddress) :=
      Bool.beq_comm
    simp only [addressesOverlap, same, Bool.or_comm (a.bindAddress == "*")]
  simp only [Listener.overlaps, transport, port, address]

variable {next : ClaimState}

namespace Inventory

variable {t : Texts} {s s' : Inventory} {ref : GenerationRef}

/-- The generation is about to change the host. -/
def busy (s : Inventory) (ref : GenerationRef) : Bool :=
  s.stateOf ref == .pending || s.stateOf ref == .mutating

lemma busy_iff : s.busy ref = true ↔ s.stateOf ref = .pending ∨ s.stateOf ref = .mutating := by
  simp [busy]

/-- Two claims on overlapping listeners that can stand beside each other. -/
def Stand (s : Inventory) (c d : Claim) : Prop :=
  c.requirement.listener.sharing = .virtualHost ∧ d.requirement.listener.sharing = .virtualHost ∧
    c.requirement.listener.bindAddress = d.requirement.listener.bindAddress ∧
    c.requirement.listener.listenerGroupRef = d.requirement.listener.listenerGroupRef ∨
  c.requirement.listener.sharing = .exclusive ∧ d.requirement.listener.sharing = .exclusive ∧
    c.requirement.listener.bindAddress = d.requirement.listener.bindAddress ∧
    c.ref.stackID = d.ref.stackID ∧ c.ref.resolvedPlanHash ≠ d.ref.resolvedPlanHash ∧
    ¬ (s.busy c.ref = true ∧ s.busy d.ref = true)

lemma Stand.symm {c d : Claim} (stand : s.Stand c d) : s.Stand d c := by
  rcases stand with ⟨vc, vd, address, group⟩ | ⟨ec, ed, address, stack, plan, single⟩
  · exact .inl ⟨vd, vc, address.symm, group.symm⟩
  · exact .inr ⟨ed, ec, address.symm, stack.symm, plan.symm, fun both => single both.symm⟩

/-- Claims of unreleased generations on overlapping listeners stand beside each other. -/
def Apart (s : Inventory) : Prop :=
  ∀ c ∈ s.claims, ∀ d ∈ s.claims, c ≠ d → s.live c = true → s.live d = true →
    c.requirement.listener.overlaps d.requirement.listener = true → s.Stand c d

/-- Generations that are released, or no longer about to change the host, keep claims apart. -/
lemma Apart.mono (apart : s.Apart) (claims : s'.claims = s.claims)
    (live : ∀ c ∈ s.claims, s'.live c = true → s.live c = true)
    (busy : ∀ c ∈ s.claims, s'.live c = true → s'.busy c.ref = true → s.busy c.ref = true) :
    s'.Apart := by
  intro c hc d hd differ liveC liveD overlaps
  rw [claims] at hc hd
  rcases apart c hc d hd differ (live c hc liveC) (live d hd liveD) overlaps with
    shared | ⟨ec, ed, address, stack, plan, single⟩
  · exact .inl shared
  · refine .inr ⟨ec, ed, address, stack, plan, fun both => single ?_⟩
    exact ⟨busy c hc liveC both.1, busy d hd liveD both.2⟩

/-! ### Admission -/

/-- A reservation is shared by claims of the stack that no longer change the host. -/
lemma of_reusable {reservation : Listener} {stackID : String}
    (reusable : s.exclusiveReservationReusable reservation stackID = true) {c : Claim}
    (claimed : c ∈ s.claims) (same : c.reservation = reservation) (alive : s.live c = true) :
    c.ref.stackID = stackID ∧ (s.stateOf c.ref = .active ∨ s.stateOf c.ref = .uncertain) := by
  simp only [exclusiveReservationReusable, and_eq_true, List.all_eq_true, List.mem_filter,
    beq_iff_eq, or_eq_true] at reusable
  exact reusable.2 c ⟨claimed, same, alive⟩

/-- An admitted requirement stands beside every claim it overlaps. -/
lemma Admits.stand {requirement : Requirement} (admits : s.Admits ref requirement s')
    (sound : s.Sound) (pending : s.stateOf ref = .pending) {d : Claim} (claimed : d ∈ s.claims)
    (alive : s.live d = true)
    (overlaps : d.requirement.listener.overlaps requirement.listener = true) :
    s'.Stand d ⟨ref, requirement, requirement.listener⟩ := by
  have own := sound.own d claimed
  have compatible := admits.compatible _ (sound.backed d claimed alive) rfl
    (by simpa only [own] using overlaps)
  simp only [Inventory.compatible, own, and_eq_true, beq_iff_eq] at compatible
  obtain ⟨⟨address, sharing⟩, shared⟩ := compatible
  cases kind : requirement.listener.sharing with
  | virtualHost =>
    have group : d.requirement.listener.listenerGroupRef =
        requirement.listener.listenerGroupRef := by simpa [kind] using shared
    exact .inl ⟨sharing.trans kind, kind, address, group⟩
  | exclusive =>
    have reusable : s.exclusiveReservationReusable d.requirement.listener ref.stackID = true := by
      simpa [kind] using shared
    obtain ⟨stack, settled⟩ := of_reusable reusable claimed own alive
    have idle : ¬ s'.busy d.ref = true := by
      rw [busy_iff, admits.stateOf_eq]
      rcases settled with state | state <;> simp [state]
    refine .inr ⟨sharing.trans kind, kind, address, stack, fun plan => ?_, fun both => idle both.1⟩
    -- The generation that is admitted is pending, and the other one is not.
    have same : d.ref = ref := by
      cases h : d.ref
      cases h' : ref
      simp_all
    rw [same, pending] at settled
    simp at settled

lemma Apart.admits {requirement : Requirement} (apart : s.Apart) (sound : s.Sound)
    (pending : s.stateOf ref = .pending) (admits : s.Admits ref requirement s') : s'.Apart := by
  intro c hc d hd differ liveC liveD overlaps
  rw [admits.live_eq] at liveC liveD
  rcases (admits.claims c).mp hc with rfl | oldC
  · rcases (admits.claims d).mp hd with rfl | oldD
    · exact absurd rfl differ
    · exact (admits.stand sound pending oldD liveD (by rwa [Listener.overlaps_comm])).symm
  · rcases (admits.claims d).mp hd with rfl | oldD
    · exact admits.stand sound pending oldC liveC overlaps
    · rcases apart c oldC d oldD differ liveC liveD overlaps with
        shared | ⟨ec, ed, address, stack, plan, single⟩
      · exact .inl shared
      · refine .inr ⟨ec, ed, address, stack, plan, ?_⟩
        simpa only [busy, admits.stateOf_eq] using single

/-- A generation without claims is written. -/
lemma Apart.open_ (apart : s.Apart) (sound : s.Sound) (unknown : s.generation ref = none)
    (requirements : List Requirement) :
    (s.setGeneration ⟨ref, requirements, .pending⟩).Apart := by
  have same : ∀ c ∈ s.claims,
      (s.setGeneration ⟨ref, requirements, .pending⟩).stateOf c.ref = s.stateOf c.ref :=
    fun c claimed => stateOf_setGeneration_of_ne (sound.ref_ne unknown claimed)
  refine apart.mono rfl ?_ ?_
  · intro c claimed alive
    simpa only [live, same c claimed] using alive
  · intro c claimed _ busy
    simpa only [Inventory.busy, same c claimed] using busy

/-! ### The other operations -/

/-- An uncertain generation is started again only while no other generation with an exclusive
claim on one of its ports is about to change the host. -/
def Single (s : Inventory) (operation : Operation) : Prop :=
  ∀ raw ref, operation = .markMutationStarted raw → Texts.normalizeRef raw = .ok ref →
    s.stateOf ref = .uncertain → ∀ c ∈ s.claims, ∀ d ∈ s.claims, c.ref = ref → d.ref ≠ ref →
    s.live d = true → d.requirement.listener.sharing = .exclusive →
    c.requirement.listener.overlaps d.requirement.listener = true → s.busy d.ref = false

variable {g : ClaimGeneration}

lemma busy_setGeneration_of_ne (other : ref ≠ g.ref) :
    (s.setGeneration { g with state := next }).busy ref = s.busy ref := by
  simp only [busy, stateOf_setGeneration_of_ne (g := { g with state := next }) other]

lemma busy_setGeneration_self : (s.setGeneration { g with state := next }).busy g.ref =
      (next == .pending || next == .mutating) := by
  have state : (s.setGeneration { g with state := next }).stateOf g.ref = next :=
    stateOf_setGeneration_self s { g with state := next }
  simp only [busy, state]

/-- A generation that is put into a state in which it does not change the host. -/
lemma busy_of_settled (settled : (next == .pending || next == .mutating) = false)
    (busy : (s.setGeneration { g with state := next }).busy ref = true) : s.busy ref = true := by
  by_cases same : ref = g.ref
  · rw [same, busy_setGeneration_self, settled] at busy
    cases busy
  · rwa [busy_setGeneration_of_ne same] at busy

lemma busy_of_activated (busy : (s.activated g).busy ref = true) : s.busy ref = true := by
  rw [busy_iff] at busy ⊢
  by_cases same : ref = g.ref
  · rw [same, stateOf_activated_self] at busy
    simp at busy
  · rw [stateOf_activated_of_ne same] at busy
    split at busy
    · simp at busy
    · exact busy

/-- A generation that was already about to change the host is started. -/
lemma Apart.starts (apart : s.Apart) (found : s.generation g.ref = some g)
    (before : g.state = .pending ∨ g.state = .mutating) :
    (s.setGeneration { g with state := .mutating }).Apart := by
  have alive : g.state ≠ .released := by rcases before with h | h <;> simp [h]
  refine apart.mono rfl (fun c _ live => ?_) fun c _ _ busy => ?_
  · rwa [live_setGeneration found alive (by decide)] at live
  · by_cases same : c.ref = g.ref
    · rw [same, busy_iff, stateOf_of_generation found]
      exact before
    · rwa [busy_setGeneration_of_ne same] at busy

/-- An uncertain generation is started again. -/
lemma Apart.restarts (apart : s.Apart) (found : s.generation g.ref = some g)
    (uncertain : g.state = .uncertain)
    (single : ∀ c ∈ s.claims, ∀ d ∈ s.claims, c.ref = g.ref → d.ref ≠ g.ref →
      s.live d = true → d.requirement.listener.sharing = .exclusive →
      c.requirement.listener.overlaps d.requirement.listener = true → s.busy d.ref = false) :
    (s.setGeneration { g with state := .mutating }).Apart := by
  intro c hc d hd differ liveC liveD overlaps
  rw [live_setGeneration found (by simp [uncertain]) (by decide)] at liveC liveD
  rcases apart c hc d hd differ liveC liveD overlaps with
    shared | ⟨ec, ed, address, stack, plan, old⟩
  · exact .inl shared
  · refine .inr ⟨ec, ed, address, stack, plan, fun ⟨busyC, busyD⟩ => ?_⟩
    have other : c.ref ≠ d.ref := fun same => plan (congrArg _ same)
    by_cases startsC : c.ref = g.ref
    · have otherD : d.ref ≠ g.ref := fun same => other (startsC.trans same.symm)
      rw [busy_setGeneration_of_ne otherD] at busyD
      simp [single c hc d hd startsC otherD liveD ed overlaps] at busyD
    · rw [busy_setGeneration_of_ne startsC] at busyC
      by_cases startsD : d.ref = g.ref
      · have overlaps' := overlaps
        rw [Listener.overlaps_comm] at overlaps'
        simp [single d hd c hc startsD startsC liveC ec overlaps'] at busyC
      · rw [busy_setGeneration_of_ne startsD] at busyD
        exact old ⟨busyC, busyD⟩

lemma Apart.changes (apart : s.Apart) (sound : s.Sound) {operation : Operation}
    (single : s.Single operation) (changes : Changes t s operation s') : s'.Apart := by
  cases changes with
  | keeps => exact apart
  | admits request ref requirements _ claims normalized unknown admitted =>
    exact (sound.admits unknown normalized
      (fun _ _ _ apart sound pending admits => apart.admits sound pending admits)
      (apart.open_ sound unknown requirements) admitted).1
  | starts raw g named state =>
    rcases state with pending | mutating | uncertain
    · exact apart.starts named.2 (.inl pending)
    · exact apart.starts named.2 (.inr mutating)
    · exact apart.restarts named.2 uncertain (single raw g.ref rfl named.1
        ((stateOf_of_generation named.2).trans uncertain))
  | doubts raw g named state =>
    have before : g.state ≠ .released := by rcases state with h | h <;> simp [h]
    refine apart.mono rfl (fun c _ live => ?_) fun c _ _ busy => busy_of_settled rfl busy
    rwa [live_setGeneration named.2 before (by decide)] at live
  | aborts raw g | tearsDown raw g =>
    exact apart.mono rfl (fun c _ live => live_of_released c live)
      fun c _ _ busy => busy_of_settled rfl busy
  | activates raw g named state =>
    exact apart.mono rfl (fun c _ live => live_of_activated named.2 state c live)
      fun c _ _ busy => busy_of_activated busy

lemma apart_of_reaches (reached : (machine t).Reaches Single s) : s.Apart := by
  have both : s.Apart ∧ s.Sound := by
    refine reached.invariant (fun s => s.Apart ∧ s.Sound) ?_ ?_
    · rintro _ rfl
      exact ⟨fun c mem => (List.not_mem_nil mem).elim, sound_empty⟩
    · intro s operation s' ⟨apart, sound⟩ single stepped
      have changes := changes_of_apply stepped
      exact ⟨apart.changes sound single changes, sound.changes changes⟩
  exact both.1

/-- **Host ports are exclusive**, as long as no uncertain generation is started again beside one
that is about to change the host. -/
theorem host_ports_exclusive (reached : (machine t).Reaches Single s) :
    (∀ c ∈ s.claims, ∀ d ∈ s.claims, c ≠ d → s.live c = true → s.live d = true →
      c.requirement.listener.overlaps d.requirement.listener = true → s.Stand c d) ∧
    (∀ c ∈ s.claims, s.live c = true → ∃ v ∈ s.reservations, v.state = .reserved ∧
      v.listener = c.reservation ∧ v.listener = c.requirement.listener) ∧
    (∀ v ∈ s.reservations, v.state = .reserved → ∃ c ∈ s.claims, s.live c = true ∧
      c.reservation = v.listener ∧ c.requirement.listener = v.listener) := by
  have sound := sound_of_reaches reached
  refine ⟨apart_of_reaches reached, fun c claimed alive => ?_, fun v member reserved => ?_⟩
  · exact ⟨_, sound.backed c claimed alive, rfl, rfl, sound.own c claimed⟩
  · obtain ⟨c, claimed, alive, same⟩ := sound.used v member reserved
    exact ⟨c, claimed, alive, same, (sound.own c claimed).symm.trans same⟩

/-! ### Runs -/

/-- Addresses and texts that are normalized already. -/
def plain : Texts := ⟨id, some⟩

def web : RawRequirement :=
  ⟨"web", "", "tcp", "*", 443, "exclusive", "", "public", []⟩

def planRef (plan : String) : GenerationRef := ⟨"stack", plan⟩

def askFor (plan : String) : Operation := .admitRequest ⟨planRef plan, [web]⟩

lemma enacted :
    (machine plain).Enacts (fun s operation => (s.apply plain operation).toOption) empty where
  initial := rfl
  steps s operation s' stepped := by
    change s.apply plain operation = .ok s'
    cases result : s.apply plain operation with
    | error e => simp [result, Except.toOption] at stepped
    | ok next => simpa [result, Except.toOption] using stepped

/-- Operations reach a state in which the next one passes a test. -/
lemma exists_of_step (operations : List Operation) (operation : Operation)
    (test : Inventory → Inventory → Prop) [∀ s, DecidablePred (test s)]
    (passes : (Machine.follow (fun s operation => (s.apply plain operation).toOption)
      (fun _ _ => true) empty operations).any
        (fun s => decide (∃ s' ∈ (s.apply plain operation).toOption, test s s')) = true) :
    ∃ s s', (machine plain).Reaches (fun _ _ => True) s ∧ (machine plain).step s operation s' ∧
      test s s' := by
  obtain ⟨s, reached, s', result, passed⟩ := enacted.reaches_any operations _ passes
  exact ⟨s, s', reached, enacted.steps s operation s' result, passed⟩

/-- `Single` for runs in which nothing uncertain is started again. -/
def singleNow (s : Inventory) : Operation → Bool
  | .markMutationStarted raw =>
    match Texts.normalizeRef raw with
    | .ok ref => s.stateOf ref != .uncertain
    | .error _ => true
  | _ => true

lemma single_of_now (s : Inventory) (operation : Operation)
    (now : s.singleNow operation = true) : s.Single operation := by
  rintro raw ref rfl normalized uncertain
  simp [singleNow, normalized, uncertain] at now

/-- A second plan takes over the port of a plan that is active. -/
theorem host_ports_exclusive_replaced :
    ∃ s, (machine plain).Reaches Single s ∧ s.claims.length = 2 ∧ s.reservations.length = 1 ∧
      s.stateOf (planRef "p1") = .active ∧ s.stateOf (planRef "p2") = .mutating ∧
      (∀ c ∈ s.claims, ∀ d ∈ s.claims, c ≠ d → s.live c = true → s.live d = true →
        c.requirement.listener.overlaps d.requirement.listener = true → s.Stand c d) := by
  obtain ⟨s, reached, claims, reservations, first, second⟩ := enacted.reaches singleNow
    single_of_now
    [askFor "p1", .markMutationStarted (planRef "p1"), .activate (planRef "p1"), askFor "p2",
      .markMutationStarted (planRef "p2")]
    (fun s => s.claims.length = 2 ∧ s.reservations.length = 1 ∧
      s.stateOf (planRef "p1") = .active ∧ s.stateOf (planRef "p2") = .mutating)
    (by decide +kernel)
  exact ⟨s, reached, claims, reservations, first, second, (host_ports_exclusive reached).1⟩

/-- A plan that became uncertain is started again while the plan that was admitted after it is
pending on the same port. -/
theorem restarted_beside_pending :
    ∃ s, (machine plain).Reaches (fun _ _ => True) s ∧ ∃ c ∈ s.claims, ∃ d ∈ s.claims,
      c ≠ d ∧ s.live c = true ∧ s.live d = true ∧
      c.requirement.listener.overlaps d.requirement.listener = true ∧ ¬ s.Stand c d := by
  obtain ⟨s, reached, c, hc, d, hd, differ, liveC, liveD, overlaps, exclusive, busyC, busyD⟩ :=
    enacted.reaches_any
    [askFor "p1", .markMutationStarted (planRef "p1"), .markUncertain (planRef "p1"),
      askFor "p2", .markMutationStarted (planRef "p1")]
    (fun s => ∃ c ∈ s.claims, ∃ d ∈ s.claims, c ≠ d ∧ s.live c = true ∧
      s.live d = true ∧ c.requirement.listener.overlaps d.requirement.listener = true ∧
      c.requirement.listener.sharing = .exclusive ∧ s.busy c.ref = true ∧ s.busy d.ref = true)
    (by decide +kernel)
  refine ⟨s, reached, c, hc, d, hd, differ, liveC, liveD, overlaps, ?_⟩
  rintro (⟨shared, -⟩ | ⟨-, -, -, -, -, single⟩)
  · simp [exclusive] at shared
  · exact single ⟨busyC, busyD⟩

end Inventory

end TechStack.Ports
