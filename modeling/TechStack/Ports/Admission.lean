import TechStack.Ports.Exclusive

/-!
# What port admission refuses

A request whose requirements do not overlap each other meets no real conflict when every claim
of an unreleased generation that it overlaps can be shared with it.  Such a request is admitted
exactly when it is `Admissible`: its plan has no generation yet and the exclusive claims it
takes over are on its own addresses, or its plan has an unreleased generation with the same
requirements.

So a plan that was aborted, superseded or torn down is refused on the same server generation
for good, although nothing is in its way (`aborted_plan_refused`).
-/

namespace TechStack.Ports

open List Lib

variable {r : Requirement}

namespace Inventory

variable {t : Texts} {s s' : Inventory} {ref : GenerationRef} {requirement : Requirement}

/-- A claim that a requirement of the stack can share its listener with. -/
def Shareable (s : Inventory) (stackID : String) (requirement : Requirement) (c : Claim) : Prop :=
  requirement.listener.sharing = .virtualHost ∧ c.requirement.listener.sharing = .virtualHost ∧
    c.requirement.listener.bindAddress = requirement.listener.bindAddress ∧
    c.requirement.listener.listenerGroupRef = requirement.listener.listenerGroupRef ∨
  requirement.listener.sharing = .exclusive ∧ c.requirement.listener.sharing = .exclusive ∧
    c.ref.stackID = stackID ∧ (s.stateOf c.ref = .active ∨ s.stateOf c.ref = .uncertain)

/-- The claims of unreleased generations that a requirement overlaps have a property. -/
def Meets (s : Inventory) (requirement : Requirement) (P : Claim → Prop) : Prop :=
  ∀ c ∈ s.claims, s.live c = true →
    c.requirement.listener.overlaps requirement.listener = true → P c

/-- The claim is on the address of the requirement. -/
def SameAddress (requirement : Requirement) (c : Claim) : Prop :=
  c.requirement.listener.bindAddress = requirement.listener.bindAddress

/-- The plan is new and takes over claims on its own addresses, or it is admitted already. -/
def Admissible (s : Inventory) (ref : GenerationRef) (requirements : List Requirement) : Prop :=
  match s.generation ref with
  | some g => g.state ≠ .released ∧ g.claimSet = requirements
  | none => ∀ r ∈ requirements, s.Meets r (SameAddress r)

/-! ### Admission of a new plan -/

lemma findCompatible_succeeds {stackID : String} {listener : Listener} {l : List Reservation}
    (all : ∀ v ∈ l, v.state = .reserved → v.listener.overlaps listener = true →
      s.compatible stackID listener v = true) (found : Option Reservation) :
    ∃ result, s.findCompatible stackID listener l found = .ok result := by
  induction l generalizing found with
  | nil => exact ⟨found, rfl⟩
  | cons v rest ih =>
    have later := ih fun w mem => all w (.tail _ mem)
    simp only [findCompatible]
    split
    · exact later found
    · rename_i reserved
      split
      · exact later found
      · rename_i overlaps
        rw [if_pos (all v (.head _) (Decidable.not_not.mp reserved) (by simpa using overlaps))]
        exact later (some v)

/-- A reservation whose claims can all be shared can be shared. -/
lemma compatible_of_shareable (sound : s.Sound)
    (shareable : s.Meets requirement (s.Shareable ref.stackID requirement))
    (address : s.Meets requirement (SameAddress requirement)) {v : Reservation}
    (mem : v ∈ s.reservations) (reserved : v.state = .reserved)
    (overlaps : v.listener.overlaps requirement.listener = true) :
    s.compatible ref.stackID requirement.listener v = true := by
  have claims : ∀ c ∈ s.claims, c.reservation = v.listener → c.requirement.listener = v.listener :=
    fun c claimed same => (sound.own c claimed).symm.trans same
  obtain ⟨c, claimed, alive, same⟩ := sound.used v mem reserved
  have listener := claims c claimed same
  have meets : c.requirement.listener.overlaps requirement.listener = true := by rwa [listener]
  have addressed : c.requirement.listener.bindAddress = requirement.listener.bindAddress :=
    address c claimed alive meets
  rw [listener] at addressed
  rcases shareable c claimed alive meets with ⟨kind, kind', -, group⟩ | ⟨kind, kind', -, -⟩
  · rw [listener] at kind' group
    simp [compatible, addressed, kind, kind', group]
  · rw [listener] at kind'
    have reusable : s.exclusiveReservationReusable v.listener ref.stackID = true := by
      simp only [exclusiveReservationReusable, Bool.and_eq_true, Bool.not_eq_true',
        isEmpty_eq_false_iff, all_eq_true, mem_filter, beq_iff_eq, Bool.or_eq_true]
      refine ⟨ne_nil_of_mem (a := c) (by simp [claimed, same, alive]), ?_⟩
      rintro d ⟨claimedD, sameD, aliveD⟩
      have listenerD := claims d claimedD sameD
      rcases shareable d claimedD aliveD (by rwa [listenerD]) with
        ⟨virtual, -⟩ | ⟨-, -, stack, state⟩
      · simp [kind] at virtual
      · exact ⟨stack, state⟩
    simp [compatible, addressed, kind, kind', reusable]

lemma admitRequirement_succeeds (sound : s.Sound)
    (shareable : s.Meets requirement (s.Shareable ref.stackID requirement))
    (address : s.Meets requirement (SameAddress requirement)) :
    ∃ middle claim, s.admitRequirement ref requirement = .ok (middle, claim) := by
  obtain ⟨result, found⟩ := findCompatible_succeeds (fun v mem reserved overlaps =>
      compatible_of_shareable sound shareable address mem reserved overlaps) none
  unfold admitRequirement
  rw [found]
  cases result with
  | none => exact ⟨_, _, rfl⟩
  | some v => exact ⟨_, _, rfl⟩

/-- What a requirement meets after another one, which it does not overlap, was admitted. -/
lemma Admits.meets {P P' : Claim → Prop} (admits : s.Admits ref requirement s')
    (apart : requirement.listener.overlaps r.listener = false) (meets : s.Meets r P)
    (same : ∀ c, P c → P' c) : s'.Meets r P' := by
  intro c claimed alive overlaps
  rcases (admits.claims c).mp claimed with rfl | old
  · simp [apart] at overlaps
  · exact same c (meets c old (admits.live_eq c ▸ alive) overlaps)

lemma Admits.shareable {stackID : String} (admits : s.Admits ref requirement s') (c : Claim)
    (shareable : s.Shareable stackID r c) : s'.Shareable stackID r c := by
  simpa only [Shareable, admits.stateOf_eq] using shareable

lemma admitAll_succeeds {requirements : List Requirement} (ready : s.Ready ref requirements)
    (apart : requirements.Pairwise fun a b => a.listener.overlaps b.listener = false)
    (shareable : ∀ r ∈ requirements, s.Meets r (s.Shareable ref.stackID r))
    (address : ∀ r ∈ requirements, s.Meets r (SameAddress r)) :
    ∃ s' claims, admitAll ref s requirements = .ok (s', claims) := by
  induction requirements generalizing s with
  | nil => exact ⟨s, [], rfl⟩
  | cons r rest ih =>
    obtain ⟨apartHere, apart⟩ := pairwise_cons.mp apart
    obtain ⟨middle, claim, first⟩ := admitRequirement_succeeds ready.sound
      (shareable r (.head _)) (address r (.head _))
    obtain ⟨admits, further⟩ := ready.admits first
    obtain ⟨s', claims, later⟩ := ih further apart
      (fun r' mem => admits.meets (apartHere r' mem) (shareable r' (.tail _ mem))
        fun c => admits.shareable c)
      (fun r' mem => admits.meets (apartHere r' mem) (address r' (.tail _ mem))
        fun _ same => same)
    exact ⟨s', claim :: claims, by simp [admitAll, first, later]⟩

/-- A plan that is admitted takes over claims on its own addresses. -/
lemma sameAddress_of_admitAll {requirements : List Requirement} {claims : List Claim}
    (ready : s.Ready ref requirements)
    (succeeds : admitAll ref s requirements = .ok (s', claims)) :
    ∀ r ∈ requirements, s.Meets r (SameAddress r) := by
  induction requirements generalizing s claims with
  | nil => exact fun r mem => (not_mem_nil mem).elim
  | cons requirement rest ih =>
    obtain ⟨middle, claim, later, first, goesOn⟩ := of_admitAll_cons succeeds
    obtain ⟨admits, further⟩ := ready.admits first
    rintro r (_ | ⟨_, mem⟩) c claimed alive overlaps
    · rcases admits.stand ready.sound ready.pending claimed alive overlaps with
        ⟨-, -, address, -⟩ | ⟨-, -, address, -⟩ <;> exact address
    · exact ih further goesOn r mem c ((admits.claims c).mpr (.inr claimed))
        ((admits.live_eq c).trans alive) overlaps

/-! ### Admission -/

/-- Writing the generation of a new plan changes nothing that is met. -/
lemma Sound.meets_open (sound : s.Sound) (unknown : s.generation ref = none)
    (requirements : List Requirement) {P : Claim → Prop} :
    (s.setGeneration ⟨ref, requirements, .pending⟩).Meets r P ↔ s.Meets r P := by
  have live : ∀ c ∈ s.claims,
      (s.setGeneration ⟨ref, requirements, .pending⟩).live c = s.live c := by
    intro c claimed
    simp only [Inventory.live]
    rw [stateOf_setGeneration_of_ne (sound.ref_ne unknown claimed)]
  constructor
  · exact fun meets c claimed alive => meets c claimed ((live c claimed).trans alive)
  · exact fun meets c claimed alive => meets c claimed ((live c claimed).symm.trans alive)

/-- **Admission refuses a request without a real conflict exactly when it is not
admissible.** -/
theorem admitted_iff_admissible (reached : (machine t).Reaches (fun _ _ => True) s)
    {request : AdmissionRequest} {requirements : List Requirement}
    (normalized : t.normalizeAdmission request = .ok (ref, requirements))
    (apart : requirements.Pairwise fun a b => a.listener.overlaps b.listener = false)
    (shareable : ∀ r ∈ requirements, s.Meets r (s.Shareable ref.stackID r)) :
    (∃ s' claims, s.admitRequest t request = .ok (s', claims)) ↔ s.Admissible ref requirements := by
  have sound := sound_of_reaches reached
  simp only [admitRequest, normalized, admitState, Admissible]
  rcases Option.eq_none_or_eq_some (s.generation ref) with unknown | ⟨g, found⟩
  · simp only [unknown]
    have ready := sound.ready unknown normalized
    constructor
    · rintro ⟨s', claims, succeeds⟩ r member
      exact (sound.meets_open unknown requirements).mp
        (sameAddress_of_admitAll ready succeeds r member)
    · intro address
      refine admitAll_succeeds ready apart (fun r member => ?_) fun r member =>
        (sound.meets_open unknown requirements).mpr (address r member)
      refine (sound.meets_open unknown requirements).mpr fun c claimed alive overlaps => ?_
      have state := stateOf_setGeneration_of_ne (s := s) (g := ⟨ref, requirements, .pending⟩)
        (sound.ref_ne unknown claimed)
      simpa only [Shareable, state] using shareable r member c claimed alive overlaps
  · simp only [found]
    by_cases released : g.state = .released
    · simp [released]
    · by_cases same : g.claimSet = requirements
      · simp [released, same]
      · simp [released, same]

/-! ### Runs -/

/-- The requirement of `web` as it is normalized. -/
def webRequirement : Requirement :=
  ⟨"web", "", ⟨.tcp, "*", 443, .exclusive, ""⟩, .publicly, []⟩

lemma normalize_web (plan : String)
    (solid : Texts.normalizeRef (planRef plan) = .ok (planRef plan)) :
    plain.normalizeAdmission ⟨planRef plan, [web]⟩ = .ok (planRef plan, [webRequirement]) := by
  have inputs : plain.normalizeAll [] [web] = .ok [webRequirement] := by decide +kernel
  simp only [Texts.normalizeAdmission, solid, inputs]
  rfl

/-- A second plan is admitted to the port of an active one. -/
theorem admitted_iff_admissible_replaced :
    ∃ s, (machine plain).Reaches (fun _ _ => True) s ∧ s.stateOf (planRef "p1") = .active ∧
      (∃ s' claims, s.admitRequest plain ⟨planRef "p2", [web]⟩ = .ok (s', claims)) := by
  obtain ⟨s, reached, active, unknown, claims⟩ := enacted.reaches_any
    [askFor "p1", .markMutationStarted (planRef "p1"), .activate (planRef "p1")]
    (fun s => s.stateOf (planRef "p1") = .active ∧ s.generation (planRef "p2") = none ∧
      ∀ c ∈ s.claims, c.ref = planRef "p1" ∧ c.requirement = webRequirement)
    (by decide +kernel)
  refine ⟨s, reached, active, (admitted_iff_admissible reached
    (normalize_web "p2" (by decide +kernel)) (pairwise_singleton _ _) ?_).mpr ?_⟩
  · intro r member c claimed _ _
    obtain rfl := mem_singleton.mp member
    obtain ⟨owner, requirement⟩ := claims c claimed
    refine .inr ⟨rfl, by rw [requirement]; rfl, by rw [owner]; rfl, ?_⟩
    rw [owner]
    exact .inl active
  · simp only [Admissible, unknown]
    intro r member c claimed _ _
    obtain rfl := mem_singleton.mp member
    simp only [SameAddress, (claims c claimed).2]

/-- A plan that was aborted before it changed anything is refused, although no generation claims
a port. -/
theorem aborted_plan_refused :
    ∃ s, (machine plain).Reaches (fun _ _ => True) s ∧ (∀ c ∈ s.claims, s.live c = false) ∧
      plain.normalizeAdmission ⟨planRef "p1", [web]⟩ = .ok (planRef "p1", [webRequirement]) ∧
      s.admitRequest plain ⟨planRef "p1", [web]⟩ = .error .invalidTransition := by
  obtain ⟨s, reached, idle, released⟩ := enacted.reaches_any
    [askFor "p1", .abortBeforeMutation (planRef "p1")]
    (fun s => (∀ c ∈ s.claims, s.live c = false) ∧
      (s.generation (planRef "p1")).map (·.state) = some .released)
    (by decide +kernel)
  have normalized := normalize_web "p1" (by decide +kernel)
  obtain ⟨g, found, state⟩ := Option.map_eq_some_iff.mp released
  exact ⟨s, reached, idle, normalized, by simp [admitRequest, normalized, admitState, found, state]⟩

end Inventory

end TechStack.Ports
