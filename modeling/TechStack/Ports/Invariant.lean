import TechStack.Ports.Model

/-!
# What the port authority keeps

`Changes` says what an operation that succeeds can do.  `Sound` holds in every run: a claim
of an unreleased generation has a reservation that is reserved for its own listener, and a
reservation that is reserved has such a claim.  So a check against the reservations is a check
against those claims, although reservations are shared, released and revived.
-/

namespace TechStack.Ports

open List Lib

/-! ### Requests that are accepted -/

variable {requirements : List Requirement}

namespace Texts

variable {t : Texts}

lemma groupFits_of_normalizeRequirement {input : RawRequirement} {requirement : Requirement}
    (accepted : t.normalizeRequirement input = .ok requirement) :
    groupFits requirement.listener.sharing requirement.listener.listenerGroupRef = true := by
  simp only [normalizeRequirement] at accepted
  split at accepted
  · cases accepted
  · split at accepted
    · split at accepted
      · rename_i fits
        cases accepted
        exact fits
      · cases accepted
    · cases accepted

/-- Accepted requirements have ids of their own and groups that fit. -/
lemma of_normalizeAll {seen : List String} {inputs : List RawRequirement}
    (accepted : t.normalizeAll seen inputs = .ok requirements) :
    (∀ r ∈ requirements, r.id ∉ seen) ∧ requirements.Pairwise (·.id ≠ ·.id) ∧
      ∀ r ∈ requirements, groupFits r.listener.sharing r.listener.listenerGroupRef = true := by
  induction inputs generalizing seen requirements with
  | nil =>
    cases accepted
    simp
  | cons input rest ih =>
    simp only [normalizeAll] at accepted
    split at accepted
    · cases accepted
    · rename_i requirement normalized
      split at accepted
      · cases accepted
      · rename_i unseen
        split at accepted
        · cases accepted
        · rename_i later normalizedRest
          cases accepted
          obtain ⟨apart, distinct, fits⟩ := ih normalizedRest
          refine ⟨?_, pairwise_cons.mpr ⟨?_, distinct⟩, ?_⟩
          · rintro r (_ | ⟨_, mem⟩)
            · exact unseen
            · exact fun old => apart r mem (mem_cons_of_mem _ old)
          · intro r mem same
            exact apart r mem (same ▸ mem_cons_self)
          · rintro r (_ | ⟨_, mem⟩)
            · exact groupFits_of_normalizeRequirement normalized
            · exact fits r mem

lemma of_normalizeAdmission {request : AdmissionRequest} {ref : GenerationRef}
    (accepted : t.normalizeAdmission request = .ok (ref, requirements)) :
    requirements.Pairwise (·.id ≠ ·.id) ∧
      ∀ r ∈ requirements, groupFits r.listener.sharing r.listener.listenerGroupRef = true := by
  simp only [normalizeAdmission] at accepted
  split at accepted
  · cases accepted
  · split at accepted
    · cases accepted
    · rename_i inputs normalized
      cases accepted
      obtain ⟨-, distinct, fits⟩ := of_normalizeAll normalized
      have perm := perm_insertionSort (fun a b : Requirement => a.id ≤ b.id) inputs
      refine ⟨(perm.pairwise_iff fun {a b} differ => differ.symm).mpr distinct, fun r mem => ?_⟩
      exact fits r (perm.mem_iff.mp mem)

end Texts

variable {claims : List Claim}

namespace Inventory

variable {t : Texts} {s s' : Inventory} {ref : GenerationRef} {g : ClaimGeneration}

/-! ### States of generations -/

lemma ref_of_generation (found : s.generation ref = some g) : g.ref = ref :=
  (Table.mem_of_lookup found).2

lemma stateOf_of_generation (found : s.generation ref = some g) : s.stateOf ref = g.state := by
  simp [stateOf, found]

lemma generation_setGeneration_self (s : Inventory) (g : ClaimGeneration) :
    (s.setGeneration g).generation g.ref = some g :=
  Table.lookup_put_self

lemma generation_setGeneration_of_ne (other : ref ≠ g.ref) :
    (s.setGeneration g).generation ref = s.generation ref :=
  Table.lookup_put_of_ne other

lemma stateOf_setGeneration_self (s : Inventory) (g : ClaimGeneration) :
    (s.setGeneration g).stateOf g.ref = g.state :=
  stateOf_of_generation (generation_setGeneration_self s g)

lemma stateOf_setGeneration_of_ne (other : ref ≠ g.ref) :
    (s.setGeneration g).stateOf ref = s.stateOf ref := by
  simp only [stateOf, generation_setGeneration_of_ne other]

lemma generation_setGeneration_ne_none (known : s.generation ref ≠ none) :
    (s.setGeneration g).generation ref ≠ none := by
  by_cases same : ref = g.ref
  · subst same
    simp [generation_setGeneration_self]
  · rwa [generation_setGeneration_of_ne same]

lemma supersede_ref (ref : GenerationRef) (g : ClaimGeneration) : (supersede ref g).ref = g.ref := by
  unfold supersede
  split <;> rfl

/-- A generation is activated, and the others of its stack are superseded. -/
def activated (s : Inventory) (g : ClaimGeneration) : Inventory :=
  { s.setGeneration { g with state := .active } with
    generations := (s.setGeneration { g with state := .active }).generations.map
      (supersede g.ref) }

lemma generation_activated (s : Inventory) (g : ClaimGeneration) (ref : GenerationRef) :
    (s.activated g).generation ref =
      ((s.setGeneration { g with state := .active }).generation ref).map (supersede g.ref) :=
  Table.lookup_map _ (supersede_ref g.ref)

lemma stateOf_activated_self (s : Inventory) (g : ClaimGeneration) :
    (s.activated g).stateOf g.ref = .active := by
  have found := generation_setGeneration_self s { g with state := .active }
  simp only [stateOf, generation_activated]
  rw [show g.ref = ({ g with state := .active } : ClaimGeneration).ref from rfl, found]
  simp [supersede]

/-- Another generation of the stack that is active or uncertain is released. -/
lemma stateOf_activated_of_ne (other : ref ≠ g.ref) : (s.activated g).stateOf ref =
      if ref.stackID = g.ref.stackID ∧ (s.stateOf ref = .active ∨ s.stateOf ref = .uncertain)
      then .released else s.stateOf ref := by
  have kept : (s.setGeneration { g with state := .active }).generation ref = s.generation ref :=
    generation_setGeneration_of_ne other
  rcases Option.eq_none_or_eq_some (s.generation ref) with unknown | ⟨h, found⟩
  · simp [stateOf, generation_activated, kept, unknown]
  · obtain rfl := ref_of_generation found
    have after : (s.activated g).stateOf h.ref = (supersede g.ref h).state := by
      simp [stateOf, generation_activated, kept, found]
    rw [after, stateOf_of_generation found]
    simp only [supersede, other, ne_eq, not_false_eq_true, true_and]
    split <;> rfl

/-! ### What an operation changes -/

/-- The input names a generation that is known. -/
def Named (s : Inventory) (raw : GenerationRef) (g : ClaimGeneration) : Prop :=
  Texts.normalizeRef raw = .ok g.ref ∧ s.generation g.ref = some g

/-- The changes that operations make when they succeed. -/
inductive Changes (t : Texts) (s : Inventory) : Operation → Inventory → Prop where
  /-- A generation is admitted or released once more. -/
  | keeps (operation : Operation) : Changes t s operation s
  | admits (request : AdmissionRequest) (ref : GenerationRef) (requirements : List Requirement)
      (s' : Inventory) (claims : List Claim) :
      t.normalizeAdmission request = .ok (ref, requirements) → s.generation ref = none →
      admitAll ref (s.setGeneration ⟨ref, requirements, .pending⟩) requirements =
        .ok (s', claims) →
      Changes t s (.admitRequest request) s'
  | starts (raw : GenerationRef) (g : ClaimGeneration) :
      s.Named raw g → g.state = .pending ∨ g.state = .mutating ∨ g.state = .uncertain →
      Changes t s (.markMutationStarted raw) (s.setGeneration { g with state := .mutating })
  | doubts (raw : GenerationRef) (g : ClaimGeneration) :
      s.Named raw g → g.state = .mutating ∨ g.state = .uncertain →
      Changes t s (.markUncertain raw) (s.setGeneration { g with state := .uncertain })
  | aborts (raw : GenerationRef) (g : ClaimGeneration) :
      s.Named raw g → g.state = .pending →
      Changes t s (.abortBeforeMutation raw)
        (s.setGeneration { g with state := .released }).gcReservations
  | tearsDown (raw : GenerationRef) (g : ClaimGeneration) :
      s.Named raw g → g.state ≠ .pending →
      Changes t s (.releaseAfterTeardown raw)
        (s.setGeneration { g with state := .released }).gcReservations
  | activates (raw : GenerationRef) (g : ClaimGeneration) :
      s.Named raw g → g.state = .mutating ∨ g.state = .active →
      Changes t s (.activate raw) (s.activated g).gcReservations

lemma of_withRef {raw : GenerationRef} {operation : GenerationRef → Except PortError Inventory}
    (succeeds : withRef raw operation = .ok s') :
    ∃ ref, Texts.normalizeRef raw = .ok ref ∧ operation ref = .ok s' := by
  unfold withRef at succeeds
  split at succeeds
  · cases succeeds
  · rename_i ref normalized
    exact ⟨ref, normalized, succeeds⟩

lemma of_transition {allowed : List ClaimState} {next : ClaimState}
    (succeeds : withRef raw (s.transition · allowed next) = .ok s') :
    ∃ g, s.Named raw g ∧ g.state ∈ allowed ∧ s' = s.setGeneration { g with state := next } := by
  obtain ⟨ref, normalized, succeeds⟩ := of_withRef succeeds
  unfold transition at succeeds
  split at succeeds
  · cases succeeds
  · rename_i g found
    split at succeeds
    · rename_i allowed
      cases succeeds
      obtain rfl := ref_of_generation found
      exact ⟨g, ⟨normalized, found⟩, allowed, rfl⟩
    · cases succeeds

lemma of_release {allowed : List ClaimState}
    (succeeds : withRef raw (s.release · allowed) = .ok s') :
    s' = s ∨ ∃ g, s.Named raw g ∧ g.state ∈ allowed ∧
      s' = (s.setGeneration { g with state := .released }).gcReservations := by
  obtain ⟨ref, normalized, succeeds⟩ := of_withRef succeeds
  unfold release at succeeds
  split at succeeds
  · cases succeeds
  · rename_i g found
    split at succeeds
    · cases succeeds
      exact .inl rfl
    · split at succeeds
      · rename_i allowed
        cases succeeds
        obtain rfl := ref_of_generation found
        exact .inr ⟨g, ⟨normalized, found⟩, allowed, rfl⟩
      · cases succeeds

lemma of_activate (succeeds : withRef raw s.activate = .ok s') :
    ∃ g, s.Named raw g ∧ (g.state = .mutating ∨ g.state = .active) ∧
      s' = (s.activated g).gcReservations := by
  obtain ⟨ref, normalized, succeeds⟩ := of_withRef succeeds
  unfold activate at succeeds
  split at succeeds
  · cases succeeds
  · rename_i g found
    split at succeeds
    · cases succeeds
    · rename_i allowed
      cases succeeds
      obtain rfl := ref_of_generation found
      refine ⟨g, ⟨normalized, found⟩, ?_, rfl⟩
      by_contra neither
      exact allowed ⟨fun m => neither (.inl m), fun a => neither (.inr a)⟩

lemma of_admitState (succeeds : s.admitState ref requirements = .ok (s', claims)) :
    s' = s ∨ s.generation ref = none ∧
      admitAll ref (s.setGeneration ⟨ref, requirements, .pending⟩) requirements =
        .ok (s', claims) := by
  unfold admitState at succeeds
  split at succeeds
  · split at succeeds
    · cases succeeds
    · split at succeeds
      · cases succeeds
      · cases succeeds
        exact .inl rfl
  · rename_i unknown
    exact .inr ⟨unknown, succeeds⟩

/-- Every operation that succeeds makes one of these changes. -/
lemma changes_of_apply {operation : Operation} (succeeds : s.apply t operation = .ok s') :
    Changes t s operation s' := by
  cases operation with
  | admitRequest request =>
    simp only [apply, admitRequest] at succeeds
    split at succeeds
    · cases succeeds
    · rename_i ref requirements normalized
      cases result : s.admitState ref requirements with
      | error e =>
        rw [result] at succeeds
        cases succeeds
      | ok admitted =>
        obtain ⟨next, claims⟩ := admitted
        rw [result] at succeeds
        cases succeeds
        rcases of_admitState result with rfl | ⟨unknown, admitted⟩
        · exact .keeps _
        · exact .admits request ref requirements _ claims normalized unknown admitted
  | markMutationStarted raw =>
    obtain ⟨g, named, allowed, rfl⟩ := of_transition succeeds
    exact .starts raw g named (by simpa using allowed)
  | activate raw =>
    obtain ⟨g, named, allowed, rfl⟩ := of_activate succeeds
    exact .activates raw g named allowed
  | markUncertain raw =>
    obtain ⟨g, named, allowed, rfl⟩ := of_transition succeeds
    exact .doubts raw g named (by simpa using allowed)
  | abortBeforeMutation raw =>
    rcases of_release succeeds with rfl | ⟨g, named, allowed, rfl⟩
    · exact .keeps _
    · exact .aborts raw g named (by simpa using allowed)
  | releaseAfterTeardown raw =>
    rcases of_release succeeds with rfl | ⟨g, named, allowed, rfl⟩
    · exact .keeps _
    · refine .tearsDown raw g named fun pending => ?_
      simp [pending] at allowed

/-! ### Claims and reservations -/

/-- Claims of unreleased generations and reserved reservations answer to each other. -/
structure Sound (s : Inventory) : Prop where
  known : ∀ c ∈ s.claims, s.generation c.ref ≠ none
  own : ∀ c ∈ s.claims, c.reservation = c.requirement.listener
  fits : ∀ c ∈ s.claims, Texts.groupFits c.requirement.listener.sharing
    c.requirement.listener.listenerGroupRef = true
  backed : ∀ c ∈ s.claims, s.live c = true → ⟨c.reservation, .reserved⟩ ∈ s.reservations
  used : ∀ v ∈ s.reservations, v.state = .reserved →
    ∃ c ∈ s.claims, s.live c = true ∧ c.reservation = v.listener

lemma live_iff {c : Claim} : s.live c = true ↔ s.stateOf c.ref ≠ .released := by
  simp [live]

namespace Sound

/-- Generations change, and none is released or comes back. -/
lemma relabel (sound : s.Sound) {generations : List ClaimGeneration}
    (known : ∀ ref, s.generation ref ≠ none → { s with generations }.generation ref ≠ none)
    (live : ∀ c ∈ s.claims, { s with generations }.live c = s.live c) :
    { s with generations }.Sound where
  known c mem := known c.ref (sound.known c mem)
  own := sound.own
  fits := sound.fits
  backed c mem alive := sound.backed c mem (live c mem ▸ alive)
  used v mem reserved := by
    obtain ⟨c, claimed, alive, same⟩ := sound.used v mem reserved
    exact ⟨c, claimed, (live c claimed).trans alive, same⟩

/-- Generations are released, and reservations with them. -/
lemma collect (sound : s.Sound) {generations : List ClaimGeneration}
    (known : ∀ ref, s.generation ref ≠ none → { s with generations }.generation ref ≠ none)
    (live : ∀ c ∈ s.claims, { s with generations }.live c = true → s.live c = true) :
    { s with generations }.gcReservations.Sound where
  known c mem := known c.ref (sound.known c mem)
  own := sound.own
  fits := sound.fits
  backed c mem alive := by
    have alive : { s with generations }.live c = true := alive
    have before := sound.backed c mem (live c mem alive)
    refine mem_map.mpr ⟨_, before, if_pos ?_⟩
    simp only [any_eq_true, Bool.and_eq_true, beq_iff_eq]
    exact ⟨c, mem, rfl, alive⟩
  used v mem reserved := by
    obtain ⟨w, -, rfl⟩ := mem_map.mp mem
    by_cases kept : { s with generations }.claims.any
        (fun c => c.reservation == w.listener && { s with generations }.live c) = true
    · simp only [kept, if_true] at reserved ⊢
      simp only [any_eq_true, Bool.and_eq_true, beq_iff_eq] at kept
      obtain ⟨c, claimed, same, alive⟩ := kept
      exact ⟨c, claimed, alive, same⟩
    · simp [kept] at reserved

/-- Two listeners that overlap and are compatible are the same. -/
lemma listener_eq (sound : s.Sound) {v : Reservation} {listener : Listener} {stackID : String}
    (mem : v ∈ s.reservations) (reserved : v.state = .reserved)
    (fits : Texts.groupFits listener.sharing listener.listenerGroupRef = true)
    (overlaps : v.listener.overlaps listener = true)
    (compatible : s.compatible stackID listener v = true) : v.listener = listener := by
  obtain ⟨c, claimed, -, same⟩ := sound.used v mem reserved
  have fits' := sound.fits c claimed
  rw [← sound.own c claimed, same] at fits'
  simp only [Listener.overlaps, Bool.and_eq_true, beq_iff_eq] at overlaps
  simp only [Inventory.compatible, Bool.and_eq_true, beq_iff_eq] at compatible
  obtain ⟨⟨transport, port⟩, -⟩ := overlaps
  obtain ⟨⟨address, sharing⟩, shared⟩ := compatible
  have group : v.listener.listenerGroupRef = listener.listenerGroupRef := by
    rw [sharing] at fits'
    cases kind : listener.sharing with
    | virtualHost => simpa [kind] using shared
    | exclusive =>
      simp only [kind, Texts.groupFits, beq_iff_eq] at fits fits'
      rw [fits, fits']
  cases h : v.listener
  cases h' : listener
  simp_all

end Sound

/-! ### Admission -/

/-- What the loop over the reservations finds. -/
lemma of_findCompatible {stackID : String} {listener : Listener} {l : List Reservation}
    {found result : Option Reservation}
    (succeeds : s.findCompatible stackID listener l found = .ok result) :
    (∀ v ∈ l, v.state = .reserved → v.listener.overlaps listener = true →
      s.compatible stackID listener v = true) ∧
    (result = found ∨ ∃ v ∈ l, result = some v ∧ v.state = .reserved ∧
      v.listener.overlaps listener = true) := by
  induction l generalizing found with
  | nil =>
    cases succeeds
    exact ⟨fun v mem => (not_mem_nil mem).elim, .inl rfl⟩
  | cons v rest ih =>
    simp only [findCompatible] at succeeds
    split at succeeds
    · rename_i free
      obtain ⟨all, result⟩ := ih succeeds
      refine ⟨?_, result.imp_right fun ⟨w, mem, more⟩ => ⟨w, .tail _ mem, more⟩⟩
      rintro w (_ | ⟨_, mem⟩) reserved
      · exact absurd reserved free
      · exact all w mem reserved
    · rename_i reserved
      split at succeeds
      · rename_i apart
        obtain ⟨all, result⟩ := ih succeeds
        refine ⟨?_, result.imp_right fun ⟨w, mem, more⟩ => ⟨w, .tail _ mem, more⟩⟩
        rintro w (_ | ⟨_, mem⟩) reserved overlaps
        · simp [apart] at overlaps
        · exact all w mem reserved overlaps
      · rename_i overlaps
        split at succeeds
        · rename_i compatible
          obtain ⟨all, result⟩ := ih succeeds
          refine ⟨?_, ?_⟩
          · rintro w (_ | ⟨_, mem⟩) reserved overlaps
            · exact compatible
            · exact all w mem reserved overlaps
          · rcases result with here | ⟨w, mem, more⟩
            · exact .inr ⟨v, .head _, here, Decidable.not_not.mp reserved, by simpa using overlaps⟩
            · exact .inr ⟨w, .tail _ mem, more⟩
        · cases succeeds

/-- What an admitted requirement leaves: a claim on a reservation for its own listener. -/
structure Admits (s : Inventory) (ref : GenerationRef) (requirement : Requirement)
    (s' : Inventory) : Prop where
  compatible : ∀ v ∈ s.reservations, v.state = .reserved →
    v.listener.overlaps requirement.listener = true →
    s.compatible ref.stackID requirement.listener v = true
  generations : s'.generations = s.generations
  claims : ∀ c, c ∈ s'.claims ↔ c = ⟨ref, requirement, requirement.listener⟩ ∨ c ∈ s.claims
  reserved : ⟨requirement.listener, .reserved⟩ ∈ s'.reservations
  kept : ∀ v ∈ s.reservations, v.listener ≠ requirement.listener → v ∈ s'.reservations
  old : ∀ v ∈ s'.reservations, v = ⟨requirement.listener, .reserved⟩ ∨ v ∈ s.reservations

lemma mem_addClaim {claim c : Claim} (fresh : ∀ c ∈ s.claims, c.key ≠ claim.key) :
    c ∈ (s.addClaim claim).claims ↔ c = claim ∨ c ∈ s.claims := by
  simp only [addClaim, Table.mem_put]
  exact or_congr_right ⟨fun h => h.1, fun mem => ⟨mem, fresh c mem⟩⟩

lemma Sound.of_admitRequirement (sound : s.Sound) {requirement : Requirement} {claim : Claim}
    (fits : Texts.groupFits requirement.listener.sharing
      requirement.listener.listenerGroupRef = true)
    (fresh : ∀ c ∈ s.claims, c.key ≠ (ref, requirement.id))
    (succeeds : s.admitRequirement ref requirement = .ok (s', claim)) :
    s.Admits ref requirement s' := by
  unfold admitRequirement at succeeds
  split at succeeds
  · cases succeeds
  · rename_i v found
    cases succeeds
    obtain ⟨all, none_ | ⟨w, mem, same, reserved, overlaps⟩⟩ := of_findCompatible found
    · cases none_
    · cases same
      have listener := sound.listener_eq mem reserved fits overlaps
        (all v mem reserved overlaps)
      have row : v = ⟨requirement.listener, .reserved⟩ := by
        cases v
        simp_all
      refine ⟨all, rfl, fun c => ?_, row ▸ mem, fun w held _ => held, fun w held => .inr held⟩
      rw [listener]
      exact mem_addClaim fresh
  · rename_i found
    cases succeeds
    refine ⟨(of_findCompatible found).1, rfl, fun c => ?_, Table.mem_put.mpr (.inl rfl),
      fun w held other => Table.mem_put.mpr (.inr ⟨held, other⟩),
      fun w held => (Table.mem_put.mp held).imp_right And.left⟩
    exact mem_addClaim (s := s.reserve requirement.listener) fresh

namespace Admits

variable {requirement : Requirement}

section

variable (admits : s.Admits ref requirement s')
include admits

lemma generation_eq (other : GenerationRef) :
    s'.generation other = s.generation other := by
  simp only [generation, admits.generations]

lemma stateOf_eq (other : GenerationRef) :
    s'.stateOf other = s.stateOf other := by
  simp only [stateOf, admits.generation_eq]

lemma live_eq (c : Claim) : s'.live c = s.live c := by
  simp only [live, admits.stateOf_eq]

lemma sound (sound : s.Sound) (fits : Texts.groupFits requirement.listener.sharing
      requirement.listener.listenerGroupRef = true) (pending : s.stateOf ref = .pending)
    : s'.Sound where
  known c mem := by
    rw [admits.generation_eq]
    rcases (admits.claims c).mp mem with rfl | old
    · intro unknown
      simp [stateOf, unknown] at pending
    · exact sound.known c old
  own c mem := by
    rcases (admits.claims c).mp mem with rfl | old
    · rfl
    · exact sound.own c old
  fits c mem := by
    rcases (admits.claims c).mp mem with rfl | old
    · exact fits
    · exact sound.fits c old
  backed c mem alive := by
    rcases (admits.claims c).mp mem with rfl | old
    · exact admits.reserved
    · have held := sound.backed c old (admits.live_eq c ▸ alive)
      by_cases same : c.reservation = requirement.listener
      · rw [same]
        exact admits.reserved
      · exact admits.kept _ held same
  used v mem reserved := by
    rcases admits.old v mem with rfl | old
    · refine ⟨⟨ref, requirement, requirement.listener⟩, (admits.claims _).mpr (.inl rfl), ?_, rfl⟩
      rw [live_iff, admits.stateOf_eq]
      simp [pending]
    · obtain ⟨c, claimed, alive, same⟩ := sound.used v old reserved
      exact ⟨c, (admits.claims c).mpr (.inr claimed), (admits.live_eq c).trans alive, same⟩

end

end Admits

/-- The loop over the requirements admits the first one and goes on. -/
lemma of_admitAll_cons {requirement : Requirement} {rest : List Requirement}
    (succeeds : admitAll ref s (requirement :: rest) = .ok (s', claims)) :
    ∃ middle claim later, s.admitRequirement ref requirement = .ok (middle, claim) ∧
      admitAll ref middle rest = .ok (s', later) := by
  simp only [admitAll] at succeeds
  split at succeeds
  · cases succeeds
  · rename_i middle claim first
    split at succeeds
    · cases succeeds
    · rename_i last later goesOn
      cases succeeds
      exact ⟨middle, claim, later, first, goesOn⟩

/-- The generation is pending, and these requirements of it are still to be admitted. -/
structure Ready (s : Inventory) (ref : GenerationRef) (requirements : List Requirement) : Prop where
  sound : s.Sound
  pending : s.stateOf ref = .pending
  distinct : requirements.Pairwise (·.id ≠ ·.id)
  fits : ∀ r ∈ requirements, Texts.groupFits r.listener.sharing r.listener.listenerGroupRef = true
  fresh : ∀ r ∈ requirements, ∀ c ∈ s.claims, c.key ≠ (ref, r.id)

/-- The first one is admitted. -/
lemma Ready.admits {requirement : Requirement} {rest : List Requirement} {claim : Claim}
    (ready : s.Ready ref (requirement :: rest))
    (first : s.admitRequirement ref requirement = .ok (s', claim)) :
    s.Admits ref requirement s' ∧ s'.Ready ref rest := by
  obtain ⟨apart, distinct⟩ := pairwise_cons.mp ready.distinct
  have fitting := ready.fits requirement (.head _)
  have admits := ready.sound.of_admitRequirement fitting (ready.fresh requirement (.head _)) first
  refine ⟨admits, admits.sound ready.sound fitting ready.pending,
    (admits.stateOf_eq ref).trans ready.pending, distinct, fun r mem => ready.fits r (.tail _ mem),
    fun r mem c claimed => ?_⟩
  -- A requirement with another id is not claimed by the one that is admitted.
  rcases (admits.claims c).mp claimed with rfl | old
  · exact fun same => apart r mem (congrArg Prod.snd same)
  · exact ready.fresh r (.tail _ mem) c old

/-- The loop over the requirements keeps what each admitted requirement keeps. -/
lemma admitAll_induction {P : Inventory → Prop}
    (kept : ∀ s s' requirement, P s → s.Sound → s.stateOf ref = .pending →
      s.Admits ref requirement s' → P s') (ready : s.Ready ref requirements) (start : P s)
    (succeeds : admitAll ref s requirements = .ok (s', claims)) : P s' ∧ s'.Sound := by
  induction requirements generalizing s claims with
  | nil =>
    cases succeeds
    exact ⟨start, ready.sound⟩
  | cons requirement rest ih =>
    obtain ⟨middle, claim, later, first, goesOn⟩ := of_admitAll_cons succeeds
    obtain ⟨admits, further⟩ := ready.admits first
    exact ih further (kept s middle requirement start ready.sound ready.pending admits) goesOn

section

variable (sound : s.Sound) (unknown : s.generation ref = none)
include sound unknown

/-- No claim belongs to a generation that is not there. -/
lemma Sound.ref_ne {c : Claim} (claimed : c ∈ s.claims) : c.ref ≠ ref := by
  rintro rfl
  exact sound.known c claimed unknown

/-- A generation without claims is written. -/
lemma Sound.open_ (requirements : List Requirement) :
    (s.setGeneration ⟨ref, requirements, .pending⟩).Sound := by
  refine sound.relabel (fun other known => generation_setGeneration_ne_none known) ?_
  intro c claimed
  have other := sound.ref_ne unknown claimed
  simp only [live]
  exact congrArg (· != ClaimState.released) (stateOf_setGeneration_of_ne other)

/-- The generation of a new plan is written, and nothing of it is admitted yet. -/
lemma Sound.ready {request : AdmissionRequest}
    (normalized : t.normalizeAdmission request = .ok (ref, requirements)) :
    (s.setGeneration ⟨ref, requirements, .pending⟩).Ready ref requirements := by
  obtain ⟨distinct, fits⟩ := Texts.of_normalizeAdmission normalized
  refine ⟨sound.open_ unknown requirements,
    stateOf_setGeneration_self s ⟨ref, requirements, .pending⟩, distinct, fits, ?_⟩
  intro r _ c claimed same
  exact sound.ref_ne unknown claimed (congrArg Prod.fst same)

/-- A new generation that is admitted, from what each admitted requirement keeps. -/
lemma Sound.admits {P : Inventory → Prop} {request : AdmissionRequest}
    (normalized : t.normalizeAdmission request = .ok (ref, requirements))
    (kept : ∀ s s' requirement, P s → s.Sound → s.stateOf ref = .pending →
      s.Admits ref requirement s' → P s')
    (start : P (s.setGeneration ⟨ref, requirements, .pending⟩))
    (succeeds : admitAll ref (s.setGeneration ⟨ref, requirements, .pending⟩) requirements =
      .ok (s', claims)) : P s' ∧ s'.Sound :=
  admitAll_induction kept (sound.ready unknown normalized) start succeeds

end

/-! ### Runs -/

lemma live_setGeneration {next : ClaimState} (found : s.generation g.ref = some g)
    (before : g.state ≠ .released) (after : next ≠ .released) (c : Claim) :
    (s.setGeneration { g with state := next }).live c = s.live c := by
  simp only [live]
  by_cases same : c.ref = g.ref
  · rw [same, stateOf_of_generation found]
    have set : (s.setGeneration { g with state := next }).stateOf g.ref = next :=
      stateOf_setGeneration_self s { g with state := next }
    rw [set]
    exact (bne_iff_ne.mpr after).trans (bne_iff_ne.mpr before).symm
  · rw [stateOf_setGeneration_of_ne (g := { g with state := next }) same]

lemma live_of_released (c : Claim)
    (alive : (s.setGeneration { g with state := .released }).live c = true) :
    s.live c = true := by
  rw [live_iff] at alive ⊢
  by_cases same : c.ref = g.ref
  · rw [same] at alive
    exact absurd (stateOf_setGeneration_self s { g with state := .released }) alive
  · rwa [stateOf_setGeneration_of_ne (g := { g with state := .released }) same] at alive

lemma live_of_activated (found : s.generation g.ref = some g)
    (before : g.state = .mutating ∨ g.state = .active) (c : Claim)
    (alive : (s.activated g).live c = true) : s.live c = true := by
  rw [live_iff] at alive ⊢
  by_cases same : c.ref = g.ref
  · rw [same, stateOf_of_generation found]
    rcases before with state | state <;> simp [state]
  · rw [stateOf_activated_of_ne same] at alive
    split at alive
    · exact absurd rfl alive
    · exact alive

lemma generation_activated_ne_none (known : s.generation ref ≠ none) :
    (s.activated g).generation ref ≠ none := by
  rw [generation_activated]
  simpa using generation_setGeneration_ne_none known

lemma Sound.changes (sound : s.Sound) {operation : Operation}
    (changes : Changes t s operation s') : s'.Sound := by
  cases changes with
  | keeps => exact sound
  | admits request ref requirements _ claims normalized unknown admitted =>
    exact (sound.admits (P := fun _ => True) unknown normalized
      (fun _ _ _ _ _ _ _ => trivial) trivial admitted).2
  | starts raw g named state =>
    have before : g.state ≠ .released := by rcases state with h | h | h <;> simp [h]
    exact sound.relabel (fun _ known => generation_setGeneration_ne_none known)
      fun c _ => live_setGeneration named.2 before (by decide) c
  | doubts raw g named state =>
    have before : g.state ≠ .released := by rcases state with h | h <;> simp [h]
    exact sound.relabel (fun _ known => generation_setGeneration_ne_none known)
      fun c _ => live_setGeneration named.2 before (by decide) c
  | aborts raw g | tearsDown raw g =>
    exact sound.collect (fun _ known => generation_setGeneration_ne_none known)
      fun c _ => live_of_released c
  | activates raw g named state =>
    exact sound.collect (fun _ known => generation_activated_ne_none known)
      fun c _ => live_of_activated named.2 state c

lemma sound_empty : empty.Sound where
  known c mem := by cases mem
  own c mem := by cases mem
  fits c mem := by cases mem
  backed c mem := by cases mem
  used v mem := by cases mem

/-- **Claims and reservations answer to each other in every run.** -/
lemma sound_of_reaches {admits : Inventory → Operation → Prop}
    (reached : (machine t).Reaches admits s) : s.Sound := by
  refine reached.invariant Sound ?_ ?_
  · rintro _ rfl
    exact sound_empty
  · intro s operation s' sound _ stepped
    exact sound.changes (changes_of_apply stepped)

end Inventory

end TechStack.Ports
