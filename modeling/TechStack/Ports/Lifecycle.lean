import TechStack.Ports.Exclusive

/-!
# Uncertain claims

A rollout that failed after it began to change the host leaves its generation uncertain: its
listeners may be up.  Such a generation is to be released only by its own teardown, or when
another plan of the stack has taken over.

`Activate` may be called again for a generation that is active, and it releases the other
generations of the stack each time.  A plan that was admitted since and became uncertain is
released then, although nothing took over (`replay_releases_uncertain`).  There is at most one
active generation of a stack (`OneActive`), so this is the only loss a repeated `Activate` can
bring.
-/

namespace TechStack.Ports

open Lib

namespace Inventory

variable {t : Texts} {s s' : Inventory} {ref : GenerationRef} {g : ClaimGeneration}

/-- The generation may have listeners on the host. -/
def listening (s : Inventory) (ref : GenerationRef) : Prop :=
  s.stateOf ref = .mutating ∨ s.stateOf ref = .active ∨ s.stateOf ref = .uncertain

/-- A stack has at most one active generation. -/
def OneActive (s : Inventory) : Prop :=
  ∀ a b, s.stateOf a = .active → s.stateOf b = .active → a.stackID = b.stackID → a = b

/-- Admission writes one generation, which is pending. -/
lemma Sound.stateOf_admits (sound : s.Sound) {request : AdmissionRequest}
    {requirements : List Requirement} {claims : List Claim}
    (normalized : t.normalizeAdmission request = .ok (ref, requirements))
    (unknown : s.generation ref = none)
    (succeeds : admitAll ref (s.setGeneration ⟨ref, requirements, .pending⟩) requirements =
      .ok (s', claims)) (other : GenerationRef) :
    s'.stateOf other = (s.setGeneration ⟨ref, requirements, .pending⟩).stateOf other :=
  (sound.admits (P := fun s' => s'.stateOf other =
      (s.setGeneration ⟨ref, requirements, .pending⟩).stateOf other)
    unknown normalized (fun _ _ _ same _ _ admits => (admits.stateOf_eq other).trans same) rfl
    succeeds).1

/-- A generation is put into a state other than active. -/
lemma OneActive.setGeneration (one : s.OneActive) (inactive : g.state ≠ .active) :
    (s.setGeneration g).OneActive := by
  have before : ∀ ref, (s.setGeneration g).stateOf ref = .active → s.stateOf ref = .active := by
    intro ref active
    by_cases same : ref = g.ref
    · rw [same, stateOf_setGeneration_self] at active
      exact absurd active inactive
    · rwa [stateOf_setGeneration_of_ne same] at active
  exact fun a b activeA activeB => one a b (before a activeA) (before b activeB)

/-- The activated generation is the only active one of its stack. -/
lemma eq_of_activated (active : (s.activated g).stateOf ref = .active)
    (stack : ref.stackID = g.ref.stackID) : ref = g.ref := by
  by_contra other
  rw [stateOf_activated_of_ne other] at active
  split at active
  · cases active
  · rename_i kept
    exact kept ⟨stack, .inl active⟩

lemma OneActive.activated (one : s.OneActive) (g : ClaimGeneration) :
    (s.activated g).OneActive := by
  intro a b activeA activeB stack
  by_cases here : a.stackID = g.ref.stackID
  · rw [eq_of_activated activeA here, eq_of_activated activeB (stack.symm.trans here)]
  · have otherA : a ≠ g.ref := fun same => here (congrArg _ same)
    have otherB : b ≠ g.ref := fun same => here (stack.trans (congrArg _ same))
    rw [stateOf_activated_of_ne otherA, if_neg fun both => here both.1] at activeA
    rw [stateOf_activated_of_ne otherB, if_neg fun both => here (stack.trans both.1)] at activeB
    exact one a b activeA activeB stack

lemma OneActive.changes (one : s.OneActive) (sound : s.Sound) {operation : Operation}
    (changes : Changes t s operation s') : s'.OneActive := by
  cases changes with
  | keeps => exact one
  | admits request ref requirements _ claims normalized unknown admitted =>
    have opened : (s.setGeneration ⟨ref, requirements, .pending⟩).OneActive :=
      one.setGeneration (by simp)
    intro a b activeA activeB
    rw [sound.stateOf_admits normalized unknown admitted] at activeA activeB
    exact opened a b activeA activeB
  | starts | doubts | aborts | tearsDown => exact one.setGeneration (by simp)
  | activates raw g => exact one.activated g

lemma oneActive_of_reaches {admits : Inventory → Operation → Prop}
    (reached : (machine t).Reaches admits s) : s.OneActive := by
  have both : s.OneActive ∧ s.Sound := by
    refine reached.invariant (fun s => s.OneActive ∧ s.Sound) ?_ ?_
    · rintro _ rfl
      refine ⟨fun a b active => ?_, sound_empty⟩
      cases active
    · intro s operation s' ⟨one, sound⟩ _ stepped
      have changes := changes_of_apply stepped
      exact ⟨one.changes sound changes, sound.changes changes⟩
  exact both.1

/-! ### What releases an uncertain generation -/

/-- The generation is torn down, or another one of its stack becomes active. -/
def Superseded (s : Inventory) (operation : Operation) (s' : Inventory) (ref : GenerationRef) :
    Prop :=
  (∃ raw, operation = .releaseAfterTeardown raw ∧ Texts.normalizeRef raw = .ok ref) ∨
  ∃ raw other, operation = .activate raw ∧ Texts.normalizeRef raw = .ok other ∧ other ≠ ref ∧
    other.stackID = ref.stackID ∧ s.stateOf other = .mutating ∧ s'.stateOf other = .active

/-- An active generation is activated again while another one of its stack is uncertain. -/
def Replays (s : Inventory) (operation : Operation) : Prop :=
  ∃ raw target ref, operation = .activate raw ∧ Texts.normalizeRef raw = .ok target ∧
    s.stateOf target = .active ∧ ref ≠ target ∧ ref.stackID = target.stackID ∧
    s.stateOf ref = .uncertain

/-- A generation that another one's change does not concern keeps its state. -/
lemma eq_ref_of_released {next : ClaimState} (uncertain : s.stateOf ref = .uncertain)
    (released : (s.setGeneration { g with state := next }).stateOf ref = .released) :
    ref = g.ref := by
  by_contra other
  rw [stateOf_setGeneration_of_ne (g := { g with state := next }) other, uncertain] at released
  cases released

lemma superseded_of_changes (sound : s.Sound) {operation : Operation}
    (changes : Changes t s operation s') (calm : ¬ s.Replays operation)
    (uncertain : s.stateOf ref = .uncertain) (released : s'.stateOf ref = .released) :
    s.Superseded operation s' ref := by
  cases changes with
  | keeps =>
    cases uncertain.symm.trans released
  | admits request opened requirements _ claims normalized unknown admitted =>
    rw [sound.stateOf_admits normalized unknown admitted] at released
    have other : ref ≠ opened := by
      rintro rfl
      simp [stateOf, unknown] at uncertain
    rw [stateOf_setGeneration_of_ne other, uncertain] at released
    cases released
  | starts raw g =>
    obtain rfl := eq_ref_of_released uncertain released
    have set := stateOf_setGeneration_self s { g with state := .mutating }
    cases set.symm.trans released
  | doubts raw g =>
    obtain rfl := eq_ref_of_released uncertain released
    have set := stateOf_setGeneration_self s { g with state := .uncertain }
    cases set.symm.trans released
  | aborts raw g named pending =>
    obtain rfl := eq_ref_of_released (g := g) uncertain released
    rw [stateOf_of_generation named.2, pending] at uncertain
    cases uncertain
  | tearsDown raw g named =>
    obtain rfl := eq_ref_of_released (g := g) uncertain released
    exact .inl ⟨raw, rfl, named.1⟩
  | activates raw g named state =>
    obtain ⟨normalized, found⟩ := named
    have released : (s.activated g).stateOf ref = .released := released
    have other : ref ≠ g.ref := by
      rintro rfl
      rw [stateOf_activated_self] at released
      cases released
    have stack : ref.stackID = g.ref.stackID := by
      by_contra elsewhere
      rw [stateOf_activated_of_ne other, if_neg fun both => elsewhere both.1, uncertain] at released
      cases released
    rcases state with mutating | active
    · exact .inr ⟨raw, g.ref, rfl, normalized, other.symm, stack.symm,
        (stateOf_of_generation found).trans mutating, stateOf_activated_self s g⟩
    · exact absurd ⟨raw, g.ref, ref, rfl, normalized, (stateOf_of_generation found).trans active,
        other, stack, uncertain⟩ calm

/-- A repeated `Activate` releases nothing that may be listening. -/
lemma listening_kept (one : s.OneActive) {raw target : GenerationRef}
    (normalized : Texts.normalizeRef raw = .ok target) (active : s.stateOf target = .active)
    (succeeds : s.apply t (.activate raw) = .ok s') (calm : ¬ s.Replays (.activate raw))
    (listens : s.listening ref) : s'.stateOf ref ≠ .released := by
  obtain ⟨g, named, -, rfl⟩ := of_activate succeeds
  obtain rfl := Except.ok.inj (normalized.symm.trans named.1)
  change (s.activated g).stateOf ref ≠ .released
  by_cases same : ref = g.ref
  · rw [same, stateOf_activated_self]
    decide
  · rw [stateOf_activated_of_ne same, if_neg]
    · rcases listens with h | h | h <;> simp [h]
    · rintro ⟨stack, activeRef | uncertain⟩
      · exact same (one ref g.ref activeRef active stack)
      · exact calm ⟨raw, g.ref, ref, rfl, normalized, active, same, stack, uncertain⟩

/-- **Uncertain claims are kept** in a step exactly when it does not activate an active
generation again beside an uncertain one of its stack. -/
theorem uncertain_kept_iff {operation : Operation}
    (reached : (machine t).Reaches (fun _ _ => True) s)
    (stepped : (machine t).step s operation s') :
    ((∀ ref, s.stateOf ref = .uncertain → s'.stateOf ref = .released →
        s.Superseded operation s' ref) ∧
      ∀ raw target, operation = .activate raw → Texts.normalizeRef raw = .ok target →
        s.stateOf target = .active → ∀ ref, s.listening ref → s'.stateOf ref ≠ .released) ↔
    ¬ s.Replays operation := by
  have succeeds : s.apply t operation = .ok s' := stepped
  constructor
  · rintro ⟨-, kept⟩ ⟨raw, target, ref, rfl, normalized, active, other, stack, uncertain⟩
    refine kept raw target rfl normalized active ref (.inr (.inr uncertain)) ?_
    obtain ⟨g, named, -, rfl⟩ := of_activate succeeds
    obtain rfl := Except.ok.inj (normalized.symm.trans named.1)
    change (s.activated g).stateOf ref = .released
    rw [stateOf_activated_of_ne other, if_pos ⟨stack, .inr uncertain⟩]
  · intro calm
    refine ⟨fun ref uncertain released => ?_, ?_⟩
    · exact superseded_of_changes (sound_of_reaches reached) (changes_of_apply succeeds) calm
        uncertain released
    · rintro raw target rfl normalized active ref listens
      exact listening_kept (oneActive_of_reaches reached) normalized active succeeds calm listens

/-- A plan that became uncertain is superseded by the next one. -/
theorem uncertain_kept_iff_superseded : ∃ s s', (machine plain).Reaches (fun _ _ => True) s ∧
      (machine plain).step s (.activate (planRef "p2")) s' ∧
      s.stateOf (planRef "p1") = .uncertain ∧ s'.stateOf (planRef "p1") = .released ∧
      s.Superseded (.activate (planRef "p2")) s' (planRef "p1") := by
  obtain ⟨s, s', reached, stepped, uncertain, mutating, released⟩ := exists_of_step
    [askFor "p1", .markMutationStarted (planRef "p1"), .markUncertain (planRef "p1"),
      askFor "p2", .markMutationStarted (planRef "p2")] (.activate (planRef "p2"))
    (fun s s' => s.stateOf (planRef "p1") = .uncertain ∧
      s.stateOf (planRef "p2") = .mutating ∧ s'.stateOf (planRef "p1") = .released)
    (by decide +kernel)
  have calm : ¬ s.Replays (.activate (planRef "p2")) := by
    rintro ⟨raw, target, ref, same, normalized, active, -⟩
    cases same
    have here : Texts.normalizeRef (planRef "p2") = .ok (planRef "p2") := by decide +kernel
    obtain rfl := Except.ok.inj (here.symm.trans normalized)
    cases mutating.symm.trans active
  exact ⟨s, s', reached, stepped, uncertain, released,
    ((uncertain_kept_iff reached stepped).mpr calm).1 _ uncertain released⟩

/-- An active plan is activated again, and the plan that was admitted after it and became
uncertain is released. -/
theorem replay_releases_uncertain : ∃ s s', (machine plain).Reaches (fun _ _ => True) s ∧
      (machine plain).step s (.activate (planRef "p1")) s' ∧
      s.stateOf (planRef "p1") = .active ∧ s.stateOf (planRef "p2") = .uncertain ∧
      s'.stateOf (planRef "p2") = .released :=
  exists_of_step
    [askFor "p1", .markMutationStarted (planRef "p1"), .activate (planRef "p1"), askFor "p2",
      .markMutationStarted (planRef "p2"), .markUncertain (planRef "p2")] (.activate (planRef "p1"))
    _ (by decide +kernel)

/-- **In every run** a stack has at most one active generation, and a listener is reserved exactly
while a generation that is not released claims it. -/
theorem reserved_iff_claimed (reached : (machine t).Reaches (fun _ _ => True) s) :
    s.OneActive ∧ ∀ v, (∃ r ∈ s.reservations, r.state = .reserved ∧ r.listener = v) ↔
      ∃ c ∈ s.claims, s.live c = true ∧ c.reservation = v := by
  have sound := sound_of_reaches reached
  refine ⟨oneActive_of_reaches reached, fun v => ⟨?_, ?_⟩⟩
  · rintro ⟨r, member, reserved, rfl⟩
    exact sound.used r member reserved
  · rintro ⟨c, claimed, alive, rfl⟩
    exact ⟨_, sound.backed c claimed alive, rfl, rfl⟩

theorem reserved_iff_claimed_active : ∃ s : Inventory, s.stateOf (planRef "p1") = .active ∧
    s.OneActive := by
  obtain ⟨s, reached, active⟩ := enacted.reaches_any
    [askFor "p1", .markMutationStarted (planRef "p1"), .activate (planRef "p1")]
    (fun s => s.stateOf (planRef "p1") = .active) (by decide +kernel)
  exact ⟨s, active, (reserved_iff_claimed reached).1⟩

end Inventory

end TechStack.Ports
