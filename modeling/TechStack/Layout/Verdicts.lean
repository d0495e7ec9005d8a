import TechStack.Layout.Valid

/-!
# What the answers may be read as

The contract of an answer beyond its options: conflicts belong to a proof of infeasibility
(`conflicts_iff_infeasible`), a budget decides only whether there is an answer
(`plan_budget`), and a reason names what a node lacks (`reasons_truthful`).  The first fails where a
node was left out for lack of evidence, the third where the explanation measures with another
yardstick than `fits`.
-/

namespace TechStack.Layout

open List Lib Backtrack

variable {platform : Platform} {ctx : ℕ → Option String} {snapshot : Snapshot}
  {problem : Problem} {result : Result}

/-! ### Conflicts -/

/-- There is evidence about every node that the owner controls. -/
def Snapshot.Evident (snapshot : Snapshot) : Prop :=
  ∀ node ∈ snapshot.nodes, node.trustClass = .ownerControlled → node.Usable

lemma classify_unknown {node : Node} : (∃ note, classify node = .error (note, true)) ↔
    node.trustClass = .ownerControlled ∧ ¬ node.Usable := by
  unfold classify Node.Usable
  split_ifs with foreign away unknown
  all_goals simp_all
  all_goals grind

lemma excludedUnknown_iff :
    (eligibleNodes snapshot).excludedUnknown = false ↔ snapshot.Evident := by
  have some_unknown : (eligibleNodes snapshot).excludedUnknown = true ↔
      ∃ node ∈ snapshot.nodes, ∃ note, classify node = .error (note, true) := by
    simp only [eligibleNodes, any_eq_true, mem_filterMap, mem_map]
    constructor
    · rintro ⟨⟨note, flag⟩, ⟨_, ⟨node, listed, rfl⟩, excluded⟩, unknown⟩
      refine ⟨node, listed, note, ?_⟩
      cases left : classify node <;> simp_all
    · rintro ⟨node, listed, note, left⟩
      exact ⟨(note, true), ⟨_, ⟨node, listed, left⟩, rfl⟩, rfl⟩
  rw [← Bool.not_eq_true, some_unknown]
  simp only [classify_unknown, Snapshot.Evident]
  push Not
  rfl

section Grounds

variable (platform snapshot problem)

/-- Nothing speaks against the selection on the usable nodes: each demand that the first pass gives
up on fits some node on its own, the RAM would do, and there is a placement, or more of them to try
than the budget allows. -/
structure Unrefuted : Prop where
  hosted : ∀ demand ∈ leftOver platform snapshot problem,
    ∃ state ∈ allowedNodes ((pinsOf problem.pins).at demand.workload) (eligibleNodes snapshot).states,
      (fits platform demand state).shortfall = []
  ram : leftOver platform snapshot problem = [] ∨ neededRAM (searchDemands problem) ≤
    freeRAM (eligibleNodes snapshot).states + tolerance
  search : (∃ placing final, Placed platform (pinsOf problem.pins) (eligibleNodes snapshot).states
      placing final ∧ placing.map Prod.fst = searchDemands problem) ∨
    budgetOf problem ≤ size (moves platform (pinsOf problem.pins)) (searchDemands problem)
      (eligibleNodes snapshot).states

end Grounds

/-- **Conflicts come with a proof of infeasibility and options with a feasible answer**, exactly if
there is evidence about every node, or no node to place on, or nothing speaks against the
selection. -/
theorem conflicts_iff_infeasible (planned : plan platform ctx snapshot problem = .ok result) :
    ((result.conflicts ≠ [] ↔ result.outcome = .provenInfeasible) ∧
      (result.options ≠ [] ↔ result.outcome = .feasible)) ↔
    (snapshot.Evident ∨ (eligibleNodes snapshot).states = [] ∨
      Unrefuted platform snapshot problem) := by
  rw [← excludedUnknown_iff]
  cases answer_of_plan planned with
  | noNode none idle => simp [idle.outcome, idle.conflicts, idle.options, none]
  | placed places covers same outcome options none unproven =>
    obtain ⟨hosted, ram⟩ := provenConflicts_eq_nil.mp unproven
    have unrefuted : Unrefuted platform snapshot problem :=
      ⟨hosted, ram, .inl ⟨_, _, places, covers⟩⟩
    simp [outcome, options, none, unrefuted]
  | conflicts some_node proven refused =>
    have refuted : ¬ Unrefuted platform snapshot problem := fun unrefuted =>
      proven (provenConflicts_eq_nil.mpr ⟨unrefuted.hosted, unrefuted.ram⟩)
    cases unknown : (eligibleNodes snapshot).excludedUnknown <;>
      simp [refused.outcome, refused.conflicts, refused.options, unknown, refuted, some_node]
  | exhausted some_node failed spare refused =>
    obtain ⟨-, -, -, all, hopeless⟩ := walk_fails (moves_undoes _ _) failed
    rw [Nat.zero_add] at all
    -- The search has gone through the whole tree, and a placement would be a path in it.
    have refuted : ¬ Unrefuted platform snapshot problem := by
      rintro ⟨-, -, ⟨placing, final, placed, covers⟩ | large⟩
      · obtain ⟨taken, path, rfl⟩ := path_of_placed placed
        rw [map_map] at covers
        exact absurd (hopeless ⟨_, _, path, covers⟩) (not_le.mpr spare)
      · exact absurd (all spare ▸ large) (not_le.mpr spare)
    cases unknown : (eligibleNodes snapshot).excludedUnknown <;>
      simp [refused.outcome, refused.conflicts, refused.options, unknown, refuted, some_node]
  | gaveUp failed spent unproven idle =>
    obtain ⟨hosted, ram⟩ := provenConflicts_eq_nil.mp unproven
    have most := (walk_fails (moves_undoes _ _) failed).most
    rw [Nat.zero_add] at most
    have unrefuted : Unrefuted platform snapshot problem := ⟨hosted, ram, .inr (spent.trans most)⟩
    simp [idle.outcome, idle.conflicts, idle.options, unrefuted]

namespace Sample

/-- The home with one more server, of which nothing is known. -/
def homeUnsized : Snapshot := { home with nodes := home.nodes ++ [server "shed" 0] }

def tooLarge : Problem := { snapshotDigest := "sha256:home", demands := [app "photos" 20] }

lemma exists_of_test {answer : Except String Result} {test : Result → Bool}
    (passes : answer.toOption.any test = true) :
    ∃ result, answer = .ok result ∧ test result = true := by
  cases answer with
  | error err => cases passes
  | ok result => exact ⟨result, rfl, passes⟩

end Sample

/-- The answer is unknown, because of the third server, and still names a workload. -/
theorem unknown_with_conflicts : ∃ result, plan Sample.plain (fun _ => none) Sample.homeUnsized
    Sample.tooLarge = .ok result ∧ result.outcome = .unknown ∧ result.conflicts ≠ [] := by
  have passes : (plan Sample.plain (fun _ => none) Sample.homeUnsized
      Sample.tooLarge).toOption.any (fun result => decide (result.outcome = .unknown ∧
        result.conflicts.length = 1)) = true := by decide +kernel
  obtain ⟨result, planned, facts⟩ := Sample.exists_of_test passes
  obtain ⟨outcome, one⟩ := of_decide_eq_true facts
  exact ⟨result, planned, outcome, ne_nil_of_length_eq_add_one one⟩

theorem conflicts_iff_infeasible_home : Sample.home.Evident ∧
    ∃ result, plan Sample.plain (fun _ => none) Sample.home Sample.tooLarge = .ok result ∧
      result.outcome = .provenInfeasible ∧ result.conflicts ≠ [] := by
  have known : Sample.home.Evident := excludedUnknown_iff.mp (by decide +kernel)
  obtain ⟨result, planned, outcome⟩ := Sample.exists_of_outcome
    (by decide +kernel : Sample.outcome (plan Sample.plain (fun _ => none) Sample.home
      Sample.tooLarge) = some .provenInfeasible)
  have holds := (conflicts_iff_infeasible planned).mpr (.inl known)
  exact ⟨known, result, planned, outcome, holds.1.mpr outcome⟩

/-! ### Budgets -/

section Budgets

variable {pins : Params} {states : List NodeState} {demands : List Demand} {budget budget' : ℕ}
  {search : Repacked}

/-- The search stays within its budget, and gives up only at its end. -/
lemma repack_work (searched : repack platform ctx pins states demands budget = .ok search) :
    search.work ≤ budget ∧
      (search.found = none → search.exhausted = false → search.work = budget) := by
  unfold repack at searched
  split at searched <;> cases searched
  case h_2 walked =>
    exact ⟨walk_work_le walked (Nat.zero_le _), nofun⟩
  case h_3 walked =>
    have within := walk_work_le walked (Nat.zero_le _)
    exact ⟨within, fun _ spent => le_antisymm within (by simpa using spent)⟩

/-- An answer of the search is one for every larger budget. -/
lemma repack_budget (more : budget ≤ budget')
    (searched : repack platform ctx pins states demands budget = .ok search)
    (answered : search.found ≠ none ∨ search.exhausted = true) :
    repack platform ctx pins states demands budget' = .ok search := by
  unfold repack at searched ⊢
  split at searched <;> cases searched
  case h_2 walked =>
    rw [walk_budget more walked (.inl rfl)]
  case h_3 walked =>
    have spare := of_decide_eq_true (answered.resolve_left fun found => found rfl)
    rw [walk_budget more walked (.inr spare)]
    simp [spare, spare.trans_le more]

end Budgets

/-- The same question with another budget, sealed anew. -/
def Problem.withBudget (problem : Problem) (budget : ℤ) (digest : String) : Problem :=
  { problem with workBudget := budget, digest := digest }

/-- The same outcome, layouts and conflicts. -/
structure Result.Agrees (result result' : Result) : Prop where
  outcome : result'.outcome = result.outcome
  conflicts : result'.conflicts = result.conflicts
  layouts : result'.options.map (fun option => (option.assignments, option.loads)) =
    result.options.map fun option => (option.assignments, option.loads)

/-- **A budget decides only whether there is an answer**: the work stays within it, it is used up
where the planner gives up, and every other answer is the answer for every larger budget. -/
theorem plan_budget (planned : plan platform ctx snapshot problem = .ok result) :
    result.work ≤ budgetOf problem ∧
      (result.outcome = .budgetExhausted → result.work = budgetOf problem) ∧
      ∀ budget digest, result.outcome ≠ .budgetExhausted →
        budgetOf problem ≤ budgetOf (problem.withBudget budget digest) →
        ∃ result', plan platform ctx snapshot (problem.withBudget budget digest) = .ok result' ∧
          result.Agrees result' := by
  have demands (budget digest) :
    searchDemands (problem.withBudget budget digest) = searchDemands problem := rfl
  have pins (budget digest) : (problem.withBudget budget digest).pins = problem.pins := rfl
  have asked (budget digest) :
    (problem.withBudget budget digest).snapshotDigest = problem.snapshotDigest := rfl
  simp only [plan, demands, pins, asked] at planned ⊢
  split at planned
  · cases planned
  case isFalse fresh =>
  simp only [if_neg fresh]
  split at planned
  case isTrue none =>
    cases planned
    simp only [if_pos none]
    exact ⟨Nat.zero_le _, by rintro ⟨⟩, fun _ _ _ _ => ⟨_, rfl, rfl, rfl, rfl⟩⟩
  case isFalse some_node =>
  simp only [if_neg some_node]
  split at planned
  case isTrue complete =>
    cases planned
    simp only [if_pos complete]
    exact ⟨Nat.zero_le _, by rintro ⟨⟩, fun _ _ _ _ => ⟨_, rfl, rfl, rfl, rfl⟩⟩
  case isFalse failed =>
  simp only [if_neg failed]
  split at planned
  case isTrue proven =>
    cases planned
    simp only [if_pos proven]
    cases (eligibleNodes snapshot).excludedUnknown <;>
      exact ⟨Nat.zero_le _, by rintro ⟨⟩, fun _ _ _ _ => ⟨_, rfl, rfl, rfl, rfl⟩⟩
  case isFalse unproven =>
  simp only [if_neg unproven]
  split at planned
  · cases planned
  case h_2 search searched =>
  obtain ⟨within, spent⟩ := repack_work searched
  split at planned
  case h_1 found =>
    cases planned
    refine ⟨within, by rintro ⟨⟩, fun budget digest _ more => ?_⟩
    rw [repack_budget more searched (.inl (by simp [found]))]
    simp only [found]
    exact ⟨_, rfl, rfl, rfl, rfl⟩
  case h_2 found =>
  split at planned
  case isTrue exhausted =>
    cases planned
    have again (budget digest) (more : budgetOf problem ≤ budgetOf (problem.withBudget budget digest)) :=
      repack_budget more searched (.inr exhausted)
    cases (eligibleNodes snapshot).excludedUnknown <;>
    · refine ⟨within, by rintro ⟨⟩, fun budget digest _ more => ?_⟩
      rw [again budget digest more]
      simp only [found, exhausted]
      exact ⟨_, rfl, rfl, rfl, rfl⟩
  case isFalse gave_up =>
    cases planned
    exact ⟨within, fun _ => spent found (by simpa using gave_up), fun _ _ answered =>
      absurd rfl answered⟩

/-- A repack with the default budget, and with a larger one. -/
theorem plan_budget_repacked :
    budgetOf Sample.apps ≤ budgetOf (Sample.apps.withBudget 30000 "sha256:more") ∧
      ∃ result result', plan Sample.plain (fun _ => none) Sample.home Sample.apps = .ok result ∧
        result.outcome = .feasible ∧ plan Sample.plain (fun _ => none) Sample.home
          (Sample.apps.withBudget 30000 "sha256:more") = .ok result' ∧ result.Agrees result' := by
  have more : budgetOf Sample.apps ≤ budgetOf (Sample.apps.withBudget 30000 "sha256:more") := by
    decide +kernel
  obtain ⟨result, planned, outcome⟩ := Sample.exists_of_outcome
    (by decide +kernel : Sample.outcome (plan Sample.plain (fun _ => none) Sample.home
      Sample.apps) = some .feasible)
  obtain ⟨result', again, agrees⟩ := (plan_budget planned).2.2 _ _ (by simp [outcome]) more
  exact ⟨more, result, result', planned, outcome, again, agrees⟩

/-! ### Reasons -/

/-- The reason for a shortfall on an axis. -/
def Axis.code : Axis → Code
  | .cpu => .needsMoreCpu
  | .ram => .needsMoreRam
  | .storage => .needsMoreStorage

/-- The requirement that `fits` names on an axis. -/
def Axis.requirement : Axis → Requirement
  | .cpu => .cpu
  | .ram => .ram
  | .storage => .storage

section Reasons

variable {demand : Demand} {states : List NodeState} {pinned : String} {state : NodeState}
  {axis : Axis}

/-- A reason that `shortfallReasons` gives. -/
def Emits (platform : Platform) (demand : Demand) (states : List NodeState) (pinned : String)
    (code : Code) : Prop :=
  code ∈ (shortfallReasons platform demand states pinned).map Reason.code

lemma mem_check {x requirement : Requirement} {total used minimum need : ℚ} :
    x ∈ (check requirement total used minimum need).shortfall ↔ x = requirement ∧
      ¬(minimum = 0 ∧ need = 0) ∧ 0 < total ∧
        (total < minimum ∨ total - used < need - tolerance) := by
  unfold check
  split_ifs with idle unknown lacks <;> simp_all

lemma mem_checkRoles {x : Requirement} {roles required : List String}
    (listed : x ∈ (checkRoles platform roles required).shortfall) : x = .roles := by
  induction required with
  | nil => cases listed
  | cons role rest ih =>
    rw [checkRoles] at listed
    split_ifs at listed
    · cases listed
    · exact mem_singleton.mp listed
    · exact ih listed

lemma mem_checkLevel {x : Requirement} {level : ℤ} {node : Node}
    (listed : x ∈ (checkLevel platform level node).shortfall) : x = .cpuMicroarchitecture := by
  unfold checkLevel at listed
  split_ifs at listed <;> simp_all

lemma mem_checkAccelerator {x : Requirement} {node : Node} {asked : Option AcceleratorDemand}
    (listed : x ∈ (checkAccelerator platform node asked).shortfall) :
    x = .accelerator ∨ x = .acceleratorDriver := by
  unfold checkAccelerator at listed
  split at listed
  · cases listed
  · split at listed
    · simp_all
    · split_ifs at listed <;> simp_all

/-- Only the check of an axis names its requirement. -/
lemma mem_fits : axis.requirement ∈ (fits platform demand state).shortfall ↔
    ¬(demand.hostFloor.resources.on axis = 0 ∧ demand.reservation.on axis = 0) ∧
      0 < state.node.capacity.on axis ∧
      (state.node.capacity.on axis < demand.hostFloor.resources.on axis ∨
        state.node.capacity.on axis - state.load.on axis <
          demand.reservation.on axis - tolerance) := by
  have roles : axis.requirement ∉
      (checkRoles platform state.node.roles demand.requiresRoles).shortfall := fun listed => by
    cases axis <;> cases mem_checkRoles listed
  have level : axis.requirement ∉
      (checkLevel platform demand.hostFloor.amd64Level state.node).shortfall := fun listed => by
    cases axis <;> cases mem_checkLevel listed
  have accelerator : axis.requirement ∉
      (checkAccelerator platform state.node demand.accelerator).shortfall := fun listed => by
    cases axis <;> rcases mem_checkAccelerator listed with is | is <;> cases is
  simp only [fits, Findings.join, flatMap_cons, flatMap_nil, mem_append, mem_check,
    unspecified_shortfall, roles, level, accelerator, not_mem_nil, or_false]
  cases axis <;> simp [Axis.requirement, Resources.on]

/-- An accelerator is lacking where there is none, or one that is known to be another. -/
lemma accelerator_mem_fits : .accelerator ∈ (fits platform demand state).shortfall ↔
    ∃ gpu, demand.accelerator = some gpu ∧ ∀ observed, state.node.accelerator = some observed →
      observed.vendor ≠ "" ∧ platform.equalFold observed.vendor gpu.vendor = false := by
  have roles : .accelerator ∉
      (checkRoles platform state.node.roles demand.requiresRoles).shortfall :=
    fun listed => nomatch mem_checkRoles listed
  have level : .accelerator ∉
      (checkLevel platform demand.hostFloor.amd64Level state.node).shortfall :=
    fun listed => nomatch mem_checkLevel listed
  simp only [fits, Findings.join, flatMap_cons, flatMap_nil, mem_append, mem_check,
    unspecified_shortfall, roles, level, not_mem_nil, or_false, false_or, reduceCtorEq, false_and]
  unfold checkAccelerator
  split
  · simp_all
  · split
    · simp_all
    · split_ifs <;> simp_all

lemma on_foldl_max_lt (of : NodeState → Resources) {start : Resources} {bound : ℚ} :
    (states.foldl (fun largest state => largest.max (of state)) start).on axis < bound ↔
      start.on axis < bound ∧ ∀ state ∈ states, (of state).on axis < bound := by
  induction states generalizing start with
  | nil => simp
  | cons state rest ih =>
    have larger : (start.max (of state)).on axis < bound ↔
        start.on axis < bound ∧ (of state).on axis < bound := by
      cases axis <;> simp only [Resources.on, Resources.max, Resources.maxFloat] <;>
        split_ifs <;> constructor <;> intro below <;> grind
    rw [foldl_cons, ih, larger, forall_mem_cons, and_assoc]

/-- A default that has another code does not matter. -/
lemma mem_map_default {found : List Reason} {default : Reason} {code : Code}
    [Decidable (found = [])] (other : code ≠ default.code) :
    code ∈ (if found = [] then [default] else found).map Reason.code ↔
      code ∈ found.map Reason.code := by
  split <;> simp_all

lemma mem_map_ite {c : Prop} [Decidable c] {r : Reason} {code : Code} :
    code ∈ (if c then [r] else []).map Reason.code ↔ c ∧ code = r.code := by
  split <;> simp_all

/-- What a node counts for in the reasons: its CPU as a whole, its RAM and storage as far as they
are free. -/
def NodeState.offer (state : NodeState) : Resources :=
  ⟨state.node.capacity.cpuCores, state.node.capacity.ramGB - state.load.ramGB,
    state.node.capacity.storageGB - state.load.storageGB⟩

/-- The larger of floor and reservation. -/
def Demand.need (demand : Demand) (axis : Axis) : ℚ :=
  Max.max (demand.hostFloor.resources.on axis) (demand.reservation.on axis)

/-- The need is beyond what every one of the nodes counts for. -/
def Exceeds (demand : Demand) (nodes : List NodeState) (axis : Axis) : Prop :=
  tolerance < demand.need axis ∧
    ∀ state ∈ nodes, state.offer.on axis + tolerance < demand.need axis

/-- No node has an accelerator that is known to be of the vendor. -/
def NoneOf (platform : Platform) (nodes : List NodeState) (gpu : AcceleratorDemand) : Prop :=
  ∀ state ∈ nodes, ∀ observed, state.node.accelerator = some observed → observed.vendor ≠ "" →
    platform.equalFold observed.vendor gpu.vendor = false

lemma exceeds_iff {nodes : List NodeState} {axis : Axis} :
    Max.max (demand.hostFloor.resources.on axis) (demand.reservation.on axis) >
      (nodes.foldl (fun (largest : Resources) state => largest.max
        ⟨state.node.capacity.cpuCores, state.node.capacity.ramGB - state.load.ramGB,
          state.node.capacity.storageGB - state.load.storageGB⟩) {}).on axis + tolerance ↔
    Exceeds demand nodes axis := by
  have nothing : ({} : Resources).on axis = 0 := by cases axis <;> rfl
  rw [gt_iff_lt, ← lt_sub_iff_add_lt]
  refine (on_foldl_max_lt NodeState.offer).trans ?_
  rw [nothing]
  simp only [lt_sub_iff_add_lt, zero_add]
  rfl

lemma code_reason {code : Code} {params : Params} : (reason code params).code = code := rfl

lemma noneOf_iff {nodes : List NodeState} {gpu : AcceleratorDemand} :
    ¬ (nodes.filterMap fun state => state.node.accelerator.bind fun gpu =>
        if gpu.vendor ≠ "" then some gpu.vendor else none).any
      (fun vendor => platform.equalFold vendor gpu.vendor) = true ↔ NoneOf platform nodes gpu := by
  simp only [any_eq_true, mem_filterMap, Option.bind_eq_some_iff, Option.ite_none_right_eq_some,
    NoneOf]
  grind

/-- What stands behind a reason: a need that is beyond every node, or a vendor that is on none. -/
lemma emits_iff {code : Code} (named : code ≠ .noNodeMeetsRequirements) :
    Emits platform demand states pinned code ↔
    Exceeds demand (allowedNodes pinned states) .ram ∧ code = .needsMoreRam ∨
    Exceeds demand (allowedNodes pinned states) .cpu ∧ code = .needsMoreCpu ∨
    Exceeds demand (allowedNodes pinned states) .storage ∧ code = .needsMoreStorage ∨
    (∃ gpu, demand.accelerator = some gpu ∧ NoneOf platform (allowedNodes pinned states) gpu ∧
      code = .missingAccelerator) ∨
    pinned ≠ "" ∧ code = .pinnedNodeLacksRoom := by
  simp only [Emits, shortfallReasons]
  rw [mem_map_default named]
  simp only [map_append, mem_append, mem_map_ite, exceeds_iff, code_reason, or_assoc]
  refine or_congr_right (or_congr_right (or_congr_right (or_congr_left ?_)))
  cases demand.accelerator with
  | none => simp
  | some gpu =>
    dsimp only
    rw [← ite_not, mem_map_ite, noneOf_iff, code_reason]
    simp

lemma emits_axis : Emits platform demand states pinned axis.code ↔
    Exceeds demand (allowedNodes pinned states) axis := by
  rw [emits_iff (by cases axis <;> nofun)]
  cases axis <;> simp [Axis.code]

lemma emits_accelerator : Emits platform demand states pinned .missingAccelerator ↔
    ∃ gpu, demand.accelerator = some gpu ∧ NoneOf platform (allowedNodes pinned states) gpu := by
  rw [emits_iff (by nofun)]
  simp

/-- A node that the reasons hold to be too small and `fits` does not.  Its capacity is unknown; or
its RAM or storage is large enough for the floor and has room for the reservation, but what is free
of it is below the floor; or more CPU is free than there is. -/
def Misjudged (demand : Demand) (state : NodeState) (axis : Axis) : Prop :=
  let total := state.node.capacity.on axis
  let free := total - state.load.on axis
  let floor := demand.hostFloor.resources.on axis
  let reservation := demand.reservation.on axis
  total ≤ 0 ∨ match axis with
    | .ram | .storage => reservation ≤ free + tolerance ∧ free + tolerance < floor ∧ floor ≤ total
    | .cpu => floor ≤ total ∧ total + tolerance < reservation ∧ reservation ≤ free + tolerance

lemma mem_fits_iff_not_misjudged {nodes : List NodeState} (exceeds : Exceeds demand nodes axis)
    (listed : state ∈ nodes) :
    axis.requirement ∈ (fits platform demand state).shortfall ↔ ¬ Misjudged demand state axis := by
  obtain ⟨needed, beyond⟩ := exceeds
  have beyond := beyond state listed
  have small : 0 < tolerance := by norm_num [tolerance]
  rw [mem_fits]
  cases axis <;> simp only [Misjudged, Demand.need, NodeState.offer, Resources.on, lt_max_iff]
    at needed beyond ⊢ <;> grind

/-- **A reason names what every admissible node lacks**, exactly if no node is misjudged on an axis
on which the need is beyond all of them, and none has an accelerator of unknown vendor where the
vendor that is asked for is on none. -/
theorem reasons_truthful (platform : Platform) (demand : Demand) (states : List NodeState)
    (pinned : String) :
    ((∀ axis : Axis, Emits platform demand states pinned axis.code →
        ∀ state ∈ allowedNodes pinned states,
          axis.requirement ∈ (fits platform demand state).shortfall) ∧
      (Emits platform demand states pinned .missingAccelerator →
        ∀ state ∈ allowedNodes pinned states,
          .accelerator ∈ (fits platform demand state).shortfall)) ↔
    (∀ axis : Axis, Exceeds demand (allowedNodes pinned states) axis →
      ∀ state ∈ allowedNodes pinned states, ¬ Misjudged demand state axis) ∧
    ∀ gpu, demand.accelerator = some gpu → NoneOf platform (allowedNodes pinned states) gpu →
      ∀ state ∈ allowedNodes pinned states, ∀ observed, state.node.accelerator = some observed →
        observed.vendor ≠ "" := by
  refine and_congr (forall_congr' fun axis => ?_) ?_
  · rw [emits_axis]
    exact forall_congr' fun exceeds => forall₂_congr fun state listed =>
      mem_fits_iff_not_misjudged exceeds listed
  · simp only [emits_accelerator, accelerator_mem_fits]
    constructor
    · intro truthful gpu asked none state listed observed has
      obtain ⟨_, -, lacks⟩ := truthful ⟨gpu, asked, none⟩ state listed
      exact (lacks observed has).1
    · rintro known ⟨gpu, asked, none⟩ state listed
      refine ⟨gpu, asked, fun observed has => ?_⟩
      have vendor := known gpu asked none state listed observed has
      exact ⟨vendor, none state listed observed has vendor⟩

/-- A host of 16 GB with 10 GB in use is large enough for a floor of 8 GB and has room for 1 GB: it
lacks storage only, but the reasons ask for RAM as well. -/
theorem reason_untrue : ∃ demand state, (fits Sample.plain demand state).shortfall = [.storage] ∧
      Emits Sample.plain demand [state] "" .needsMoreRam := by
  refine ⟨{ workload := "photos", hostFloor := ⟨⟨0, 8, 0⟩, 0⟩, reservation := ⟨0, 1, 200⟩ },
    { node := Sample.server "attic" 16, load := ⟨0, 10, 0⟩ }, by decide +kernel, ?_⟩
  unfold Emits
  decide +kernel

end Reasons

end TechStack.Layout
