import TechStack.Layout.Planner

/-!
# What the planner may place

`Meets` says which nodes a demand may run on at all, `Room` which have something left
for it, and `Hosts` adds the pin.  These are the statements `fits` and `rankCandidates`
decide (`fits_iff`, `mem_rankCandidates`), and both passes of the planner make a
sequence of such choices: a `Path` of the search's `moves`.  What a path leaves on a
node is the fold of the commits placed there (`getElem?_of_path`).
-/

namespace TechStack.Layout

open List Lib Backtrack

variable {platform : Platform} {pins : Params} {demand : Demand} {state : NodeState}

/-! ### The statements behind `fits` -/

/-- The requirements of a demand other than its reservation.  Evidence that is missing
counts as met. -/
structure Meets (platform : Platform) (demand : Demand) (node : Node) : Prop where
  floors : ∀ axis, 0 < node.capacity.on axis →
    demand.hostFloor.resources.on axis ≤ node.capacity.on axis
  roles : node.roles ≠ [] →
    ∀ role ∈ demand.requiresRoles, containsRole platform node.roles role = true
  level : 0 < demand.hostFloor.amd64Level → platform.equalFold node.arch "amd64" = true →
    node.amd64Level ≠ 0 → demand.hostFloor.amd64Level ≤ node.amd64Level
  accelerator : ∀ gpu, demand.accelerator = some gpu →
    ∃ observed, node.accelerator = some observed ∧
      (observed.vendor ≠ "" → platform.equalFold observed.vendor gpu.vendor = true ∧
        (0 < gpu.minDriverMajor → observed.driverMajor ≠ 0 →
          gpu.minDriverMajor ≤ observed.driverMajor))

/-- A demand asks for something on an axis. -/
def Demand.Asks (demand : Demand) (axis : Axis) : Prop :=
  demand.hostFloor.resources.on axis ≠ 0 ∨ demand.reservation.on axis ≠ 0

/-- There is room for the reservation on every axis that the demand asks on and that
the node reports. -/
def Room (demand : Demand) (state : NodeState) : Prop :=
  ∀ axis, demand.Asks axis → 0 < state.node.capacity.on axis →
    state.load.on axis + demand.reservation.on axis ≤ state.node.capacity.on axis + tolerance

/-- The pin of the demand, if any, is on the node. -/
def Respects (pins : Params) (demand : Demand) (node : Node) : Prop :=
  pins.at demand.workload ≠ "" → node.id = pins.at demand.workload

/-- The node can take the demand now. -/
structure Hosts (platform : Platform) (pins : Params) (demand : Demand) (state : NodeState) :
    Prop where
  respects : Respects pins demand state.node
  meets : Meets platform demand state.node
  room : Room demand state

lemma check_shortfall (requirement : Requirement) (total used minimum need : ℚ) :
    (check requirement total used minimum need).shortfall = [] ↔ (0 < total → minimum ≤ total) ∧
        (minimum ≠ 0 ∨ need ≠ 0 → 0 < total → used + need ≤ total + tolerance) := by
  unfold check
  split
  case isTrue idle =>
    obtain ⟨rfl, rfl⟩ := idle
    simpa using fun h => le_of_lt h
  case isFalse asks =>
    have asks : minimum ≠ 0 ∨ need ≠ 0 := by
      by_contra idle
      push Not at idle
      exact asks idle
    split
    case isTrue missing => simp [not_lt.mpr missing]
    case isFalse known =>
      have known := not_le.mp known
      split
      case isTrue short =>
        simp only [cons_ne_nil, false_iff, not_and]
        intro floor room
        have := room asks known
        have := floor known
        rcases short with short | short <;> linarith
      case isFalse enough =>
        push Not at enough
        refine iff_of_true rfl ⟨fun _ => enough.1, fun _ _ => ?_⟩
        linarith [enough.2]

lemma checkRoles_shortfall (roles required : List String) :
    (checkRoles platform roles required).shortfall = [] ↔
      (roles ≠ [] → ∀ role ∈ required, containsRole platform roles role = true) := by
  induction required with
  | nil => simp [checkRoles]
  | cons role rest ih =>
    rw [checkRoles]
    split
    case isTrue none => simp [none]
    case isFalse some =>
      cases present : containsRole platform roles role with
      | false => simp [some, present]
      | true => simp [ih, some, present]

lemma checkLevel_shortfall (level : ℤ) (node : Node) :
    (checkLevel platform level node).shortfall = [] ↔
      (0 < level → platform.equalFold node.arch "amd64" = true → node.amd64Level ≠ 0 →
        level ≤ node.amd64Level) := by
  unfold checkLevel
  split
  case isTrue asks =>
    split
    case isTrue missing => simp [missing]
    case isFalse known =>
      split
      case isTrue short => simp [asks.1, asks.2, known, short]
      case isFalse enough => simp [asks.1, asks.2, known, not_lt.mp enough]
  case isFalse idle =>
    refine iff_of_true (by split <;> rfl) fun positive folded => absurd ⟨positive, folded⟩ idle

lemma checkAccelerator_shortfall (node : Node) (asked : Option AcceleratorDemand) :
    (checkAccelerator platform node asked).shortfall = [] ↔
      ∀ gpu, asked = some gpu → ∃ observed, node.accelerator = some observed ∧
        (observed.vendor ≠ "" → platform.equalFold observed.vendor gpu.vendor = true ∧
          (0 < gpu.minDriverMajor → observed.driverMajor ≠ 0 →
            gpu.minDriverMajor ≤ observed.driverMajor)) := by
  cases asked with
  | none => simp [checkAccelerator]
  | some gpu =>
    cases seen : node.accelerator with
    | none => simp [checkAccelerator, seen]
    | some observed =>
      simp only [checkAccelerator, seen, Option.some.injEq, forall_eq', exists_eq_left']
      grind

lemma unspecified_shortfall : (if demand.cpuUnspecified = true then
    ({ unknown := [.cpuReservation] } : Findings) else {}).shortfall = [] := by
  split <;> rfl

/-- **`fits` finds nothing lacking exactly when the demand meets the node and has room.** -/
lemma fits_iff : (fits platform demand state).shortfall = [] ↔
    Meets platform demand state.node ∧ Room demand state := by
  simp only [fits, Findings.join, flatMap_cons, flatMap_nil, append_nil,
    append_eq_nil_iff, check_shortfall, checkRoles_shortfall, checkLevel_shortfall,
    checkAccelerator_shortfall, unspecified_shortfall, true_and]
  constructor
  · rintro ⟨⟨cpuFloor, cpu⟩, ⟨ramFloor, ram⟩, ⟨storageFloor, storage⟩, roles, level, gpu⟩
    refine ⟨⟨?_, roles, level, gpu⟩, ?_⟩
    · rintro (_ | _ | _)
      exacts [cpuFloor, ramFloor, storageFloor]
    · rintro (_ | _ | _)
      exacts [cpu, ram, storage]
  · rintro ⟨meets, room⟩
    exact ⟨⟨meets.floors .cpu, room .cpu⟩, ⟨meets.floors .ram, room .ram⟩,
      ⟨meets.floors .storage, room .storage⟩, meets.roles, meets.level, meets.accelerator⟩

/-! ### Candidates -/

lemma sortSlice_perm {α : Type} (less : α → α → Bool) (l : List α) : (sortSlice less l).Perm l :=
  perm_insertionSort _ l

@[simp] lemma mem_sortSlice {α : Type} {less : α → α → Bool} {l : List α} {a : α} :
    a ∈ sortSlice less l ↔ a ∈ l :=
  (sortSlice_perm less l).mem_iff

@[simp] lemma rankedCandidate_index (index : ℕ) (state : NodeState) (demand : Demand)
    (unknown : List Requirement) :
    (rankedCandidate index state demand unknown).index = index := by
  unfold rankedCandidate
  cases demand.band <;> rfl

variable {index : ℕ}

lemma candidateAt_eq_some {candidate : Candidate} :
    candidateAt platform pins demand state index = some candidate ↔
      Hosts platform pins demand state ∧
        rankedCandidate index state demand (fits platform demand state).unknown = candidate := by
  simp only [candidateAt]
  split
  case isTrue elsewhere =>
    refine iff_of_false (by simp) ?_
    rintro ⟨hosts, -⟩
    exact elsewhere.2 (hosts.respects elsewhere.1)
  case isFalse allowed =>
    have respects : Respects pins demand state.node := by
      intro pinned
      by_contra other
      exact allowed ⟨pinned, other⟩
    split
    case isTrue short =>
      refine iff_of_false (by simp) ?_
      rintro ⟨hosts, -⟩
      exact short (fits_iff.mpr ⟨hosts.meets, hosts.room⟩)
    case isFalse enough =>
      obtain ⟨meets, room⟩ := fits_iff.mp (not_not.mp enough)
      rw [Option.some.injEq]
      exact ⟨fun same => ⟨⟨respects, meets, room⟩, same⟩, fun h => h.2⟩

variable {states : List NodeState}

/-- **The candidates for a demand are the nodes that can take it now.** -/
lemma mem_rankCandidates {candidate : Candidate} :
    candidate ∈ rankCandidates platform pins states demand ↔
      ∃ state, states[candidate.index]? = some state ∧ Hosts platform pins demand state ∧
        rankedCandidate candidate.index state demand (fits platform demand state).unknown =
          candidate := by
  simp only [rankCandidates, mem_sortSlice, mem_filterMap, Prod.exists,
    mem_zipIdx_iff_getElem?, candidateAt_eq_some]
  constructor
  · rintro ⟨state, index, present, hosts, rfl⟩
    exact ⟨state, by simpa using present, hosts, by simp⟩
  · rintro ⟨state, present, hosts, same⟩
    exact ⟨state, candidate.index, present, hosts, same⟩

lemma exists_candidate (present : states[index]? = some state)
    (hosts : Hosts platform pins demand state) :
    ∃ candidate ∈ rankCandidates platform pins states demand, candidate.index = index := by
  refine ⟨rankedCandidate index state demand (fits platform demand state).unknown, ?_, by simp⟩
  exact mem_rankCandidates.mpr ⟨state, by simpa using present, hosts, by simp⟩

/-! ### Commits -/

lemma uncommit_commit (state : NodeState) (demand : Demand) :
    uncommit (commit state demand) demand = state := by
  unfold uncommit commit
  cases state
  split <;> simp [Resources.sub_add_cancel]

/-- Taking a placement back undoes it, load, count and list of workloads. -/
lemma moves_undoes (platform : Platform) (pins : Params) :
    Backtrack.Undoes (moves platform pins) := by
  intro states demand candidate _
  change uncommitAt (commitAt states demand candidate.index) demand candidate.index = states
  refine ext_getElem? fun i => ?_
  simp only [uncommitAt, commitAt, getElem?_modify]
  split
  · cases states[i]? <;> simp [uncommit_commit]
  · simp

/-- A node after a sequence of demands was placed on it. -/
def commits (state : NodeState) (demands : List Demand) : NodeState :=
  demands.foldl commit state

section

variable (state : NodeState) (demand : Demand) (demands : List Demand)

@[simp] lemma commits_nil : commits state [] = state := rfl

@[simp] lemma commits_cons :
    commits state (demand :: demands) = commits (commit state demand) demands := rfl

@[simp] lemma commit_node : (commit state demand).node = state.node := rfl

@[simp] lemma commits_node : (commits state demands).node = state.node := by
  induction demands generalizing state with
  | nil => rfl
  | cons demand rest ih => simp [ih]

@[simp] lemma commits_load (axis : Axis) :
    (commits state demands).load.on axis =
      state.load.on axis + (demands.map fun demand => demand.reservation.on axis).sum := by
  induction demands generalizing state with
  | nil => simp
  | cons demand rest ih => simp [ih, commit, add_assoc]

@[simp] lemma commits_workloads :
    (commits state demands).workloads =
      state.workloads ++ demands.map fun demand => demand.workload := by
  induction demands generalizing state with
  | nil => simp
  | cons demand rest ih => simp [ih, commit]

end

/-! ### Placing one demand after the other -/

/-- Demands placed one after the other, each on a node that can take it then. -/
inductive Placed (platform : Platform) (pins : Params) :
    List NodeState → List (Demand × ℕ) → List NodeState → Prop where
  | nil (states : List NodeState) : Placed platform pins states [] states
  | cons {states final : List NodeState} {demand : Demand} {index : ℕ} {state : NodeState}
      {rest : List (Demand × ℕ)} (present : states[index]? = some state)
      (hosts : Hosts platform pins demand state)
      (follows : Placed platform pins (commitAt states demand index) rest final) :
      Placed platform pins states ((demand, index) :: rest) final

/-- A choice of the search as a demand on a node. -/
def choiceIndex (choice : Demand × Candidate) : Demand × ℕ := (choice.1, choice.2.index)

/-- A path of the search places its demands. -/
lemma placed_of_path {states final : List NodeState} {taken : List (Demand × Candidate)}
    (path : Path (moves platform pins) states taken final) :
    Placed platform pins states (taken.map choiceIndex) final := by
  induction path with
  | nil => exact .nil _
  | cons offered _ ih =>
    obtain ⟨state, present, hosts, -⟩ := mem_rankCandidates.mp offered
    exact .cons present hosts ih

/-- What can be placed can be placed by the search. -/
lemma path_of_placed {states final : List NodeState} {placing : List (Demand × ℕ)}
    (placed : Placed platform pins states placing final) :
    ∃ taken, Path (moves platform pins) states taken final ∧ taken.map choiceIndex = placing := by
  induction placed with
  | nil => exact ⟨[], .nil _, rfl⟩
  | cons present hosts _ ih =>
    obtain ⟨taken, path, covers⟩ := ih
    obtain ⟨candidate, offered, rfl⟩ := exists_candidate present hosts
    exact ⟨(_, candidate) :: taken, .cons offered path, by simp [choiceIndex, covers]⟩

/-- **The greedy pass places every demand it does not give up on**; in particular all of
them when none is left over. -/
lemma placed_of_greedy {demands : List Demand}
    (complete : (greedy platform pins states demands).failed = []) :
    ∃ placing, Placed platform pins states placing (greedy platform pins states demands).states ∧
      placing.map Prod.fst = demands ∧
      (greedy platform pins states demands).placements.map (fun p => (p.demand, p.node)) =
        placing := by
  induction demands generalizing states with
  | nil => exact ⟨[], .nil _, rfl, rfl⟩
  | cons demand rest ih =>
    rw [greedy] at complete ⊢
    cases ranked : rankCandidates platform pins states demand with
    | nil => simp [ranked] at complete
    | cons best others =>
      simp only [ranked] at complete ⊢
      have offered : best ∈ rankCandidates platform pins states demand := by simp [ranked]
      obtain ⟨state, present, hosts, -⟩ := mem_rankCandidates.mp offered
      obtain ⟨placing, placed, covers, same⟩ := ih complete
      refine ⟨(demand, best.index) :: placing, .cons present hosts placed, by simp [covers], ?_⟩
      simp [same, bestPlacement]

/-- What the greedy pass leaves are the nodes with more placed on them: their base is
untouched. -/
lemma greedy_reset (states : List NodeState) (demands : List Demand) :
    (greedy platform pins states demands).states.map NodeState.reset =
      states.map NodeState.reset := by
  induction demands generalizing states with
  | nil => rfl
  | cons demand rest ih =>
    rw [greedy]
    cases ranked : rankCandidates platform pins states demand with
    | nil => exact ih states
    | cons best others =>
      refine (ih _).trans (ext_getElem? fun i => ?_)
      simp only [commitAt, getElem?_map, getElem?_modify]
      split
      · cases states[i]? <;> rfl
      · simp

/-- The demands that a sequence of placements puts on a node. -/
def placedOn (placing : List (Demand × ℕ)) (index : ℕ) : List Demand :=
  placing.filterMap fun choice => if choice.2 = index then some choice.1 else none

@[simp] lemma placedOn_nil (index : ℕ) : placedOn [] index = [] := rfl

lemma placedOn_cons (choice : Demand × ℕ) (rest : List (Demand × ℕ)) (index : ℕ) :
    placedOn (choice :: rest) index =
      if choice.2 = index then choice.1 :: placedOn rest index else placedOn rest index := by
  unfold placedOn
  rw [filterMap_cons]
  split <;> simp_all

lemma mem_placedOn {placing : List (Demand × ℕ)} {demand : Demand} :
    demand ∈ placedOn placing index ↔ (demand, index) ∈ placing := by
  simp [placedOn]

lemma getElem?_commitAt (states : List NodeState) (demand : Demand) (index i : ℕ) :
    (commitAt states demand index)[i]? =
      if index = i then states[i]?.map fun state => commit state demand else states[i]? := by
  simp only [commitAt, getElem?_modify]
  split <;> simp

section Placed

variable {states final : List NodeState} {placing : List (Demand × ℕ)}

/-- **What is left on a node are the commits placed there.** -/
lemma Placed.getElem? (placed : Placed platform pins states placing final) (i : ℕ) :
    final[i]? = states[i]?.map fun state => commits state (placedOn placing i) := by
  induction placed with
  | nil => simp
  | @cons states final demand index state rest _ _ _ ih =>
    rw [ih, getElem?_commitAt, placedOn_cons]
    split
    · cases states[i]? <;> rfl
    · rfl

/-- Every placement respects its pin and meets its node. -/
lemma Placed.suits (placed : Placed platform pins states placing final)
    {choice : Demand × ℕ} (mem : choice ∈ placing) :
    ∃ state, states[choice.2]? = some state ∧ Respects pins choice.1 state.node ∧
      Meets platform choice.1 state.node := by
  induction placed with
  | nil => cases mem
  | @cons states final demand index state rest present hosts _ ih =>
    rcases mem_cons.mp mem with rfl | later
    · exact ⟨state, present, hosts.respects, hosts.meets⟩
    · obtain ⟨state', present', respects, meets⟩ := ih later
      rw [getElem?_commitAt] at present'
      split at present'
      · obtain ⟨before, found, rfl⟩ := Option.map_eq_some_iff.mp present'
        exact ⟨before, found, respects, meets⟩
      · exact ⟨state', present', respects, meets⟩

/-- Demands that do not ask on an axis leave it as it is. -/
lemma commits_load_of_idle {demands : List Demand} {axis : Axis}
    (idle : ∀ demand ∈ demands, ¬demand.Asks axis) (state : NodeState) :
    (commits state demands).load.on axis = state.load.on axis := by
  rw [commits_load, sum_eq_zero, add_zero]
  intro quantity mem
  obtain ⟨demand, present, rfl⟩ := mem_map.mp mem
  by_contra asks
  exact idle demand present (.inr asks)

/-- **No node is over-committed**, on any axis that it reports and that a demand placed
on it asks on: the last such demand had room, and what was placed later is idle there. -/
lemma Placed.capacity (placed : Placed platform pins states placing final) {i : ℕ}
    {state : NodeState} (present : states[i]? = some state) {axis : Axis}
    (known : 0 < state.node.capacity.on axis)
    (asks : ∃ demand ∈ placedOn placing i, demand.Asks axis) :
    (commits state (placedOn placing i)).load.on axis ≤
      state.node.capacity.on axis + tolerance := by
  induction placed generalizing state with
  | nil => simp at asks
  | @cons states final demand index state' rest here hosts _ ih =>
    rw [placedOn_cons] at asks ⊢
    split at asks
    case isFalse elsewhere =>
      simp only [elsewhere, if_false]
      exact ih (by rw [getElem?_commitAt, if_neg elsewhere, present]) known asks
    case isTrue onNode =>
      obtain rfl : index = i := onNode
      obtain rfl : state' = state := by simpa [here] using present
      have after : (commitAt states demand index)[index]? = some (commit state' demand) := by
        rw [getElem?_commitAt, if_pos rfl, here]
        rfl
      rw [if_pos rfl, commits_cons]
      by_cases later : ∃ demand ∈ placedOn rest index, demand.Asks axis
      · exact ih after known later
      · have idle : ∀ demand ∈ placedOn rest index, ¬demand.Asks axis := by
          intro other mem otherAsks
          exact later ⟨other, mem, otherAsks⟩
        have first : demand.Asks axis := by
          obtain ⟨other, mem, otherAsks⟩ := asks
          rcases mem_cons.mp mem with rfl | mem
          · exact otherAsks
          · exact absurd otherAsks (idle other mem)
        rw [commits_load_of_idle idle]
        simpa [commit] using hosts.room axis first known

end Placed

end TechStack.Layout
