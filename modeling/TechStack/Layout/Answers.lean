import TechStack.Layout.Placement

/-!
# The base and the answers

Where `Plan` starts from and what it ends with.  The eligible nodes of a snapshot carry
as base what already runs on them (`eligible_base`); every answer is one of five
(`Answer`), and each says how it came about in terms of `Placed`.
-/

namespace TechStack.Layout

open Std (ExtTreeMap)
open List Lib Backtrack

/-! ### Eligible nodes -/

/-- The nodes the planner places on. -/
def Node.Usable (node : Node) : Prop :=
  node.trustClass = .ownerControlled ∧ (node.state = .connected ∨ node.state = .planned) ∧
    0 < node.capacity.ramGB ∧ 0 < node.capacity.cpuCores

instance (node : Node) : Decidable node.Usable := by
  unfold Node.Usable
  infer_instance

variable (snapshot : Snapshot)

/-- What the managed components of a node reserve. -/
def managedLoad (id : String) : Resources :=
  ((snapshot.components.filter fun component =>
    component.nodeID = id ∧ component.management = .managed).map Component.reservation).foldl
      Resources.add {}

/-- The base load of a node: the larger of what is reserved and what is observed. -/
def baseLoad (node : Node) : Resources :=
  match node.usage with
  | some usage => (managedLoad snapshot node.id).max usage
  | none => managedLoad snapshot node.id

/-- The workloads that already run on a node. -/
def existing (node : Node) : List String :=
  (snapshot.components.filter fun component => component.nodeID = node.id).map
    Component.workload

lemma classify_toOption (node : Node) :
    (classify node).toOption = if node.Usable then some { node := node } else none := by
  simp only [classify]
  split
  case isTrue foreign =>
    rw [if_neg fun usable : node.Usable => foreign usable.1]
    rfl
  case isFalse owned =>
    split
    case isTrue away =>
      rw [if_neg fun usable : node.Usable => usable.2.1.elim away.1 away.2]
      rfl
    case isFalse here =>
      split
      case isTrue unknown =>
        rw [if_neg fun usable : node.Usable =>
          unknown.elim (not_le.mpr usable.2.2.1) (not_le.mpr usable.2.2.2)]
        rfl
      case isFalse known =>
        push Not at owned known
        have usable : node.Usable := ⟨owned, by tauto, known.1, known.2⟩
        rw [if_pos usable]
        rfl

/-- The states before anything is known to run on them. -/
def bareStates : List NodeState :=
  (snapshot.nodes.filter (·.Usable)).map fun node => { node := node }

lemma bareStates_eq :
    (snapshot.nodes.map classify).filterMap Except.toOption = bareStates snapshot := by
  unfold bareStates
  induction snapshot.nodes with
  | nil => rfl
  | cons node rest ih =>
    rw [map_cons, filterMap_cons, classify_toOption, ih, filter_cons]
    by_cases usable : node.Usable <;> simp [usable]

variable {id : String}

section Index

variable {states : List NodeState} {index : ExtTreeMap String ℕ compare}

/-- The index with the nodes from a position on. -/
def indexFrom (index : ExtTreeMap String ℕ compare) (states : List NodeState) (start : ℕ) :
    ExtTreeMap String ℕ compare :=
  (states.zipIdx start).foldl (fun index entry => index.insert entry.1.node.id entry.2) index

lemma indexFrom_cons (index : ExtTreeMap String ℕ compare) (state : NodeState)
    (rest : List NodeState) (start : ℕ) :
    indexFrom index (state :: rest) start =
      indexFrom (index.insert state.node.id start) rest (start + 1) := rfl

lemma indexFrom_eq_some {start i : ℕ} (found : (indexFrom index states start)[id]? = some i) :
    index[id]? = some i ∨ ∃ j state, states[j]? = some state ∧ state.node.id = id ∧
      i = start + j := by
  induction states generalizing index start with
  | nil => exact .inl found
  | cons state rest ih =>
    rw [indexFrom_cons] at found
    rcases ih found with before | ⟨j, other, present, same, rfl⟩
    · rw [ExtTreeMap.getElem?_insert] at before
      split at before
      case isTrue same =>
        cases before
        exact .inr ⟨0, state, rfl, by simpa using same, rfl⟩
      case isFalse => exact .inl before
    · exact .inr ⟨j + 1, other, by simpa using present, same, by omega⟩

lemma indexFrom_isSome {start : ℕ}
    (present : index[id]?.isSome ∨ ∃ state ∈ states, state.node.id = id) :
    (indexFrom index states start)[id]?.isSome := by
  induction states generalizing index start with
  | nil => simpa [indexFrom] using present
  | cons state rest ih =>
    rw [indexFrom_cons]
    apply ih
    rw [ExtTreeMap.getElem?_insert]
    by_cases same : state.node.id = id
    · exact .inl (by simp [same])
    · rcases present with before | ⟨other, mem, rfl⟩
      · exact .inl (by simpa [same] using before)
      · rcases mem_cons.mp mem with rfl | later
        · exact absurd rfl same
        · exact .inr ⟨other, later, rfl⟩

/-- With distinct IDs the index finds a node where it is. -/
lemma indexNodes_iff (distinct : (states.map fun state => state.node.id).Nodup) {i : ℕ}
    : (indexNodes states)[id]? = some i ↔
      ∃ state, states[i]? = some state ∧ state.node.id = id := by
  have unique : ∀ {j : ℕ} {a b : NodeState}, states[i]? = some a → states[j]? = some b →
      a.node.id = b.node.id → i = j := by
    intro j a b here there same
    have short : i < (states.map fun state => state.node.id).length := by
      rw [List.length_map]
      exact (List.getElem?_eq_some_iff.mp here).1
    exact (List.getElem?_inj short distinct).mp (by simp [here, there, same])
  constructor
  · intro found
    rcases indexFrom_eq_some found with absent | ⟨j, state, present, same, rfl⟩
    · simp at absent
    · exact ⟨state, by simpa using present, same⟩
  · rintro ⟨state, present, rfl⟩
    have known : (indexFrom ∅ states 0)[state.node.id]?.isSome :=
      indexFrom_isSome (.inr ⟨state, mem_of_getElem? present, rfl⟩)
    obtain ⟨j, found⟩ := Option.isSome_iff_exists.mp known
    rcases indexFrom_eq_some found with absent | ⟨j, other, there, same, rfl⟩
    · simp at absent
    · rw [unique present there same.symm]
      exact found.trans (by rw [Nat.zero_add])

end Index

section Components

variable {index : ExtTreeMap String ℕ compare}

/-- The loop over the components adds to a node the workloads of those the index puts
there. -/
lemma foldl_addComponent_states (components : List Component)
    (acc : ExtTreeMap String Resources compare × List NodeState) (i : ℕ) :
    ∃ important : ℤ, (components.foldl (addComponent index) acc).2[i]? = acc.2[i]?.map fun state =>
        { state with
          important := state.important + important
          workloads := state.workloads ++ (components.filter fun component =>
            index[component.nodeID]? = some i).map Component.workload } := by
  induction components generalizing acc with
  | nil => exact ⟨0, by simp⟩
  | cons component rest ih =>
    obtain ⟨important, same⟩ := ih (addComponent index acc component)
    rw [foldl_cons, same]
    unfold addComponent
    cases found : index[component.nodeID]? with
    | none => exact ⟨important, by simp [found]⟩
    | some j =>
      simp only [getElem?_modify]
      by_cases here : j = i
      · refine ⟨(if component.band = .important then 1 else 0) + important, ?_⟩
        by_cases band : component.band = .important <;>
          cases acc.2[i]? <;> simp [here, found, band, add_assoc]
      · exact ⟨important, by simp [here, found]⟩

/-- And to the managed load of a node what its managed components reserve. -/
lemma foldl_addComponent_managed (components : List Component)
    (acc : ExtTreeMap String Resources compare × List NodeState) (known : index[id]?.isSome) :
    (components.foldl (addComponent index) acc).1.getD id {} = ((components.filter fun component =>
        component.nodeID = id ∧ component.management = .managed).map
          Component.reservation).foldl Resources.add (acc.1.getD id {}) := by
  induction components generalizing acc with
  | nil => rfl
  | cons component rest ih =>
    rw [foldl_cons, ih, filter_cons]
    by_cases here : component.nodeID = id
    · obtain ⟨i, found⟩ := Option.isSome_iff_exists.mp known
      subst here
      by_cases managed : component.management = .managed
      · simp [addComponent, found, managed]
      · simp [addComponent, found, managed]
    · have other : (addComponent index acc component).1.getD id {} = acc.1.getD id {} := by
        unfold addComponent
        split
        · rfl
        · simp only
          split
          · rw [ExtTreeMap.getD_insert]
            simp [here]
          · rfl
      simp [other, here]

end Components

/-- **The eligible nodes are the usable ones, and each carries as base what already runs
on it.** -/
lemma eligible_base (distinct : (snapshot.nodes.map Node.id).Nodup) :
    (eligibleNodes snapshot).states.map NodeState.node = snapshot.nodes.filter (·.Usable) ∧
      ∀ state ∈ (eligibleNodes snapshot).states, state.load = baseLoad snapshot state.node ∧
          state.workloads = existing snapshot state.node := by
  have bareDistinct : ((bareStates snapshot).map fun state => state.node.id).Nodup := by
    rw [bareStates, map_map]
    exact (distinct.sublist (filter_sublist.map Node.id))
  set final := snapshot.components.foldl (addComponent (indexNodes (bareStates snapshot)))
    (∅, bareStates snapshot) with folded
  have states_eq : (eligibleNodes snapshot).states = final.2.map (withBase final.1) := by
    simp only [eligibleNodes, bareStates_eq, folded]
  have at_eq : ∀ i : ℕ, ∃ important : ℤ, final.2[i]? = (bareStates snapshot)[i]?.map fun state =>
      { state with
        important := state.important + important
        workloads := state.workloads ++ (snapshot.components.filter fun component =>
          (indexNodes (bareStates snapshot))[component.nodeID]? = some i).map
            Component.workload } :=
    foldl_addComponent_states snapshot.components (∅, bareStates snapshot)
  constructor
  · rw [states_eq, map_map]
    refine ext_getElem? fun i => ?_
    obtain ⟨important, same⟩ := at_eq i
    rw [getElem?_map, same, bareStates, getElem?_map]
    cases (snapshot.nodes.filter (·.Usable))[i]? <;> rfl
  · intro state mem
    rw [states_eq] at mem
    obtain ⟨before, present, rfl⟩ := mem_map.mp mem
    obtain ⟨i, found⟩ := mem_iff_getElem?.mp present
    obtain ⟨important, same⟩ := at_eq i
    rw [found] at same
    obtain ⟨bare, here, rfl⟩ := Option.map_eq_some_iff.mp same.symm
    have fresh : bare.workloads = [] := by
      obtain ⟨node, -, rfl⟩ := mem_map.mp (mem_of_getElem? here)
      rfl
    have indexed : ∀ id, (indexNodes (bareStates snapshot))[id]? = some i ↔ id = bare.node.id := by
      intro id
      rw [indexNodes_iff bareDistinct, here]
      exact ⟨fun ⟨_, same, h⟩ => by rw [← h, ← Option.some.inj same], fun h => ⟨_, rfl, h.symm⟩⟩
    have managed : final.1.getD bare.node.id {} = managedLoad snapshot bare.node.id := by
      rw [folded, foldl_addComponent_managed snapshot.components (∅, bareStates snapshot)
        (Option.isSome_iff_exists.mpr ⟨i, (indexed bare.node.id).mpr rfl⟩)]
      simp [managedLoad]
    constructor
    · cases usage : bare.node.usage <;>
        simp only [withBase, NodeState.reset, baseLoad, managed, usage]
    · simp only [withBase, NodeState.reset, existing, fresh, nil_append, indexed]

/-! ### Answers -/

section Answers

variable {platform : Platform} {ctx : ℕ → Option String} {snapshot : Snapshot}
  {problem : Problem}

/-- The search starts from the base. -/
lemma eligible_reset (snapshot : Snapshot) :
    (eligibleNodes snapshot).states.map NodeState.reset = (eligibleNodes snapshot).states := by
  simp only [eligibleNodes, map_map]
  rfl

lemma greedy_failed {pins : Params} {states : List NodeState} {demands : List Demand} :
    ∀ demand ∈ (greedy platform pins states demands).failed, demand ∈ demands := by
  induction demands generalizing states with
  | nil => simp [greedy]
  | cons demand rest ih =>
    rw [greedy]
    intro other mem
    cases ranked : rankCandidates platform pins states demand with
    | nil =>
      simp only [ranked, mem_cons] at mem ⊢
      exact mem.imp_right (ih other)
    | cons best others =>
      simp only [ranked] at mem
      exact mem_cons_of_mem _ (ih other mem)

/-- The demands that the first pass gives up on. -/
def leftOver (platform : Platform) (snapshot : Snapshot) (problem : Problem) : List Demand :=
  (greedy platform (pinsOf problem.pins) (eligibleNodes snapshot).states
    (searchDemands problem)).failed

/-- An answer without options or conflicts. -/
structure Result.Idle (result : Result) (outcome : Outcome) : Prop where
  outcome : result.outcome = outcome
  conflicts : result.conflicts = []
  options : result.options = []

/-- An argument that nothing fits, which is no proof if a node was left out for lack of
evidence. -/
structure Refused (snapshot : Snapshot) (result : Result) : Prop where
  outcome : result.outcome =
    if (eligibleNodes snapshot).excludedUnknown then .unknown else .provenInfeasible
  conflicts : result.conflicts ≠ []
  options : result.options = []

lemma refused_infeasible {result : Result} {conflicts : List Conflict} (some_conflict : conflicts ≠ [])
    (options : result.options = []) :
    Refused snapshot (sealResult platform
      (infeasible result (eligibleNodes snapshot).excludedUnknown conflicts)) := by
  unfold infeasible
  split
  · exact ⟨by simp [sealResult, *], some_conflict, options⟩
  · exact ⟨by simp [sealResult, *], some_conflict, options⟩

lemma Refused.infeasible_or {result : Result} (refused : Refused snapshot result) :
    result.outcome = .provenInfeasible ∨ result.outcome = .unknown := by
  rw [refused.outcome]
  split
  · exact .inr rfl
  · exact .inl rfl

/-- **The five answers of `Plan`**, each with what it rests on. -/
inductive Answer (platform : Platform) (ctx : ℕ → Option String) (snapshot : Snapshot)
    (problem : Problem) (result : Result) : Prop where
  /-- There is nothing to place on. -/
  | noNode (none : (eligibleNodes snapshot).states = []) (idle : result.Idle .unknown)
  /-- Every demand was placed, by the greedy pass or by the repack. -/
  | placed {placing : List (Demand × ℕ)} {final : List NodeState} {placements : List Placement}
      (places : Placed platform (pinsOf problem.pins) (eligibleNodes snapshot).states placing final)
      (covers : placing.map Prod.fst = searchDemands problem)
      (same : placements.map (fun p => (p.demand, p.node)) = placing)
      (outcome : result.outcome = .feasible)
      (options : result.options = [sealOption platform (buildOption final placements)
        snapshot.digest problem.digest])
      (none : result.conflicts = [])
      (unproven : provenConflicts platform (pinsOf problem.pins) (eligibleNodes snapshot).states
        (searchDemands problem) (leftOver platform snapshot problem) = [])
  /-- A demand fits nowhere, or all of them need more RAM than there is. -/
  | conflicts (some_node : (eligibleNodes snapshot).states ≠ [])
      (proven : provenConflicts platform (pinsOf problem.pins) (eligibleNodes snapshot).states
        (searchDemands problem) (leftOver platform snapshot problem) ≠ [])
      (refused : Refused snapshot result)
  /-- The search tried everything. -/
  | exhausted {search : Search (List NodeState) Demand Candidate}
      (some_node : (eligibleNodes snapshot).states ≠ [])
      (failed : walk (moves platform (pinsOf problem.pins)) (budgetOf problem) (cancelled ctx)
        (searchDemands problem) ⟨(eligibleNodes snapshot).states, 0, []⟩ = .ok (false, search))
      (spare : search.work < budgetOf problem) (refused : Refused snapshot result)
  /-- The search gave up. -/
  | gaveUp {search : Search (List NodeState) Demand Candidate}
      (failed : walk (moves platform (pinsOf problem.pins)) (budgetOf problem) (cancelled ctx)
        (searchDemands problem) ⟨(eligibleNodes snapshot).states, 0, []⟩ = .ok (false, search))
      (spent : budgetOf problem ≤ search.work)
      (unproven : provenConflicts platform (pinsOf problem.pins) (eligibleNodes snapshot).states
        (searchDemands problem) (leftOver platform snapshot problem) = [])
      (idle : result.Idle .budgetExhausted)

/-- The conflicts depend on the base alone. -/
lemma provenConflicts_greedy {pins : Params} (states : List NodeState) (pass : List Demand)
    (demands failed : List Demand) :
    provenConflicts platform pins (greedy platform pins states pass).states demands failed =
      provenConflicts platform pins states demands failed := by
  simp only [provenConflicts, greedy_reset]

/-- Nothing is proven against demands that fit a node each and need no more RAM than is free. -/
lemma provenConflicts_eq_nil {pins : Params} {demands failed : List Demand} :
    provenConflicts platform pins (eligibleNodes snapshot).states demands failed = [] ↔
    (∀ demand ∈ failed, ∃ state ∈ allowedNodes (pins.at demand.workload)
      (eligibleNodes snapshot).states, (fits platform demand state).shortfall = []) ∧
    (failed = [] ∨ neededRAM demands ≤ freeRAM (eligibleNodes snapshot).states + tolerance) := by
  have hosted : failed.filterMap (hostConflict platform pins (eligibleNodes snapshot).states) = [] ↔
      ∀ demand ∈ failed, ∃ state ∈ allowedNodes (pins.at demand.workload)
        (eligibleNodes snapshot).states, (fits platform demand state).shortfall = [] := by
    simp [hostConflict, filterMap_eq_nil_iff]
  simp only [provenConflicts, eligible_reset, ← hosted]
  split
  case isTrue some_conflict => simp [some_conflict]
  case isFalse none =>
    rw [ne_eq, not_not] at none
    split <;> simp_all

lemma answer_of_plan {result : Result} (planned : plan platform ctx snapshot problem = .ok result) :
    Answer platform ctx snapshot problem result := by
  simp only [plan] at planned
  split at planned
  · cases planned
  split at planned
  case isTrue none =>
    cases planned
    exact .noNode none ⟨rfl, rfl, rfl⟩
  case isFalse some_node =>
  split at planned
  case isTrue complete =>
    cases planned
    obtain ⟨placing, places, covers, same⟩ := placed_of_greedy complete
    exact .placed places covers same rfl rfl rfl
      (provenConflicts_eq_nil.mpr ⟨by simp [leftOver, complete], .inl complete⟩)
  case isFalse failed =>
  rw [provenConflicts_greedy] at planned
  split at planned
  case isTrue proven =>
    cases planned
    exact .conflicts some_node proven (refused_infeasible proven rfl)
  case isFalse unproven =>
  -- What is left is the search, which starts from the base again.
  simp only [repack, greedy_reset, eligible_reset] at planned
  cases searched : walk (moves platform (pinsOf problem.pins)) (budgetOf problem)
      (cancelled ctx) (searchDemands problem) ⟨(eligibleNodes snapshot).states, 0, []⟩ with
  | error err => simp [searched] at planned
  | ok answer =>
    obtain ⟨found, search⟩ := answer
    cases found with
    | true =>
      simp only [searched] at planned
      cases planned
      obtain ⟨taken, path, covers, chosen⟩ := walk_sound (moves_undoes _ _) searched
      refine .placed (placed_of_path path) ?_ ?_ rfl rfl rfl (not_not.mp unproven)
      · rw [map_map]
        exact covers
      · rw [chosen, map_map]
        rfl
    | false =>
      simp only [searched] at planned
      split at planned
      case isTrue spare =>
        cases planned
        exact .exhausted some_node searched (of_decide_eq_true spare)
          (refused_infeasible (by simpa using failed) rfl)
      case isFalse spent =>
        cases planned
        exact .gaveUp searched (not_lt.mp (by simpa using spent)) (not_not.mp unproven)
          ⟨rfl, rfl, rfl⟩

/-- With a live context and the snapshot it was asked for, the planner answers. -/
lemma plan_answers (platform : Platform) (live : ∀ work, ctx work = none)
    (fresh : problem.snapshotDigest = snapshot.digest) :
    ∃ result, plan platform ctx snapshot problem = .ok result := by
  have uninterrupted : ∀ work, cancelled ctx work = none := by
    intro work
    simp [cancelled, live]
  simp only [plan, fresh, ne_eq, not_true_eq_false, if_false]
  split
  · exact ⟨_, rfl⟩
  split
  · exact ⟨_, rfl⟩
  split
  · exact ⟨_, rfl⟩
  simp only [repack, greedy_reset]
  obtain ⟨⟨found, search⟩, searched⟩ := walk_answers uninterrupted (searchDemands problem)
    (⟨(eligibleNodes snapshot).states.map NodeState.reset, 0, []⟩ :
      Search (List NodeState) Demand Candidate)
  rw [searched]
  cases found with
  | true => exact ⟨_, rfl⟩
  | false =>
    simp only
    split
    · exact ⟨_, rfl⟩
    · exact ⟨_, rfl⟩

end Answers

end TechStack.Layout
