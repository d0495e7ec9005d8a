import TechStack.Layout.Valid

/-!
# Refusals are sound

The planner refuses on three grounds: a demand that fits nowhere, a selection that needs
more RAM than is free, and a search that tried everything.  None of them can be given
when the demands can be placed (`Placeable`): the placement can be made one demand after
the other in the planner's own order (`Placeable.placed`), so that no demand is without
a node, the RAM adds up, and the search can only have run out of budget.
-/

namespace TechStack.Layout

open List Lib Backtrack

/-- An assignment of every demand to a node that its pin allows and that meets it, with
the base and all that is assigned within the capacity, wherever the capacity is known. -/
structure Placeable (platform : Platform) (pins : Params) (states : List NodeState)
    (demands : List Demand) (placing : List (Demand × ℕ)) : Prop where
  covers : placing.map Prod.fst = demands
  suits : ∀ choice ∈ placing, ∃ state, states[choice.2]? = some state ∧
    Respects pins choice.1 state.node ∧ Meets platform choice.1 state.node
  room : ∀ i state, states[i]? = some state → ∀ axis, 0 < state.node.capacity.on axis →
    state.baseLoad.on axis + ((placedOn placing i).map fun d => d.reservation.on axis).sum ≤
      state.node.capacity.on axis

variable {platform : Platform} {pins : Params} {ctx : ℕ → Option String} {snapshot : Snapshot}
  {problem : Problem} {states : List NodeState} {demands : List Demand}
  {placing : List (Demand × ℕ)}

/-- No demand gives anything back. -/
def NonNegative (demands : List Demand) : Prop :=
  ∀ demand ∈ demands, ∀ axis, 0 ≤ demand.reservation.on axis

/-! ### The order of the demands does not matter -/

lemma Placeable.perm {other : List Demand}
    (placeable : Placeable platform pins states demands placing) (perm : demands.Perm other) :
    ∃ placing', Placeable platform pins states other placing' := by
  have mapped : Relation.Comp (fun (l : List Demand) m => l = m.map Prod.fst) List.Perm other
      placing := by
    rw [eq_map_comp_perm]
    exact perm.symm.trans (.of_eq placeable.covers.symm)
  obtain ⟨placing', covers, permuted⟩ := mapped
  refine ⟨placing', covers.symm, ?_, ?_⟩
  · intro choice mem
    exact placeable.suits choice (permuted.mem_iff.mp mem)
  · intro i state present axis known
    have same : ((placedOn placing' i).map fun d => d.reservation.on axis).sum =
        ((placedOn placing i).map fun d => d.reservation.on axis).sum :=
      ((permuted.filterMap _).map _).sum_eq
    rw [same]
    exact placeable.room i state present axis known

lemma Placeable.withReason (problem : Problem)
    (placeable : Placeable platform pins states demands placing) :
    Placeable platform pins states (demands.map (withReason problem))
      (placing.map fun choice => (Layout.withReason problem choice.1, choice.2)) := by
  refine ⟨?_, ?_, ?_⟩
  · rw [← placeable.covers, map_map, map_map]
    rfl
  · intro choice mem
    obtain ⟨before, present, rfl⟩ := List.mem_map.mp mem
    obtain ⟨state, there, respects, meets⟩ := placeable.suits before present
    exact ⟨state, there, respects, meets.floors, meets.roles, meets.level, meets.accelerator⟩
  · intro i state present axis known
    have same : placedOn (placing.map fun choice =>
        (Layout.withReason problem choice.1, choice.2)) i =
        (placedOn placing i).map (Layout.withReason problem) := by
      simp only [placedOn, filterMap_map, map_filterMap]
      refine filterMap_congr fun choice _ => ?_
      by_cases here : choice.2 = i <;> simp [here]
    rw [same, map_map]
    exact placeable.room i state present axis known

/-- What can be placed can be placed as the search takes it. -/
lemma Placeable.searchDemands (placeable : Placeable platform pins states problem.demands placing) :
    ∃ placing', Placeable platform pins states (searchDemands problem) placing' :=
  (placeable.withReason problem).perm (searchDemands_perm problem).symm

/-! ### One demand after the other -/

/-- What is still to be placed fits on top of the loads. -/
def Ahead (states : List NodeState) (placing : List (Demand × ℕ)) : Prop :=
  ∀ i state, states[i]? = some state → ∀ axis, 0 < state.node.capacity.on axis →
    state.load.on axis + ((placedOn placing i).map fun d => d.reservation.on axis).sum ≤
      state.node.capacity.on axis

section Step

variable {demand : Demand} {index : ℕ} {state : NodeState} {rest : List (Demand × ℕ)}

lemma sum_nonneg (reserves : NonNegative (rest.map Prod.fst)) (i : ℕ) (axis : Axis) :
    0 ≤ ((placedOn rest i).map fun d => d.reservation.on axis).sum := by
  apply List.sum_nonneg
  intro quantity mem
  obtain ⟨d, placed, rfl⟩ := List.mem_map.mp mem
  exact reserves d (List.mem_map.mpr ⟨_, mem_placedOn.mp placed, rfl⟩) axis

/-- The next demand is within the capacity, exactly. -/
lemma Ahead.first (ahead : Ahead states ((demand, index) :: rest))
    (reserves : NonNegative (rest.map Prod.fst)) (present : states[index]? = some state)
    {axis : Axis} (known : 0 < state.node.capacity.on axis) :
    state.load.on axis + demand.reservation.on axis ≤ state.node.capacity.on axis := by
  have total := ahead index state present axis known
  have later := sum_nonneg reserves index axis
  rw [placedOn_cons, if_pos rfl, map_cons, sum_cons] at total
  linarith

/-- And the rest fits on top of it. -/
lemma Ahead.commitAt (ahead : Ahead states ((demand, index) :: rest)) :
    Ahead (commitAt states demand index) rest := by
  intro i state present axis known
  rw [getElem?_commitAt] at present
  split at present
  case isTrue here =>
    obtain ⟨before, there, rfl⟩ := Option.map_eq_some_iff.mp present
    have total := ahead i before there axis known
    rw [placedOn_cons, if_pos here, map_cons, sum_cons, ← add_assoc] at total
    simpa [commit] using total
  case isFalse elsewhere =>
    have total := ahead i state present axis known
    rwa [placedOn_cons, if_neg elsewhere] at total

end Step

/-- What fits can be placed one demand after the other. -/
lemma placed_of_ahead (reserves : NonNegative (placing.map Prod.fst))
    (suits : ∀ choice ∈ placing, ∃ state, states[choice.2]? = some state ∧
      Respects pins choice.1 state.node ∧ Meets platform choice.1 state.node)
    (ahead : Ahead states placing) : ∃ final, Placed platform pins states placing final := by
  induction placing generalizing states with
  | nil => exact ⟨states, .nil _⟩
  | cons choice rest ih =>
    obtain ⟨demand, index⟩ := choice
    obtain ⟨state, present, respects, meets⟩ := suits _ mem_cons_self
    have reservesRest : NonNegative (rest.map Prod.fst) :=
      fun d mem => reserves d (mem_cons_of_mem _ mem)
    have room : Room demand state := by
      intro axis _ known
      have within := ahead.first reservesRest present known
      have slack : (0 : ℚ) ≤ tolerance := by norm_num [tolerance]
      linarith
    obtain ⟨final, follows⟩ := ih reservesRest (fun other mem => by
      obtain ⟨state', there, respects', meets'⟩ := suits other (mem_cons_of_mem _ mem)
      rw [getElem?_commitAt, there]
      by_cases here : index = other.2
      · exact ⟨commit state' demand, by simp [here], respects', meets'⟩
      · exact ⟨state', by simp [here], respects', meets'⟩) ahead.commitAt
    exact ⟨final, .cons present ⟨respects, meets, room⟩ follows⟩

/-! ### RAM adds up -/

lemma freeRAM_commitAt {demand : Demand} {index : ℕ} {state : NodeState}
    (present : states[index]? = some state)
    (within : state.load.ramGB + demand.reservation.ramGB ≤ state.node.capacity.ramGB)
    (reserves : 0 ≤ demand.reservation.ramGB) :
    demand.reservation.ramGB + freeRAM (commitAt states demand index) = freeRAM states := by
  unfold freeRAM commitAt
  induction states generalizing index with
  | nil => simp at present
  | cons first rest ih =>
    cases index with
    | zero =>
      obtain rfl : first = state := by simpa using present
      have before : Max.max 0 (first.node.capacity.ramGB - first.load.ramGB) =
          first.node.capacity.ramGB - first.load.ramGB := max_eq_right (by linarith)
      have after : Max.max 0 (first.node.capacity.ramGB - (commit first demand).load.ramGB) =
          first.node.capacity.ramGB - first.load.ramGB - demand.reservation.ramGB := by
        rw [max_eq_right]
        · simp only [commit, Resources.add]
          ring
        · simp only [commit, Resources.add]
          linarith
      simp only [modify_zero_cons, map_cons, sum_cons, commit_node, before, after]
      ring
    | succ index =>
      have there := ih (by simpa using present)
      simp only [modify_succ_cons, map_cons, sum_cons] at there ⊢
      linarith

/-- The selection needs no more RAM than is free: each placement takes its own share off
what is free, and the rest is placed in what remains. -/
lemma neededRAM_le_of_ahead (reserves : NonNegative (placing.map Prod.fst))
    (present : ∀ choice ∈ placing, ∃ state, states[choice.2]? = some state)
    (known : ∀ (i : ℕ) (state : NodeState), states[i]? = some state → 0 < state.node.capacity.ramGB)
    (ahead : Ahead states placing) : neededRAM (placing.map Prod.fst) ≤ freeRAM states := by
  induction placing generalizing states with
  | nil =>
    apply List.sum_nonneg
    intro quantity mem
    obtain ⟨state, -, rfl⟩ := List.mem_map.mp mem
    exact le_max_left _ _
  | cons choice rest ih =>
    obtain ⟨demand, index⟩ := choice
    obtain ⟨state, there⟩ := present _ mem_cons_self
    have there : states[index]? = some state := there
    have reservesRest : NonNegative (rest.map Prod.fst) :=
      fun d mem => reserves d (mem_cons_of_mem _ mem)
    have within : state.load.on .ram + demand.reservation.on .ram ≤ state.node.capacity.on .ram :=
      ahead.first reservesRest there (known index state there)
    have share := freeRAM_commitAt there within (reserves demand mem_cons_self .ram)
    have later := ih reservesRest (fun other mem => by
        obtain ⟨state', found⟩ := present other (mem_cons_of_mem _ mem)
        rw [getElem?_commitAt, found]
        by_cases here : index = other.2 <;> simp [here])
      (fun i state' found => by
        rw [getElem?_commitAt] at found
        split at found
        · obtain ⟨before, there', rfl⟩ := Option.map_eq_some_iff.mp found
          exact known i before there'
        · exact known i state' found) ahead.commitAt
    rw [← share]
    exact add_le_add_right later _

/-! ### No ground for a refusal -/

lemma base_of_eligible {state : NodeState} (mem : state ∈ (eligibleNodes snapshot).states) :
    state.load = state.baseLoad ∧ state.reset = state := by
  simp only [eligibleNodes, List.mem_map] at mem
  obtain ⟨before, -, rfl⟩ := mem
  exact ⟨rfl, rfl⟩

lemma known_of_eligible {state : NodeState}
    (mem : state ∈ (eligibleNodes snapshot).states) : 0 < state.node.capacity.ramGB := by
  have nodes : ∀ components acc, (∀ state ∈ acc.2, 0 < state.node.capacity.ramGB) →
      ∀ state ∈ (List.foldl (addComponent (indexNodes (bareStates snapshot))) acc components).2,
        0 < state.node.capacity.ramGB := by
    intro components acc known state present
    obtain ⟨i, found⟩ := mem_iff_getElem?.mp present
    obtain ⟨important, same⟩ := foldl_addComponent_states components acc i
    rw [found] at same
    obtain ⟨before, there, rfl⟩ := Option.map_eq_some_iff.mp same.symm
    exact known before (mem_of_getElem? there)
  simp only [eligibleNodes, bareStates_eq, List.mem_map] at mem
  obtain ⟨before, present, rfl⟩ := mem
  refine nodes snapshot.components (∅, bareStates snapshot) ?_ before present
  intro bare there
  obtain ⟨node, usable, rfl⟩ := List.mem_map.mp there
  have usable : node.Usable := by simpa using (mem_filter.mp usable).2
  exact usable.2.2.1

section Grounds

variable (placeable : Placeable platform pins (eligibleNodes snapshot).states demands placing)
  (reserves : NonNegative demands)

include placeable

lemma Placeable.ahead : Ahead (eligibleNodes snapshot).states placing := by
  intro i state present axis known
  rw [(base_of_eligible (mem_of_getElem? present)).1]
  exact placeable.room i state present axis known

include reserves

/-- A placement can be made one demand after the other. -/
lemma Placeable.placed :
    ∃ final, Placed platform pins (eligibleNodes snapshot).states placing final :=
  placed_of_ahead (placeable.covers ▸ reserves) placeable.suits placeable.ahead

/-- No demand is without a node that could host it alone. -/
lemma Placeable.hosted {demand : Demand} (asked : demand ∈ demands) :
    ∃ state ∈ allowedNodes (pins.at demand.workload) (eligibleNodes snapshot).states,
      (fits platform demand state).shortfall = [] := by
  obtain ⟨i, chosen⟩ : ∃ i, (demand, i) ∈ placing := by
    rw [← placeable.covers] at asked
    obtain ⟨⟨_, i⟩, chosen, rfl⟩ := List.mem_map.mp asked
    exact ⟨i, chosen⟩
  obtain ⟨state, present, respects, meets⟩ := placeable.suits _ chosen
  have room : Room demand state := by
    intro axis _ known
    have total := placeable.ahead i state present axis known
    have own : demand.reservation.on axis ≤
        ((placedOn placing i).map fun d => d.reservation.on axis).sum := by
      refine single_le_sum ?_ _ (List.mem_map.mpr ⟨demand, mem_placedOn.mpr chosen, rfl⟩)
      intro quantity mem
      obtain ⟨d, placed, rfl⟩ := List.mem_map.mp mem
      refine reserves d ?_ axis
      rw [← placeable.covers]
      exact List.mem_map.mpr ⟨_, mem_placedOn.mp placed, rfl⟩
    have slack : (0 : ℚ) ≤ tolerance := by norm_num [tolerance]
    linarith
  refine ⟨state, mem_filter.mpr ⟨mem_of_getElem? present, ?_⟩, fits_iff.mpr ⟨meets, room⟩⟩
  simpa [Respects, or_iff_not_imp_left] using respects

/-- So nothing is proven against the demands. -/
lemma Placeable.provenConflicts {failed : List Demand}
    (left : ∀ demand ∈ failed, demand ∈ demands) :
    provenConflicts platform pins (eligibleNodes snapshot).states demands failed = [] := by
  have enough : neededRAM demands ≤ freeRAM (eligibleNodes snapshot).states := by
    have needed := neededRAM_le_of_ahead (placeable.covers ▸ reserves) (fun choice mem => by
        obtain ⟨state, present, -⟩ := placeable.suits choice mem
        exact ⟨state, present⟩)
      (fun i state present => known_of_eligible (mem_of_getElem? present)) placeable.ahead
    rwa [placeable.covers] at needed
  have slack : (0 : ℚ) ≤ tolerance := by norm_num [tolerance]
  exact provenConflicts_eq_nil.mpr
    ⟨fun demand mem => placeable.hosted reserves (left demand mem), .inr (by linarith)⟩

end Grounds

lemma nonNegative_searchDemands (reserves : NonNegative problem.demands) :
    NonNegative (searchDemands problem) := by
  intro demand mem axis
  obtain ⟨asked, listed, rfl⟩ := mem_searchDemands.mp mem
  exact reserves asked listed axis

/-- **The planner refuses nothing that fits.**  With a live context, for every snapshot with
an eligible node and every question about it with non-negative reservations: if the
demands can be placed, the answer is feasible, or that the budget was used up. -/
theorem placeable_is_never_refused (platform : Platform) (ctx : ℕ → Option String)
    (snapshot : Snapshot) (problem : Problem) (live : ∀ work, ctx work = none)
    (asked : problem.snapshotDigest = snapshot.digest)
    (reserves : ∀ demand ∈ problem.demands, ∀ axis, 0 ≤ demand.reservation.on axis)
    (eligible : (eligibleNodes snapshot).states ≠ [])
    (placeable : ∃ placing, Placeable platform (pinsOf problem.pins)
      (eligibleNodes snapshot).states problem.demands placing) :
    ∃ result, plan platform ctx snapshot problem = .ok result ∧
      (result.outcome = .feasible ∨ result.outcome = .budgetExhausted) := by
  obtain ⟨_, placeable⟩ := placeable
  obtain ⟨placing, placeable⟩ := placeable.searchDemands
  have reserves := nonNegative_searchDemands reserves
  obtain ⟨result, planned⟩ := plan_answers platform live asked
  refine ⟨result, planned, ?_⟩
  cases answer_of_plan planned with
  | noNode none _ => exact absurd none eligible
  | placed _ _ _ outcome => exact .inl outcome
  | conflicts _ proven _ => exact absurd (placeable.provenConflicts reserves greedy_failed) proven
  | exhausted _ failed spare _ =>
    -- The placement is a path of the search, which failed with budget to spare.
    obtain ⟨final, placed⟩ := placeable.placed reserves
    obtain ⟨taken, path, choices⟩ := path_of_placed placed
    have covers : taken.map Prod.fst = searchDemands problem := by
      rw [← placeable.covers, ← choices, map_map]
      rfl
    exact absurd ((walk_fails (moves_undoes _ _) failed).spent ⟨_, _, path, covers⟩)
      (not_le.mpr spare)
  | gaveUp _ _ _ idle => exact .inr idle.outcome

namespace Sample

/-- The two servers before the new selection. -/
def attic : NodeState :=
  { node := server "attic" 9, load := ⟨0, 1, 0⟩, workloads := ["dns"], baseLoad := ⟨0, 1, 0⟩,
    baseWorkloads := ["dns"] }

def cellar : NodeState := { node := server "cellar" 5 }

lemma home_states : (eligibleNodes home).states = [attic, cellar] := by decide +kernel

/-- A way to place the apps. -/
def spread : List (Demand × ℕ) :=
  [(app "photos" 4, 0), (app "files" 3, 0), (app "music" 3, 1), (app "notes" 2, 1),
    (app "lamp" 1, 0)]

lemma meets_app (workload id : String) (ram total : ℚ) :
    Meets plain (app workload ram) (server id total) where
  floors := by
    intro axis known
    have none : (app workload ram).hostFloor.resources.on axis = 0 := by cases axis <;> rfl
    rw [none]
    exact le_of_lt known
  roles := nofun
  level := nofun
  accelerator := nofun

lemma placeable_apps :
    Placeable plain (pinsOf apps.pins) (eligibleNodes home).states apps.demands spread where
  covers := by decide +kernel
  suits := by
    have free : ∀ workload ∈ ["photos", "files", "music", "notes"],
        (pinsOf apps.pins).at workload = "" := by decide +kernel
    have bound : (pinsOf apps.pins).at "lamp" = "attic" := by decide +kernel
    rw [home_states]
    intro choice mem
    simp only [spread, mem_cons, not_mem_nil, or_false] at mem
    rcases mem with rfl | rfl | rfl | rfl | rfl
    · exact ⟨attic, rfl, fun pinned => absurd (free "photos" (by simp)) pinned, meets_app _ _ _ _⟩
    · exact ⟨attic, rfl, fun pinned => absurd (free "files" (by simp)) pinned, meets_app _ _ _ _⟩
    · exact ⟨cellar, rfl, fun pinned => absurd (free "music" (by simp)) pinned, meets_app _ _ _ _⟩
    · exact ⟨cellar, rfl, fun pinned => absurd (free "notes" (by simp)) pinned, meets_app _ _ _ _⟩
    · exact ⟨attic, rfl, fun _ => bound.symm, meets_app _ _ _ _⟩
  room := by
    rw [home_states]
    intro i state present axis _
    match i, present with
    | 0, present =>
      cases present
      cases axis <;> decide +kernel
    | 1, present =>
      cases present
      cases axis <;> decide +kernel

end Sample

theorem placeable_is_never_refused_home :
    ∃ result, plan Sample.plain (fun _ => none) Sample.home Sample.apps = .ok result ∧
      (result.outcome = .feasible ∨ result.outcome = .budgetExhausted) :=
  placeable_is_never_refused Sample.plain (fun _ => none) Sample.home Sample.apps (fun _ => rfl)
    rfl (by decide +kernel) (by decide +kernel) ⟨Sample.spread, Sample.placeable_apps⟩

/-- Without an eligible node the planner says so, even when nothing is to be placed: an
empty question about an empty home can be placed and is answered with unknown. -/
theorem nothing_to_place_is_unknown :
    Placeable Sample.plain (pinsOf []) (eligibleNodes ⟨[], [], ""⟩).states [] [] ∧
      ∃ result, plan Sample.plain (fun _ => none) ⟨[], [], ""⟩
          { snapshotDigest := "", demands := [] } = .ok result ∧
        result.outcome = .unknown := by
  refine ⟨⟨rfl, by simp, ?_⟩, ?_⟩
  · intro i state present
    cases present
  · exact Sample.exists_of_outcome (by decide +kernel)

end TechStack.Layout
