import TechStack.Layout.Answers

/-!
# Feasible answers are valid layouts

`Valid` says what a layout is for: every demand is on one node that may run it, no node
is over-committed beyond the tolerance, and the reported loads are those of the
assignments.  It is stated over the snapshot, the question and the option alone; how
the option was found does not enter.  Both passes end in a sequence of placements, and
`Built.valid` reads the option off it.
-/

namespace TechStack.Layout

open List Lib

/-- The assignments to a node. -/
def assignedTo (option : LayoutOption) (id : String) : List Assignment :=
  option.assignments.filter fun assignment => assignment.nodeID = id

/-- What the assignments to a node reserve on an axis. -/
def assignedLoad (option : LayoutOption) (id : String) (axis : Axis) : ℚ :=
  ((assignedTo option id).map fun assignment => assignment.reservation.on axis).sum

/-- A node's load on an axis before rounding: its base and what is assigned to it. -/
def exactLoad (snapshot : Snapshot) (option : LayoutOption) (node : Node) (axis : Axis) : ℚ :=
  (baseLoad snapshot node).on axis + assignedLoad option node.id axis

/-- An option is a valid layout of the demands on the snapshot. -/
structure Valid (platform : Platform) (snapshot : Snapshot) (problem : Problem)
    (option : LayoutOption) : Prop where
  /-- No workload is assigned twice. -/
  once : (option.assignments.map Assignment.workload).Nodup
  /-- Every demand is assigned, with its own reservation. -/
  assigned : ∀ demand ∈ problem.demands, ∃ a ∈ option.assignments,
    a.workload = demand.workload ∧ a.reservation = demand.reservation
  /-- Nothing else is. -/
  demanded : ∀ a ∈ option.assignments, ∃ demand ∈ problem.demands,
    demand.workload = a.workload
  /-- The target is a usable node that the pin allows and that meets the demand. -/
  target : ∀ a ∈ option.assignments, ∀ demand ∈ problem.demands,
    demand.workload = a.workload → ∃ node ∈ snapshot.nodes, node.id = a.nodeID ∧
      node.Usable ∧ Respects (pinsOf problem.pins) demand node ∧ Meets platform demand node
  /-- No node is over-committed where a demand on it asks for something. -/
  capacity : ∀ node ∈ snapshot.nodes, ∀ axis, 0 < node.capacity.on axis →
    (∃ a ∈ assignedTo option node.id, ∃ demand ∈ problem.demands,
      demand.workload = a.workload ∧ demand.Asks axis) →
    exactLoad snapshot option node axis ≤ node.capacity.on axis + tolerance
  /-- There is a load for each usable node. -/
  loads : option.loads.map NodeLoad.nodeID = (snapshot.nodes.filter (·.Usable)).map Node.id
  /-- It is the exact one, rounded. -/
  reserved : ∀ load ∈ option.loads, ∀ node ∈ snapshot.nodes, node.id = load.nodeID →
    ∀ axis, load.reserved.on axis = roundThousandth (exactLoad snapshot option node axis)
  /-- It lists what runs there already and what is assigned to the node. -/
  workloads : ∀ load ∈ option.loads, ∀ node ∈ snapshot.nodes, node.id = load.nodeID →
    load.workloads.Perm
      (existing snapshot node ++ (assignedTo option node.id).map Assignment.workload)

/-! ### The demands of the search are those of the question -/

variable {platform : Platform} {ctx : ℕ → Option String} {snapshot : Snapshot}
  {problem : Problem}

/-- A demand with the reason of its pin filled in. -/
def withReason (problem : Problem) (demand : Demand) : Demand :=
  { demand with pinReason := (reasonsOf problem.pins).at demand.workload }

lemma searchDemands_perm (problem : Problem) :
    (searchDemands problem).Perm (problem.demands.map (withReason problem)) :=
  (sortSlice_perm _ _).map _

lemma mem_searchDemands {demand : Demand} : demand ∈ searchDemands problem ↔
      ∃ asked ∈ problem.demands, withReason problem asked = demand := by
  rw [(searchDemands_perm problem).mem_iff, mem_map]

lemma on_roundResources (r : Resources) (axis : Axis) :
    (roundResources r).on axis = roundThousandth (r.on axis) := by
  cases axis <;> rfl

/-! ### Reading the option off the placements -/

/-- What an assignment says about its demand and its node. -/
def Assignment.core (a : Assignment) : String × Resources × String :=
  (a.workload, a.reservation, a.nodeID)

/-- The same of a demand on a node. -/
def coreOn (demand : Demand) (id : String) : String × Resources × String :=
  (demand.workload, demand.reservation, id)

section Built

variable {pins : Params} {states final : List NodeState} {placing : List (Demand × ℕ)}
  {placements : List Placement}

/-- The assignments are the placements, in another order. -/
lemma core_buildOption (places : Placed platform pins states placing final)
    (same : placements.map (fun p => (p.demand, p.node)) = placing) :
    ((buildOption final placements).assignments.map Assignment.core).Perm
      (placing.map fun choice => coreOn choice.1 (nodeID states choice.2)) := by
  refine ((sortSlice_perm _ _).map _).trans (.of_eq ?_)
  rw [map_filterMap, ← same, map_map, ← filterMap_eq_map]
  refine filterMap_congr fun placed mem => ?_
  have chosen : (placed.demand, placed.node) ∈ placing := by
    rw [← same]
    exact mem_map_of_mem mem
  obtain ⟨state, present, -, -⟩ := places.suits chosen
  have after := places.getElem? placed.node
  have present : states[placed.node]? = some state := present
  simp only [present, Option.map_some] at after
  simp [after, nodeID, present, assignment, Assignment.core, coreOn]

/-- The placements on a node, found by its ID. -/
lemma filter_placing (places : Placed platform pins states placing final)
    (distinct : (states.map fun state => state.node.id).Nodup) {i : ℕ} {state : NodeState}
    (present : states[i]? = some state) :
    (placing.filter fun choice => nodeID states choice.2 = state.node.id).map Prod.fst =
      placedOn placing i := by
  have sameNode : ∀ choice ∈ placing, nodeID states choice.2 = state.node.id ↔ choice.2 = i := by
    intro choice mem
    obtain ⟨other, there, -, -⟩ := places.suits mem
    have short : choice.2 < (states.map fun state => state.node.id).length := by
      rw [List.length_map]
      exact (List.getElem?_eq_some_iff.mp there).1
    rw [← List.getElem?_inj short distinct, List.getElem?_map, List.getElem?_map, there, present]
    simp [nodeID, there]
  unfold placedOn
  clear places
  induction placing with
  | nil => rfl
  | cons choice rest ih =>
    have first := sameNode choice mem_cons_self
    have later := ih fun other mem => sameNode other (mem_cons_of_mem _ mem)
    rw [filter_cons, filterMap_cons]
    by_cases here : choice.2 = i
    · rw [if_pos (by simpa using first.mpr here), if_pos here]
      simp [later]
    · rw [if_neg (by simpa using mt first.mp here), if_neg here]
      simp [later]

end Built

/-- An option that was read off a sequence of placements of all demands.  Node IDs and
workloads are distinct, so that both name what they are meant to. -/
structure Built (platform : Platform) (snapshot : Snapshot) (problem : Problem)
    (placing : List (Demand × ℕ)) (option : LayoutOption) : Prop where
  nodes : (snapshot.nodes.map Node.id).Nodup
  demands : (problem.demands.map Demand.workload).Nodup
  covers : placing.map Prod.fst = searchDemands problem
  places : ∃ final, Placed platform (pinsOf problem.pins) (eligibleNodes snapshot).states placing
    final ∧ option.loads = final.map nodeLoad
  cores : (option.assignments.map Assignment.core).Perm (placing.map fun choice =>
    coreOn choice.1 (nodeID (eligibleNodes snapshot).states choice.2))

namespace Built

variable {placing : List (Demand × ℕ)} {option : LayoutOption} {i : ℕ} {state : NodeState}
  (built : Built platform snapshot problem placing option)

include built

lemma suits {choice : Demand × ℕ} (chosen : choice ∈ placing) :
    ∃ state, (eligibleNodes snapshot).states[choice.2]? = some state ∧
      Respects (pinsOf problem.pins) choice.1 state.node ∧ Meets platform choice.1 state.node := by
  obtain ⟨final, places, -⟩ := built.places
  exact places.suits chosen

lemma usable (present : (eligibleNodes snapshot).states[i]? = some state) :
    state.node ∈ snapshot.nodes ∧ state.node.Usable := by
  have mem : state.node ∈ snapshot.nodes.filter (·.Usable) := by
    rw [← (eligible_base snapshot built.nodes).1]
    exact mem_map_of_mem (mem_of_getElem? present)
  simpa using mem

lemma node_eq {node : Node} (listed : node ∈ snapshot.nodes)
    (present : (eligibleNodes snapshot).states[i]? = some state)
    (same : node.id = state.node.id) : node = state.node :=
  inj_on_of_nodup_map built.nodes listed (built.usable present).1 same

lemma demand_eq {demand other : Demand} (here : demand ∈ problem.demands)
    (there : other ∈ problem.demands) (same : demand.workload = other.workload) :
    demand = other :=
  inj_on_of_nodup_map built.demands here there same

lemma states_nodup : ((eligibleNodes snapshot).states.map fun state => state.node.id).Nodup := by
  have ids : (eligibleNodes snapshot).states.map (fun state => state.node.id) =
      (snapshot.nodes.filter (·.Usable)).map Node.id := by
    rw [← (eligible_base snapshot built.nodes).1, map_map]
    rfl
  rw [ids]
  exact built.nodes.sublist (filter_sublist.map Node.id)

/-- An assignment is a placement of a demand of the question. -/
lemma placed_of_assigned {a : Assignment} (mem : a ∈ option.assignments) :
    ∃ asked ∈ problem.demands, ∃ i, (withReason problem asked, i) ∈ placing ∧
      a.workload = asked.workload ∧ a.nodeID = nodeID (eligibleNodes snapshot).states i := by
  have core := built.cores.mem_iff.mp (mem_map_of_mem mem)
  obtain ⟨⟨demand, i⟩, chosen, sameCore⟩ := mem_map.mp core
  have listed : demand ∈ searchDemands problem := by
    rw [← built.covers]
    exact mem_map_of_mem chosen
  obtain ⟨asked, present, rfl⟩ := mem_searchDemands.mp listed
  simp only [coreOn, Assignment.core, Prod.mk.injEq] at sameCore
  exact ⟨asked, present, i, chosen, sameCore.1.symm, sameCore.2.2.symm⟩

/-- And every demand of the question has one, with its reservation. -/
lemma assigned_of_demand {demand : Demand} (mem : demand ∈ problem.demands) :
    ∃ a ∈ option.assignments, a.workload = demand.workload ∧
      a.reservation = demand.reservation := by
  have listed : withReason problem demand ∈ placing.map Prod.fst := by
    rw [built.covers]
    exact mem_searchDemands.mpr ⟨demand, mem, rfl⟩
  obtain ⟨⟨_, i⟩, chosen, rfl⟩ := mem_map.mp listed
  have core : coreOn (withReason problem demand) (nodeID (eligibleNodes snapshot).states i) ∈
      option.assignments.map Assignment.core :=
    built.cores.mem_iff.mpr (mem_map.mpr ⟨_, chosen, rfl⟩)
  obtain ⟨a, present, sameCore⟩ := mem_map.mp core
  simp only [coreOn, Assignment.core, Prod.mk.injEq] at sameCore
  exact ⟨a, present, sameCore.1, sameCore.2.1⟩

lemma assigned_nodup : (option.assignments.map Assignment.workload).Nodup := by
  have names := built.cores.map Prod.fst
  rw [map_map, map_map] at names
  refine names.nodup_iff.mpr ?_
  have listed : placing.map (Prod.fst ∘ fun choice =>
      coreOn choice.1 (nodeID (eligibleNodes snapshot).states choice.2)) =
      (searchDemands problem).map Demand.workload := by
    rw [← built.covers, map_map]
    rfl
  rw [listed, ((searchDemands_perm problem).map Demand.workload).nodup_iff, map_map]
  exact built.demands

section

variable (present : (eligibleNodes snapshot).states[i]? = some state)
include present

/-- The assignments to a node are what was placed on it. -/
lemma core_assignedTo :
    ((assignedTo option state.node.id).map Assignment.core).Perm
      ((placedOn placing i).map fun demand => coreOn demand state.node.id) := by
  have all := built.cores.filter fun core => core.2.2 = state.node.id
  rw [filter_map, filter_map] at all
  obtain ⟨final, places, -⟩ := built.places
  refine all.trans (.of_eq ?_)
  rw [← filter_placing places built.states_nodup present, map_map]
  refine map_congr_left fun choice mem => ?_
  have onNode : nodeID (eligibleNodes snapshot).states choice.2 = state.node.id := by
    simpa [coreOn] using (mem_filter.mp mem).2
  simp [onNode]

lemma exactLoad_eq (axis : Axis) : exactLoad snapshot option state.node axis =
      (commits state (placedOn placing i)).load.on axis := by
  have sum := ((built.core_assignedTo present).map fun core => core.2.1.on axis).sum_eq
  rw [map_map, map_map] at sum
  have base := (eligible_base snapshot built.nodes).2 state (mem_of_getElem? present)
  rw [exactLoad, assignedLoad, commits_load, base.1]
  exact congrArg _ sum

lemma workloads_perm :
    (commits state (placedOn placing i)).workloads.Perm (existing snapshot state.node ++
        (assignedTo option state.node.id).map Assignment.workload) := by
  have base := (eligible_base snapshot built.nodes).2 state (mem_of_getElem? present)
  have names := (built.core_assignedTo present).map Prod.fst
  rw [map_map, map_map] at names
  rw [commits_workloads, base.2]
  exact names.symm.append_left _

end

/-- A load is that of a node with all its placements. -/
lemma load_cases {load : NodeLoad} (mem : load ∈ option.loads) :
    ∃ (i : ℕ) (state : NodeState), (eligibleNodes snapshot).states[i]? = some state ∧
      load = nodeLoad (commits state (placedOn placing i)) := by
  obtain ⟨final, places, loads⟩ := built.places
  rw [loads] at mem
  obtain ⟨after, present, rfl⟩ := mem_map.mp mem
  obtain ⟨i, found⟩ := mem_iff_getElem?.mp present
  rw [places.getElem?] at found
  obtain ⟨state, before, rfl⟩ := Option.map_eq_some_iff.mp found
  exact ⟨i, state, before, rfl⟩

lemma loads_eq :
    option.loads.map NodeLoad.nodeID = (snapshot.nodes.filter (·.Usable)).map Node.id := by
  obtain ⟨final, places, loads⟩ := built.places
  rw [loads, ← (eligible_base snapshot built.nodes).1, map_map, map_map]
  refine ext_getElem? fun i => ?_
  simp only [List.getElem?_map, places.getElem? i]
  cases (eligibleNodes snapshot).states[i]? <;> simp [nodeLoad]

/-- **Placements of all demands, one after the other, make a valid layout.** -/
lemma valid : Valid platform snapshot problem option where
  once := built.assigned_nodup
  assigned := fun _ mem => built.assigned_of_demand mem
  demanded := by
    intro a mem
    obtain ⟨asked, present, -, -, same, -⟩ := built.placed_of_assigned mem
    exact ⟨asked, present, same.symm⟩
  target := by
    intro a mem demand present same
    obtain ⟨asked, listed, i, chosen, named, node⟩ := built.placed_of_assigned mem
    obtain rfl := built.demand_eq present listed (same.trans named)
    obtain ⟨state, there, respects, meets⟩ := built.suits chosen
    refine ⟨state.node, (built.usable there).1, ?_, (built.usable there).2, respects,
      ⟨meets.floors, meets.roles, meets.level, meets.accelerator⟩⟩
    simp only at there
    simp [node, nodeID, there]
  capacity := by
    rintro node mem axis known ⟨a, assigned, demand, present, same, asks⟩
    obtain ⟨among, onNode⟩ := mem_filter.mp assigned
    obtain ⟨asked, listed, i, chosen, named, target⟩ := built.placed_of_assigned among
    obtain rfl := built.demand_eq present listed (same.trans named)
    obtain ⟨state, there, -, -⟩ := built.suits chosen
    have sameID : node.id = state.node.id := by
      simp only at there
      rw [← of_decide_eq_true onNode, target]
      simp [nodeID, there]
    obtain rfl := built.node_eq mem there sameID
    obtain ⟨final, places, -⟩ := built.places
    rw [built.exactLoad_eq there]
    exact places.capacity there known ⟨_, mem_placedOn.mpr chosen, asks⟩
  loads := built.loads_eq
  reserved := by
    intro load mem node listed same axis
    obtain ⟨i, state, present, rfl⟩ := built.load_cases mem
    obtain rfl := built.node_eq listed present (by simpa [nodeLoad] using same)
    rw [built.exactLoad_eq present]
    exact on_roundResources _ axis
  workloads := by
    intro load mem node listed same
    obtain ⟨i, state, present, rfl⟩ := built.load_cases mem
    obtain rfl := built.node_eq listed present (by simpa [nodeLoad] using same)
    exact (sortSlice_perm _ _).trans (built.workloads_perm present)

end Built

/-- **Every feasible answer is one valid layout.**  For every snapshot with distinct node
IDs and every question with distinct workloads: if the planner says feasible, there is
exactly one option, and it is valid, whichever pass found it. -/
theorem feasible_is_valid (platform : Platform) (ctx : ℕ → Option String) (snapshot : Snapshot)
    (problem : Problem) (nodes : (snapshot.nodes.map Node.id).Nodup)
    (demands : (problem.demands.map Demand.workload).Nodup) (result : Result)
    (planned : plan platform ctx snapshot problem = .ok result)
    (feasible : result.outcome = .feasible) :
    ∃ option, result.options = [option] ∧ Valid platform snapshot problem option := by
  cases answer_of_plan planned with
  | noNode _ idle | gaveUp _ _ _ idle => cases feasible.symm.trans idle.outcome
  | conflicts _ _ refused | exhausted _ _ _ refused =>
    rcases refused.infeasible_or with outcome | outcome <;> cases feasible.symm.trans outcome
  | @placed placing final placements places covers same _ options =>
    have built : Built platform snapshot problem placing (sealOption platform
        (buildOption final placements) snapshot.digest problem.digest) :=
      ⟨nodes, demands, covers, ⟨final, places, rfl⟩, core_buildOption places same⟩
    exact ⟨_, options, built.valid⟩

/-! ### A household -/

namespace Sample

/-- Texts that fold to each other are equal ones here, and the digests say nothing. -/
def plain : Platform where
  equalFold := fun a b => a == b
  digestProposal := fun _ => "sha256:proposal"
  digestResult := fun _ => "sha256:result"

/-- A connected server of the owner with some RAM. -/
def server (id : String) (ram : ℚ) : Node :=
  { id := id, name := id, trustClass := .ownerControlled, state := .connected,
    capacity := ⟨4, ram, 100⟩ }

/-- Two servers; on the larger one something runs already. -/
def home : Snapshot where
  nodes := [server "attic" 9, server "cellar" 5]
  components := [{ workload := "dns", nodeID := "attic", management := .managed,
                   reservation := ⟨0, 1, 0⟩ }]
  digest := "sha256:home"

/-- A demand that reserves RAM. -/
def app (workload : String) (ram : ℚ) : Demand :=
  { workload := workload, reservation := ⟨0, ram, 0⟩ }

/-- Apps that fill both servers, one of them bound to a server.  Largest first leaves the
last one over; the repack finds room. -/
def apps : Problem where
  snapshotDigest := "sha256:home"
  demands := [app "photos" 4, app "files" 3, app "music" 3, app "notes" 2,
    app "lamp" 1]
  pins := [⟨"lamp", "attic", ""⟩]

/-- The outcome of an answer. -/
def outcome (answer : Except String Result) : Option Outcome :=
  answer.toOption.map Result.outcome

lemma exists_of_outcome {answer : Except String Result} {expected : Outcome}
    (known : outcome answer = some expected) :
    ∃ result, answer = .ok result ∧ result.outcome = expected := by
  cases answer with
  | error err => cases known
  | ok result => exact ⟨result, rfl, Option.some.inj known⟩

end Sample

theorem feasible_is_valid_repacked :
    (greedy Sample.plain (pinsOf Sample.apps.pins) (eligibleNodes Sample.home).states
        (searchDemands Sample.apps)).failed ≠ [] ∧
      ∃ result option, plan Sample.plain (fun _ => none) Sample.home Sample.apps = .ok result ∧
        result.options = [option] ∧ Valid Sample.plain Sample.home Sample.apps option := by
  refine ⟨by decide +kernel, ?_⟩
  obtain ⟨result, planned, feasible⟩ := Sample.exists_of_outcome
    (by decide +kernel : Sample.outcome (plan Sample.plain (fun _ => none) Sample.home
      Sample.apps) = some .feasible)
  obtain ⟨option, only, valid⟩ := feasible_is_valid Sample.plain (fun _ => none) Sample.home
    Sample.apps (by decide) (by decide) result planned feasible
  exact ⟨result, option, planned, only, valid⟩

end TechStack.Layout
