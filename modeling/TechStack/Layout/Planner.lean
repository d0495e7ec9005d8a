import TechStack.Layout.Reasons
import TechStack.Lib.Backtrack

/-!
# The best-fit planner

`planner.go`: eligible nodes with their base load, best-fit-decreasing inside the
household bands, and, when that leaves a demand over, three arguments in turn: a demand
that no node could host alone, a selection that needs more RAM than is free, and a
bounded depth-first repack.

The node states that the source mutates are passed along as a list; a node is its
index in it.  `strings.EqualFold` and the digests of the sealed answer are parameters.
-/

namespace TechStack.Layout

open Std Lib

/-- `Assignment`. -/
structure Assignment where
  workload : String
  workloads : List String
  goal : String
  modules : List String
  nodeID : String
  specNodeRef : String
  band : Band
  provenance : Provenance
  reservation : Resources
  reasons : List Reason

/-- `NodeLoad`. -/
structure NodeLoad where
  nodeID : String
  capacity : Resources
  reserved : Resources
  workloads : List String

/-- `Option`: one complete layout. -/
structure LayoutOption where
  id : String
  assignments : List Assignment
  loads : List NodeLoad
  digest : String := ""

/-- `Conflict`: why a workload cannot be placed. -/
structure Conflict where
  workload : String
  reasons : List Reason

/-- `Result`, without the planner's own name and version. -/
structure Result where
  apiVersion : String := ""
  kind : String := ""
  snapshotDigest : String
  problemDigest : String
  outcome : Outcome
  options : List LayoutOption := []
  conflicts : List Conflict := []
  notes : List Reason := []
  work : ℕ := 0
  digest : String := ""

/-- What `sealOption` digests of an assignment. -/
structure ProposalAssignment where
  workload : String
  modules : List String
  nodeID : String
  reservation : Resources

/-- What `sealOption` digests. -/
structure Proposal where
  snapshot : String
  problem : String
  assignments : List ProposalAssignment

/-- What the planner takes from the standard library: the comparison of texts under
case folding, and `digestJSON` on the two values it is used for. -/
structure Platform where
  equalFold : String → String → Bool
  digestProposal : Proposal → String
  digestResult : Result → String

/-- `1e-9`. -/
def tolerance : ℚ := 1 / 1000000000

/-- `DefaultWorkBudget`. -/
def defaultWorkBudget : ℕ := 20000

/-- A node during the search.  The base is the node before the new selection. -/
structure NodeState where
  node : Node
  load : Resources := {}
  important : ℤ := 0
  workloads : List String := []
  baseLoad : Resources := {}
  baseImportant : ℤ := 0
  baseWorkloads : List String := []
  deriving DecidableEq

/-- `nodeState.reset`. -/
def NodeState.reset (state : NodeState) : NodeState :=
  { state with
    load := state.baseLoad
    important := state.baseImportant
    workloads := state.baseWorkloads }

/-- A stable sort by a comparison of Go's `sort` package, which says what comes strictly
first. -/
def sortSlice {α : Type} (less : α → α → Bool) (l : List α) : List α :=
  l.insertionSort fun a b => less b a = false

/-! ### Eligible nodes -/

/-- What becomes of a node of the snapshot: a state, or a note and whether the node
might still host something. -/
def classify (node : Node) : Except (Reason × Bool) NodeState :=
  let params := (∅ : Params).insert "node" node.name
  if node.trustClass ≠ .ownerControlled then .error (reason .nodeNotOwnerControlled params, false)
  else if node.state ≠ .connected ∧ node.state ≠ .planned then
    .error (reason .nodeNotConnected params, true)
  else if node.capacity.ramGB ≤ 0 ∨ node.capacity.cpuCores ≤ 0 then
    .error (reason .nodeCapacityUnknown params, true)
  else .ok { node := node }

/-- `index`: the last node of an ID. -/
def indexNodes (states : List NodeState) : ExtTreeMap String ℕ compare :=
  states.zipIdx.foldl (fun index entry => index.insert entry.1.node.id entry.2) ∅

/-- The loop over the components: reservations of managed ones by node, and what runs
on each node. -/
def addComponent (index : ExtTreeMap String ℕ compare)
    (acc : ExtTreeMap String Resources compare × List NodeState) (component : Component) :
    ExtTreeMap String Resources compare × List NodeState :=
  match index[component.nodeID]? with
  | none => acc
  | some i =>
    let managed :=
      if component.management = .managed then
        acc.1.insert component.nodeID
          ((acc.1.getD component.nodeID {}).add component.reservation)
      else acc.1
    (managed, acc.2.modify i fun state =>
      { state with
        important := if component.band = .important then state.important + 1 else state.important
        workloads := state.workloads ++ [component.workload] })

/-- Observed usage already contains what managed components consume: the larger of the
two counts, never both. -/
def withBase (managed : ExtTreeMap String Resources compare) (state : NodeState) : NodeState :=
  let base := managed.getD state.node.id {}
  let base := match state.node.usage with
    | some usage => base.max usage
    | none => base
  NodeState.reset
    { state with
      baseLoad := base
      baseImportant := state.important
      baseWorkloads := state.workloads }

/-- What `eligibleNodes` returns. -/
structure Eligible where
  states : List NodeState
  notes : List Reason
  excludedUnknown : Bool

/-- `eligibleNodes`. -/
def eligibleNodes (snapshot : Snapshot) : Eligible :=
  let classified := snapshot.nodes.map classify
  let states := classified.filterMap Except.toOption
  let excluded := classified.filterMap fun
    | .error note => some note
    | .ok _ => none
  let (managed, states) :=
    snapshot.components.foldl (addComponent (indexNodes states)) (∅, states)
  { states := states.map (withBase managed)
    notes := excluded.map Prod.fst
    excludedUnknown := excluded.any Prod.snd }

/-! ### Demands and pins -/

/-- `pins[pin.Workload] = pin.NodeID`: the last pin of a workload counts. -/
def pinsOf (pins : List Pin) : Params :=
  pins.foldl (fun acc pin => acc.insert pin.workload pin.nodeID) ∅

/-- `reasons[pin.Workload] = pin.Reason`. -/
def reasonsOf (pins : List Pin) : Params :=
  pins.foldl (fun acc pin => acc.insert pin.workload pin.reason) ∅

/-- The comparison of `orderedDemands`: by band, pinned ones first, the larger first. -/
def demandLess (pins : Params) (a b : Demand) : Bool :=
  if bandRank a.band ≠ bandRank b.band then bandRank a.band < bandRank b.band
  else if pins.contains a.workload ≠ pins.contains b.workload then pins.contains a.workload
  else if a.reservation.ramGB ≠ b.reservation.ramGB then
    a.reservation.ramGB > b.reservation.ramGB
  else if a.reservation.cpuCores ≠ b.reservation.cpuCores then
    a.reservation.cpuCores > b.reservation.cpuCores
  else if a.reservation.storageGB ≠ b.reservation.storageGB then
    a.reservation.storageGB > b.reservation.storageGB
  else a.workload < b.workload

/-- `orderedDemands`. -/
def orderedDemands (demands : List Demand) (pins : Params) : List Demand :=
  sortSlice (demandLess pins) demands

/-! ### What fits where -/

/-- What a check finds lacking, and what it cannot tell. -/
structure Findings where
  shortfall : List Requirement := []
  unknown : List Requirement := []

/-- Findings of one check after the other. -/
def Findings.join (findings : List Findings) : Findings :=
  ⟨findings.flatMap Findings.shortfall, findings.flatMap Findings.unknown⟩

/-- `check`: a floor against the whole host, a reservation against what is left. -/
def check (requirement : Requirement) (total used minimum need : ℚ) : Findings :=
  if minimum = 0 ∧ need = 0 then {}
  else if total ≤ 0 then { unknown := [requirement] }
  else if total < minimum ∨ total - used < need - tolerance then { shortfall := [requirement] }
  else {}

section Fits

variable (platform : Platform)

/-- `containsRole`. -/
def containsRole (roles : List String) (role : String) : Bool :=
  roles.any fun candidate => platform.equalFold candidate role

/-- The loop over the required roles, which stops at the first that is not met. -/
def checkRoles (roles : List String) : List String → Findings
  | [] => {}
  | role :: rest =>
    if roles = [] then { unknown := [.roles] }
    else if !containsRole platform roles role then { shortfall := [.roles] }
    else checkRoles roles rest

/-- The microarchitecture level. -/
def checkLevel (level : ℤ) (node : Node) : Findings :=
  if level > 0 ∧ platform.equalFold node.arch "amd64" then
    if node.amd64Level = 0 then { unknown := [.cpuMicroarchitecture] }
    else if node.amd64Level < level then { shortfall := [.cpuMicroarchitecture] }
    else {}
  else if level > 0 ∧ node.arch = "" then { unknown := [.cpuArchitecture] }
  else {}

/-- The graphics card. -/
def checkAccelerator (node : Node) : Option AcceleratorDemand → Findings
  | none => {}
  | some gpu =>
    match node.accelerator with
    | none => { shortfall := [.accelerator] }
    | some observed =>
      if observed.vendor = "" then { unknown := [.acceleratorVendor] }
      else if !platform.equalFold observed.vendor gpu.vendor then
        { shortfall := [.accelerator] }
      else if gpu.minDriverMajor > 0 ∧ observed.driverMajor = 0 then
        { unknown := [.acceleratorDriver] }
      else if gpu.minDriverMajor > 0 ∧ observed.driverMajor < gpu.minDriverMajor then
        { shortfall := [.acceleratorDriver] }
      else {}

/-- `fits`. -/
def fits (demand : Demand) (state : NodeState) : Findings :=
  let capacity := state.node.capacity
  let floor := demand.hostFloor
  .join
    [check .cpu capacity.cpuCores state.load.cpuCores floor.resources.cpuCores
        demand.reservation.cpuCores,
      check .ram capacity.ramGB state.load.ramGB floor.resources.ramGB demand.reservation.ramGB,
      check .storage capacity.storageGB state.load.storageGB floor.resources.storageGB
        demand.reservation.storageGB,
      if demand.cpuUnspecified then { unknown := [.cpuReservation] } else {},
      checkRoles platform state.node.roles demand.requiresRoles,
      checkLevel platform floor.amd64Level state.node,
      checkAccelerator platform state.node demand.accelerator]

/-! ### Ranking -/

/-- A node that can host a demand, with the keys it is ranked by. -/
structure Candidate where
  index : ℕ
  keys : List ℚ
  labels : List Decisive
  unknown : List Requirement

/-- `math.Round(v*1000) / 1000`. -/
def roundThousandth (value : ℚ) : ℚ := roundHalfAway (value * 1000) / 1000

/-- `rankedCandidate`. -/
def rankedCandidate (index : ℕ) (state : NodeState) (demand : Demand)
    (unknown : List Requirement) : Candidate :=
  let availability : ℚ := availabilityRank state.node.availability
  let isolation : ℚ := if state.important > 0 then 1 else 0
  let verified : ℚ := if unknown ≠ [] then 1 else 0
  let left := roundThousandth
    (state.node.capacity.ramGB - state.load.ramGB - demand.reservation.ramGB)
  let cpuLeft := roundThousandth
    (state.node.capacity.cpuCores - state.load.cpuCores - demand.reservation.cpuCores)
  match demand.band with
  | .important =>
    ⟨index, [availability, verified, left, cpuLeft],
      [.availability, .verified, .fit, .fit], unknown⟩
  | .standard =>
    ⟨index, [availability, isolation, verified, left, cpuLeft],
      [.availability, .isolation, .verified, .fit, .fit], unknown⟩
  | _ =>
    ⟨index, [isolation, verified, left, cpuLeft],
      [.isolation, .verified, .fit, .fit], unknown⟩

/-- The first key on which two candidates differ decides. -/
def keysLess : List ℚ → List ℚ → Option Bool
  | a :: as, b :: bs => if a ≠ b then some (a < b) else keysLess as bs
  | _, _ => none

variable (states : List NodeState)

/-- `states[index].node.ID`. -/
def nodeID (index : ℕ) : String :=
  (states[index]?.map (·.node.id)).getD ""

/-- The comparison of `rankCandidates`: by keys, then by node ID. -/
def candidateLess (a b : Candidate) : Bool :=
  match keysLess a.keys b.keys with
  | some less => less
  | none => nodeID states a.index < nodeID states b.index

variable (pins : Params)

/-- The node, if its pin and its room allow the demand. -/
def candidateAt (demand : Demand) (state : NodeState) (index : ℕ) : Option Candidate :=
  let pinned := pins.at demand.workload
  if pinned ≠ "" ∧ state.node.id ≠ pinned then none
  else
    let found := fits platform demand state
    if found.shortfall ≠ [] then none
    else some (rankedCandidate index state demand found.unknown)

/-- `rankCandidates`. -/
def rankCandidates (states : List NodeState) (demand : Demand) : List Candidate :=
  sortSlice (candidateLess states)
    (states.zipIdx.filterMap fun entry => candidateAt platform pins demand entry.1 entry.2)

/-! ### The greedy pass -/

/-- `commit`. -/
def commit (state : NodeState) (demand : Demand) : NodeState :=
  { state with
    load := state.load.add demand.reservation
    important := if demand.band = .important then state.important + 1 else state.important
    workloads := state.workloads ++ [demand.workload] }

/-- `uncommit`. -/
def uncommit (state : NodeState) (demand : Demand) : NodeState :=
  { state with
    load := state.load.sub demand.reservation
    important := if demand.band = .important then state.important - 1 else state.important
    workloads := state.workloads.dropLast }

/-- `commit(states[index], demand)`. -/
def commitAt (demand : Demand) (index : ℕ) : List NodeState :=
  states.modify index fun state => commit state demand

/-- `uncommit(states[index], demand)`. -/
def uncommitAt (demand : Demand) (index : ℕ) : List NodeState :=
  states.modify index fun state => uncommit state demand

/-- `decisiveKey`. -/
def decisiveKey (best runnerUp : Candidate) : Decisive :=
  let keyed := (best.keys.zip runnerUp.keys).zip best.labels
  match keyed.find? fun entry => entry.1.1 ≠ entry.1.2 with
  | some entry => entry.2
  | none => .order

/-- The placement of a demand on the best of its candidates. -/
def bestPlacement (states : List NodeState) (demand : Demand)
    (best : Candidate) (others : List Candidate) : Placement :=
  { demand := demand
    node := best.index
    unknown := best.unknown
    pinned := pins.at demand.workload ≠ ""
    decisive := match others with
      | [] => .only
      | runnerUp :: _ => decisiveKey best runnerUp
    rivals := match others with
      | [] => []
      | runnerUp :: _ => [((states[runnerUp.index]?.map (·.node.name)).getD "")] }

/-- What a pass over the demands leaves. -/
structure Greedy where
  states : List NodeState
  placements : List Placement
  failed : List Demand

/-- `greedy`. -/
def greedy (pins : Params) : List NodeState → List Demand → Greedy
  | states, [] => ⟨states, [], []⟩
  | states, demand :: rest =>
    match rankCandidates platform pins states demand with
    | [] =>
      let after := greedy pins states rest
      { after with failed := demand :: after.failed }
    | best :: others =>
      let after := greedy pins (commitAt states demand best.index) rest
      { after with
        placements := bestPlacement pins states demand best others :: after.placements }

/-! ### Infeasibility -/

/-- The nodes a demand may be placed on, as far as its pin goes. -/
def allowedNodes (pinned : String) (states : List NodeState) : List NodeState :=
  states.filter fun state => !(pinned ≠ "" ∧ state.node.id ≠ pinned)

/-- `shortfallReasons`. -/
def shortfallReasons (demand : Demand) (states : List NodeState) (pinned : String) :
    List Reason :=
  let allowed := allowedNodes pinned states
  let largest := allowed.foldl (fun (largest : Resources) state => largest.max
    ⟨state.node.capacity.cpuCores, state.node.capacity.ramGB - state.load.ramGB,
      state.node.capacity.storageGB - state.load.storageGB⟩) {}
  let vendors := allowed.filterMap fun state =>
    state.node.accelerator.bind fun gpu => if gpu.vendor ≠ "" then some gpu.vendor else none
  let params := ((∅ : Params).insert "workload" demand.workload).insert "title"
    (demandTitle demand)
  let needs (code : Code) (format : ℚ → String) (axis : Axis) : List Reason :=
    let need := Max.max (demand.hostFloor.resources.on axis) (demand.reservation.on axis)
    if need > largest.on axis + tolerance then
      [reason code (merge params (((∅ : Params).insert "need" (format need)).insert "largest"
        (format (largest.on axis))))]
    else []
  let accelerator := match demand.accelerator with
    | some gpu =>
      if vendors.any fun vendor => platform.equalFold vendor gpu.vendor then []
      else [reason .missingAccelerator
        (merge params ((∅ : Params).insert "vendor" gpu.vendor))]
    | none => []
  let found := needs .needsMoreRam formatGB .ram ++ needs .needsMoreCpu formatCores .cpu ++
    needs .needsMoreStorage formatGB .storage ++ accelerator ++
    (if pinned ≠ "" then [reason .pinnedNodeLacksRoom params] else [])
  if found = [] then [reason .noNodeMeetsRequirements params] else found

/-- A failed demand that no node could host even before the new selection. -/
def hostConflict (base : List NodeState) (demand : Demand) : Option Conflict :=
  let pinned := pins.at demand.workload
  if (allowedNodes pinned base).any fun state => (fits platform demand state).shortfall = [] then
    none
  else some ⟨demand.workload, shortfallReasons platform demand base pinned⟩

/-- The RAM that the whole selection reserves. -/
def neededRAM (demands : List Demand) : ℚ :=
  (demands.map fun demand => demand.reservation.ramGB).sum

/-- The RAM that the nodes have left. -/
def freeRAM : ℚ :=
  (states.map fun state => Max.max 0 (state.node.capacity.ramGB - state.load.ramGB)).sum

/-- `provenConflicts`. -/
def provenConflicts (states : List NodeState) (demands failed : List Demand) : List Conflict :=
  let base := states.map NodeState.reset
  let conflicts := failed.filterMap (hostConflict platform pins base)
  if conflicts ≠ [] then conflicts
  else if neededRAM demands > freeRAM base + tolerance then
    failed.map fun demand => ⟨demand.workload, [reason .selectionExceedsFreeRam
      (((∅ : Params).insert "need" (formatGB (neededRAM demands))).insert "free"
        (formatGB (freeRAM base)))]⟩
  else []

/-! ### The repack search -/

/-- The moves of `repack`: the same ranking, with the commits undone on the way back. -/
def moves : Backtrack.Moves (List NodeState) Demand Candidate where
  candidates := rankCandidates platform pins
  commit := fun states demand candidate => commitAt states demand candidate.index
  uncommit := fun states demand candidate => uncommitAt states demand candidate.index

/-- `ctx.Err()`, as the search sees it when it has done some work: the context is asked
once in 256 node visits. -/
def cancelled (ctx : ℕ → Option String) (work : ℕ) : Option String :=
  if work % 256 = 0 then (ctx work).map ("layout: repack cancelled: " ++ ·) else none

/-- What `repack` returns, with the states as it leaves them. -/
structure Repacked where
  states : List NodeState
  found : Option (List Placement)
  exhausted : Bool
  work : ℕ

/-- The placement of a choice of the search. -/
def repackPlacement (choice : Demand × Candidate) : Placement :=
  { demand := choice.1
    node := choice.2.index
    decisive := .repack
    unknown := choice.2.unknown
    pinned := pins.at choice.1.workload ≠ "" }

/-- `repack`. -/
def repack (ctx : ℕ → Option String) (pins : Params) (states : List NodeState)
    (demands : List Demand) (budget : ℕ) : Except String Repacked :=
  match Backtrack.walk (moves platform pins) budget (cancelled ctx) demands
      ⟨states.map NodeState.reset, 0, []⟩ with
  | .error err => .error err
  | .ok (true, search) =>
    .ok ⟨search.state, some (search.chosen.map (repackPlacement pins)), false, search.work⟩
  | .ok (false, search) => .ok ⟨search.state, none, search.work < budget, search.work⟩

/-! ### The answer -/

/-- `roundResources`. -/
def roundResources (r : Resources) : Resources :=
  ⟨roundThousandth r.cpuCores, roundThousandth r.ramGB, roundThousandth r.storageGB⟩

/-- The assignment of a placement on its node. -/
def assignment (placed : Placement) (node : Node) : Assignment :=
  let demand := placed.demand
  { workload := demand.workload
    workloads := demand.workloads
    goal := demand.goal
    modules := demand.modules
    nodeID := node.id
    specNodeRef := node.specNodeRef
    band := demand.band
    provenance := demand.provenance
    reservation := demand.reservation
    reasons := explainPlacement placed node }

/-- The load of a node. -/
def nodeLoad (state : NodeState) : NodeLoad :=
  { nodeID := state.node.id
    capacity := state.node.capacity
    reserved := roundResources state.load
    workloads := sortSlice (fun a b => a < b) state.workloads }

/-- `buildOption`. -/
def buildOption (placements : List Placement) : LayoutOption :=
  { id := "recommended"
    assignments := sortSlice (fun a b => a.workload < b.workload)
      (placements.filterMap fun placed =>
        states[placed.node]?.map fun state => assignment placed state.node)
    loads := states.map nodeLoad }

/-- `sealOption`. -/
def sealOption (option : LayoutOption) (snapshotDigest problemDigest : String) : LayoutOption :=
  { option with
    digest := platform.digestProposal
      { snapshot := snapshotDigest
        problem := problemDigest
        assignments := sortSlice (fun a b => a.workload < b.workload)
          (option.assignments.map fun a => ⟨a.workload, a.modules, a.nodeID, a.reservation⟩) } }

/-- `sealResult`. -/
def sealResult (result : Result) : Result :=
  let result :=
    { result with
      apiVersion := "techstack.kombify.io/layout-result/v1"
      kind := "LayoutResult" }
  { result with digest := platform.digestResult { result with digest := "" } }

/-- An answer that proves infeasibility, unless a node was left out for lack of
evidence: such a node might still host the selection. -/
def infeasible (result : Result) (excludedUnknown : Bool) (conflicts : List Conflict) : Result :=
  if excludedUnknown then
    { result with
      conflicts := conflicts
      outcome := .unknown
      notes := result.notes ++ [reason .infeasibilityUnprovenUnknownNode ∅] }
  else { result with conflicts := conflicts, outcome := .provenInfeasible }

/-- The answer with one option. -/
def feasible (snapshot : Snapshot) (problem : Problem) (result : Result)
    (states : List NodeState) (placements : List Placement) : Result :=
  sealResult platform
    { result with
      outcome := .feasible
      options := [sealOption platform (buildOption states placements) snapshot.digest
        problem.digest] }

/-- The demands as the search takes them: in order, with the reason of their pin. -/
def searchDemands (problem : Problem) : List Demand :=
  let reasons := reasonsOf problem.pins
  (orderedDemands problem.demands (pinsOf problem.pins)).map fun demand =>
    { demand with pinReason := reasons.at demand.workload }

/-- `problem.WorkBudget`, or the default. -/
def budgetOf (problem : Problem) : ℕ :=
  if problem.workBudget ≤ 0 then defaultWorkBudget else problem.workBudget.toNat

/-- `BestFit.Plan`. -/
def plan (ctx : ℕ → Option String) (snapshot : Snapshot) (problem : Problem) :
    Except String Result :=
  if problem.snapshotDigest ≠ snapshot.digest then
    .error "layout: problem was built for a different snapshot"
  else
    let eligible := eligibleNodes snapshot
    let result : Result :=
      { snapshotDigest := snapshot.digest
        problemDigest := problem.digest
        outcome := .unknown
        notes := eligible.notes }
    if eligible.states = [] then
      .ok (sealResult platform
        { result with notes := result.notes ++ [reason .noEligibleNode ∅] })
    else
      let pins := pinsOf problem.pins
      let demands := searchDemands problem
      let pass := greedy platform pins eligible.states demands
      if pass.failed = [] then
        .ok (feasible platform snapshot problem result pass.states pass.placements)
      else
        let conflicts := provenConflicts platform pins pass.states demands pass.failed
        if conflicts ≠ [] then
          .ok (sealResult platform (infeasible result eligible.excludedUnknown conflicts))
        else
          match repack platform ctx pins pass.states demands (budgetOf problem) with
          | .error err => .error err
          | .ok search =>
            let result := { result with work := search.work }
            match search.found with
            | some placements =>
              .ok (feasible platform snapshot problem result search.states placements)
            | none =>
              if search.exhausted then
                let conflicts := pass.failed.map fun demand =>
                  ⟨demand.workload, [reason .noCombinationFits
                    (((∅ : Params).insert "workload" demand.workload).insert "title"
                      (demandTitle demand))]⟩
                .ok (sealResult platform
                  (infeasible result eligible.excludedUnknown conflicts))
              else .ok (sealResult platform { result with outcome := .budgetExhausted })

end Fits

end TechStack.Layout
