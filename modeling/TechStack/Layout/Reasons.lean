import TechStack.Layout.Types
import TechStack.Lib.Text

/-!
# Reasons

`explain.go`: the facts a result carries about its own making.  A fact is a code with
parameters; its text is the template of the code with the parameters filled in.  They are
filled in one after the other, by key, so a later one also fills a hole in the text of an earlier.
-/

namespace TechStack.Layout

open Std Lib

/-- The codes of `reasonTemplates`: why a workload landed where it did, what the
evidence lacks, and why a workload cannot be placed. -/
inductive Code where
  | runsOnAlwaysOn
  | prefersAlwaysOn
  | avoidsPartTime
  | importantTightFit
  | keptApart
  | tightFit
  | verifiedHardware
  | equalChoice
  | onlyFittingNode
  | profileNotMeasured
  | pinned
  | withUseCase
  | repacked
  | usesAccelerator
  | measuredReservation
  | estimatedProfile
  | evidenceUnverified
  | nodeNotOwnerControlled
  | nodeNotConnected
  | nodeCapacityUnknown
  | noEligibleNode
  | infeasibilityUnprovenUnknownNode
  | needsMoreRam
  | needsMoreCpu
  | needsMoreStorage
  | missingAccelerator
  | pinnedNodeLacksRoom
  | noNodeMeetsRequirements
  | selectionExceedsFreeRam
  | noCombinationFits
  deriving DecidableEq

/-- `reasonTemplates`. -/
def reasonTemplates : Code → String
  | .runsOnAlwaysOn =>
    "\x7btitle\x7d is important, so it runs on \x7bnode\x7d: it has been on around the " ++
      "clock."
  | .prefersAlwaysOn =>
    "\x7btitle\x7d runs on \x7bnode\x7d because it has been on around the clock."
  | .avoidsPartTime => "\x7btitle\x7d avoids \x7brival\x7d, which is often switched off."
  | .importantTightFit =>
    "\x7btitle\x7d is important and small, so it shares \x7bnode\x7d with your other " ++
      "important apps and leaves \x7brival\x7d free for heavier ones."
  | .keptApart =>
    "\x7btitle\x7d runs on \x7bnode\x7d, apart from your important apps, so its load " ++
      "cannot slow them down."
  | .tightFit =>
    "\x7bnode\x7d has room for \x7btitle\x7d and keeps more space free on \x7brival\x7d."
  | .verifiedHardware =>
    "The hardware facts \x7btitle\x7d depends on are confirmed for \x7bnode\x7d."
  | .equalChoice =>
    "\x7bnode\x7d and \x7brival\x7d suit \x7btitle\x7d equally well; kombify picked " ++
      "\x7bnode\x7d."
  | .onlyFittingNode => "\x7bnode\x7d is the only server that meets what \x7btitle\x7d needs."
  | .profileNotMeasured =>
    "kombify has not measured \x7btitle\x7d yet, so it stays on your main server " ++
      "\x7bnode\x7d."
  | .pinned => "\x7btitle\x7d stays on \x7bnode\x7d."
  | .withUseCase =>
    "\x7btitle\x7d adds to the use case that already runs on \x7bnode\x7d, so it runs " ++
      "there too."
  | .repacked => "\x7btitle\x7d runs on \x7bnode\x7d so that every selected app fits."
  | .usesAccelerator =>
    "\x7btitle\x7d needs a \x7bvendor\x7d graphics card, which \x7bnode\x7d has."
  | .measuredReservation =>
    "kombify measured \x7btitle\x7d: it reserves \x7bram\x7d GB of memory."
  | .estimatedProfile => "kombify has not measured \x7btitle\x7d yet; its size is an estimate."
  | .evidenceUnverified =>
    "\x7bnode\x7d has not reported every hardware fact yet (\x7bmissing\x7d)."
  | .nodeNotOwnerControlled => "\x7bnode\x7d is not owner-controlled, so no app is placed on it."
  | .nodeNotConnected => "\x7bnode\x7d is not connected, so it is left out."
  | .nodeCapacityUnknown => "\x7bnode\x7d has not reported its hardware yet, so it is left out."
  | .noEligibleNode => "No connected server has reported its hardware yet."
  | .infeasibilityUnprovenUnknownNode =>
    "A server that has not reported its hardware yet might still fit; kombify cannot say " ++
      "yet."
  | .needsMoreRam =>
    "\x7btitle\x7d needs \x7bneed\x7d GB of memory; the most any server has free is " ++
      "\x7blargest\x7d GB."
  | .needsMoreCpu =>
    "\x7btitle\x7d needs \x7bneed\x7d CPU cores; the largest server has \x7blargest\x7d."
  | .needsMoreStorage =>
    "\x7btitle\x7d needs \x7bneed\x7d GB of storage; the most any server has free is " ++
      "\x7blargest\x7d GB."
  | .missingAccelerator =>
    "\x7btitle\x7d needs a \x7bvendor\x7d graphics card; no server has one."
  | .pinnedNodeLacksRoom => "The server \x7btitle\x7d is bound to has no room for it."
  | .noNodeMeetsRequirements => "No server meets what \x7btitle\x7d needs."
  | .selectionExceedsFreeRam =>
    "The selected apps reserve \x7bneed\x7d GB of memory; your servers have \x7bfree\x7d " ++
      "GB free."
  | .noCombinationFits => "No way of distributing the selected apps fits all of them."

/-- A map of texts. -/
abbrev Params := ExtTreeMap String String compare

/-- One trace fact. -/
structure Reason where
  code : Code
  params : Params
  text : String

/-- `params[key]` of a Go map: the empty text when there is none. -/
def Params.at (params : Params) (key : String) : String := params.getD key ""

/-- `render`: the parameters are filled in by key. -/
def render (code : Code) (params : Params) : String :=
  params.foldl (fun text key value => text.replace ("\x7b" ++ key ++ "\x7d") value)
    (reasonTemplates code)

/-- `reason`: a workload without a title stands for itself. -/
def reason (code : Code) (params : Params) : Reason :=
  let params :=
    if params.at "title" = "" ∧ params.at "workload" ≠ "" then
      params.insert "title" (params.at "workload")
    else params
  ⟨code, params, render code params⟩

/-- `merge`: the second map wins. -/
def merge (a b : Params) : Params :=
  b.foldl (fun out key value => out.insert key value) a

/-- `formatGB`. -/
def formatGB (value : ℚ) : String := twoPlaces value

/-- `formatCores`. -/
def formatCores (value : ℚ) : String := twoPlaces value

/-- `demandTitle`. -/
def demandTitle (demand : Demand) : String :=
  if !blank demand.title then demand.title else demand.workload

/-- What decided a placement: the key on which the best node differs from the
runner-up. -/
inductive Decisive where
  | only
  | repack
  | availability
  | isolation
  | verified
  | fit
  | order

/-- What `fits` checks of a node. -/
inductive Requirement where
  | cpu
  | ram
  | storage
  | cpuReservation
  | roles
  | cpuMicroarchitecture
  | cpuArchitecture
  | accelerator
  | acceleratorVendor
  | acceleratorDriver
  deriving DecidableEq

/-- The requirement as it is written. -/
def Requirement.name : Requirement → String
  | .cpu => "cpu"
  | .ram => "ram"
  | .storage => "storage"
  | .cpuReservation => "cpu_reservation"
  | .roles => "roles"
  | .cpuMicroarchitecture => "cpu_microarchitecture"
  | .cpuArchitecture => "cpu_architecture"
  | .accelerator => "accelerator"
  | .acceleratorVendor => "accelerator_vendor"
  | .acceleratorDriver => "accelerator_driver"

/-- `placement`: a demand on the node of an index, and what is known about the choice. -/
structure Placement where
  demand : Demand
  node : ℕ
  decisive : Decisive
  rivals : List String := []
  unknown : List Requirement := []
  pinned : Bool

/-- The first reason of a placement. -/
def placedBecause (placed : Placement) (node : Node) : Code :=
  let demand := placed.demand
  if placed.pinned ∧ demand.pinReason = "with_use_case" then .withUseCase
  else if placed.pinned ∧ demand.provenance ≠ .measured then .profileNotMeasured
  else if placed.pinned then .pinned
  else match placed.decisive with
    | .only => .onlyFittingNode
    | .repack => .repacked
    | .availability =>
      if node.availability = .alwaysOn ∧ demand.band = .important then .runsOnAlwaysOn
      else if node.availability = .alwaysOn then .prefersAlwaysOn
      else .avoidsPartTime
    | .isolation => .keptApart
    | .verified => .verifiedHardware
    | .fit => if demand.band = .important then .importantTightFit else .tightFit
    | .order => .equalChoice

/-- `explainPlacement`. -/
def explainPlacement (placed : Placement) (node : Node) : List Reason :=
  let demand := placed.demand
  let base : Params := (((∅ : Params).insert "workload" demand.workload).insert "title"
    (demandTitle demand)).insert "node" node.name
  let params := match placed.rivals with
    | rival :: _ => base.insert "rival" rival
    | [] => base
  let accelerator := match demand.accelerator with
    | some gpu => [reason .usesAccelerator (merge params ((∅ : Params).insert "vendor" gpu.vendor))]
    | none => []
  let estimated :=
    if demand.provenance ≠ .measured ∧ (!placed.pinned ∨ demand.pinReason = "with_use_case") then
      [reason .estimatedProfile params]
    else []
  let measured :=
    if demand.provenance = .measured ∧ demand.reservation.ramGB > 0 then
      [reason .measuredReservation
        (merge params ((∅ : Params).insert "ram" (formatGB demand.reservation.ramGB)))]
    else []
  let unverified :=
    if placed.unknown ≠ [] then
      [reason .evidenceUnverified (merge params ((∅ : Params).insert "missing"
        (", ".intercalate (placed.unknown.map Requirement.name))))]
    else []
  [reason (placedBecause placed node) params] ++ accelerator ++ estimated ++ measured ++ unverified

end TechStack.Layout
