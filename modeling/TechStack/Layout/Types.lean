import Mathlib

/-!
# The layout planner: contract

The types of `pkg/layout`: the homelab a layout is computed from (`Snapshot`), the
question asked (`Problem`) and the answer (`Result`), with the household bands.

Quantities are exact rationals.  A class that the source keeps as text is an
enumeration of the texts it names, and `other` for the rest.  Of the records only the
fields that the planner reads or returns are kept.
-/

namespace TechStack.Layout

/-- Node states. -/
inductive NodeCondition where
  | connected
  | planned
  | offline
  | other (text : String)
  deriving DecidableEq

/-- Trust classes. -/
inductive TrustClass where
  | ownerControlled
  | memberControlled
  | other (text : String)
  deriving DecidableEq

/-- Availability classes. -/
inductive Availability where
  | alwaysOn
  | partTime
  | unknown
  | other (text : String)
  deriving DecidableEq

/-- Management states of an existing component. -/
inductive Management where
  | managed
  | observed
  | other (text : String)
  deriving DecidableEq

/-- Household priority bands. -/
inductive Band where
  | important
  | standard
  | tolerant
  | other (text : String)
  deriving DecidableEq

def bandRank : Band → ℕ
  | .important => 0
  | .standard => 1
  | _ => 2

def availabilityRank : Availability → ℕ
  | .alwaysOn => 0
  | .partTime => 2
  | _ => 1

/-- The three axes of a resource vector. -/
inductive Axis where
  | cpu
  | ram
  | storage
  deriving DecidableEq

instance : Fintype Axis where
  elems := {.cpu, .ram, .storage}
  complete := fun axis => by cases axis <;> decide

/-- A CPU, RAM and storage vector in cores and GB. -/
@[ext] structure Resources where
  cpuCores : ℚ := 0
  ramGB : ℚ := 0
  storageGB : ℚ := 0
  deriving DecidableEq

namespace Resources

/-- The quantity on one axis. -/
def on (r : Resources) : Axis → ℚ
  | .cpu => r.cpuCores
  | .ram => r.ramGB
  | .storage => r.storageGB

/-- `Resources.Add`. -/
def add (r other : Resources) : Resources :=
  ⟨r.cpuCores + other.cpuCores, r.ramGB + other.ramGB, r.storageGB + other.storageGB⟩

/-- What `uncommit` takes off again. -/
def sub (r other : Resources) : Resources :=
  ⟨r.cpuCores - other.cpuCores, r.ramGB - other.ramGB, r.storageGB - other.storageGB⟩

/-- `maxFloat`. -/
def maxFloat (a b : ℚ) : ℚ := if a > b then a else b

/-- `Resources.Max`, the maximum on each axis. -/
def max (r other : Resources) : Resources :=
  ⟨maxFloat r.cpuCores other.cpuCores, maxFloat r.ramGB other.ramGB,
    maxFloat r.storageGB other.storageGB⟩

@[ext] lemma ext_on {r other : Resources} (same : ∀ axis, r.on axis = other.on axis) :
    r = other :=
  Resources.ext (same .cpu) (same .ram) (same .storage)

@[simp] lemma on_add (r other : Resources) (axis : Axis) :
    (r.add other).on axis = r.on axis + other.on axis := by cases axis <;> rfl

@[simp] lemma on_sub (r other : Resources) (axis : Axis) :
    (r.sub other).on axis = r.on axis - other.on axis := by cases axis <;> rfl

lemma sub_add_cancel (r other : Resources) : (r.add other).sub other = r := by
  ext axis
  simp

end Resources

/-- An observed GPU. -/
structure Accelerator where
  vendor : String
  driverMajor : ℤ := 0
  deriving DecidableEq

/-- One owner node in the snapshot.  `capacity` is the whole host, `usage` the
observed total consumption. -/
structure Node where
  id : String
  specNodeRef : String := ""
  name : String := ""
  trustClass : TrustClass
  state : NodeCondition
  roles : List String := []
  capacity : Resources
  usage : Option Resources := none
  arch : String := ""
  amd64Level : ℤ := 0
  accelerator : Option Accelerator := none
  availability : Availability := .unknown
  deriving DecidableEq

/-- An existing workload on a node. -/
structure Component where
  workload : String
  nodeID : String
  management : Management
  reservation : Resources
  band : Band := .standard

/-- The digest-addressed view of the homelab. -/
structure Snapshot where
  nodes : List Node
  components : List Component := []
  digest : String

/-- A whole-host requirement. -/
structure Floor where
  resources : Resources := {}
  amd64Level : ℤ := 0
  deriving DecidableEq

/-- A required GPU. -/
structure AcceleratorDemand where
  vendor : String
  minDriverMajor : ℤ := 0
  deriving DecidableEq

/-- Whether every module reservation is measured. -/
inductive Provenance where
  | measured
  | other (text : String)
  deriving DecidableEq

/-- One selected workload to place.  `pinReason` is not part of the question: `Plan`
fills it in from the pins. -/
structure Demand where
  workload : String
  workloads : List String := []
  title : String := ""
  goal : String := ""
  modules : List String := []
  hostFloor : Floor := {}
  reservation : Resources := {}
  accelerator : Option AcceleratorDemand := none
  provenance : Provenance := .measured
  cpuUnspecified : Bool := false
  band : Band := .standard
  requiresRoles : List String := []
  pinReason : String := ""
  deriving DecidableEq

/-- Binds a workload to a node. -/
structure Pin where
  workload : String
  nodeID : String
  reason : String := ""

/-- The question a planner answers. -/
structure Problem where
  snapshotDigest : String
  demands : List Demand
  pins : List Pin := []
  workBudget : ℤ := 0
  digest : String := ""

/-- The planner's verdict. -/
inductive Outcome where
  | feasible
  | provenInfeasible
  | unknown
  | budgetExhausted
  deriving DecidableEq

end TechStack.Layout
