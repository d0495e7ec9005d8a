import TechStack.Lib.Table
import TechStack.Lib.Text
import TechStack.Lib.Transition

/-!
# The port authority

A rollout asks for host listeners before it changes a server.  The authority keeps, for one
generation of a server, the reservations of host ports, the claims that rollouts have on them,
and the state of each claim generation, which is one resolved plan of one stack.

A claim is checked against the reservations when it is admitted, and only then.  Claims that
share a listener share its reservation; a reservation without a claim of an unreleased
generation is released, and it is revived under the same id when the listener is claimed again.

Ids are taken to be injective in the fields they are made of, so that they stand here for
those fields, and so is the digest of a claim set.  The key of a claim generation is the stack
and the plan.
-/

namespace TechStack.Ports

open Lib

/-! ### Listeners and requests -/

inductive Transport where
  | tcp
  | udp
  deriving DecidableEq

inductive Sharing where
  | exclusive
  | virtualHost
  deriving DecidableEq

inductive Exposure where
  | localOnly
  | lan
  | remotePrivate
  | publicly
  deriving DecidableEq

inductive ClaimState where
  | pending
  | mutating
  | active
  | uncertain
  | released
  deriving DecidableEq

inductive ReservationState where
  | reserved
  | released
  deriving DecidableEq

inductive PortError where
  | invalidRequirement
  | invalidRequest
  /-- `ConflictError`, with the listener that was asked for. -/
  | allocationConflict (transport : Transport) (bindAddress : String) (port : UInt16)
  | invalidTransition
  | claimGenerationNotFound
  deriving DecidableEq

/-- What a reservation is for, and what its id is made of. -/
structure Listener where
  transport : Transport
  bindAddress : String
  port : UInt16
  sharing : Sharing
  listenerGroupRef : String
  deriving DecidableEq

/-- A runtime listener as the compiler declares it. -/
structure RawRequirement where
  id : String
  nodeRef : String
  transport : String
  bindAddress : String
  port : UInt16
  sharing : String
  listenerGroupRef : String
  exposure : String
  sourceRouteRefs : List String

/-- A runtime listener that `NormalizeRequirement` has accepted. -/
structure Requirement where
  id : String
  nodeRef : String
  listener : Listener
  exposure : Exposure
  sourceRouteRefs : List String
  deriving DecidableEq

/-- What the authority uses of other packages. -/
structure Texts where
  /-- `strings.ToLower`. -/
  lower : String → String
  /-- `netip.ParseAddr`, unmapped and printed. -/
  parseAddr : String → Option String

/-- One resolved plan of one stack. -/
structure GenerationRef where
  stackID : String
  resolvedPlanHash : String
  deriving DecidableEq

structure AdmissionRequest where
  ref : GenerationRef
  requirements : List RawRequirement

namespace Texts

variable (t : Texts)

variable (value : String)

/-- A text in lower case without white space around it. -/
def token : String := t.lower (trimSpace value)

def transport : Option Transport :=
  match t.token value with
  | "tcp" => some .tcp
  | "udp" => some .udp
  | _ => none

def sharing : Option Sharing :=
  match t.token value with
  | "exclusive" => some .exclusive
  | "virtual-host" => some .virtualHost
  | _ => none

def exposure : Option Exposure :=
  match t.token value with
  | "local" => some .localOnly
  | "lan" => some .lan
  | "remote-private" => some .remotePrivate
  | "public" => some .publicly
  | _ => none

def normalizeBindAddress : Option String :=
  let value := trimSpace value
  if value ∈ ["", "*", "0.0.0.0", "::"] then some "*" else t.parseAddr value

/-- A virtual host names its group, and an exclusive listener has none. -/
def groupFits (sharing : Sharing) (group : String) : Bool :=
  match sharing with
  | .virtualHost => group != ""
  | .exclusive => group == ""

def normalizeRefs (values : List String) : List String :=
  ((values.map trimSpace).filter (· != "")).dedup.insertionSort (· ≤ ·)

/-- `NormalizeRequirement`, whose errors are all the same. -/
def normalizeRequirement (input : RawRequirement) : Except PortError Requirement :=
  let id := trimSpace input.id
  let listenerGroupRef := trimSpace input.listenerGroupRef
  if id = "" ∨ input.port = 0 then .error .invalidRequirement
  else
    match t.transport input.transport, t.sharing input.sharing, t.exposure input.exposure,
      t.normalizeBindAddress input.bindAddress with
    | some transport, some sharing, some exposure, some bindAddress =>
      if groupFits sharing listenerGroupRef then
        .ok {
          id, nodeRef := trimSpace input.nodeRef
          listener := { transport, bindAddress, port := input.port, sharing, listenerGroupRef }
          exposure, sourceRouteRefs := normalizeRefs input.sourceRouteRefs }
      else .error .invalidRequirement
    | _, _, _, _ => .error .invalidRequirement

/-- The loop of `normalizeAdmission`; `seen` are the ids so far. -/
def normalizeAll : List String → List RawRequirement → Except PortError (List Requirement)
  | _, [] => .ok []
  | seen, input :: rest =>
    match t.normalizeRequirement input with
    | .error e => .error e
    | .ok requirement =>
      if requirement.id ∈ seen then .error .invalidRequest
      else
        match normalizeAll (requirement.id :: seen) rest with
        | .error e => .error e
        | .ok requirements => .ok (requirement :: requirements)

/-- `normalizeGenerationRef`. -/
def normalizeRef (ref : GenerationRef) : Except PortError GenerationRef :=
  let ref : GenerationRef := ⟨trimSpace ref.stackID, trimSpace ref.resolvedPlanHash⟩
  if ref.stackID = "" ∨ ref.resolvedPlanHash = "" then .error .invalidRequest else .ok ref

/-- `normalizeAdmission`. -/
def normalizeAdmission (request : AdmissionRequest) :
    Except PortError (GenerationRef × List Requirement) :=
  match normalizeRef request.ref with
  | .error e => .error e
  | .ok ref =>
    match t.normalizeAll [] request.requirements with
    | .error e => .error e
    | .ok requirements => .ok (ref, requirements.insertionSort (·.id ≤ ·.id))

end Texts

/-! ### The state for one server generation -/

structure Reservation where
  listener : Listener
  state : ReservationState

structure ClaimGeneration where
  ref : GenerationRef
  /-- The requirements that `ClaimSetDigest` is made of. -/
  claimSet : List Requirement
  state : ClaimState

structure Claim where
  ref : GenerationRef
  requirement : Requirement
  /-- `ReservationID`. -/
  reservation : Listener
  deriving DecidableEq

/-- What a claim's id is made of. -/
def Claim.key (c : Claim) : GenerationRef × String := (c.ref, c.requirement.id)

structure Inventory where
  reservations : List Reservation
  generations : List ClaimGeneration
  claims : List Claim

def addressesOverlap (left right : String) : Bool := left == "*" || right == "*" || left == right

/-- Two listeners that cannot both be bound, unless they are shared. -/
def Listener.overlaps (a b : Listener) : Bool :=
  a.transport == b.transport && a.port == b.port && addressesOverlap a.bindAddress b.bindAddress

namespace Inventory

def empty : Inventory := ⟨[], [], []⟩

variable (s : Inventory) (ref : GenerationRef)

def generation : Option ClaimGeneration :=
  Table.lookup ClaimGeneration.ref ref s.generations

/-- A generation that is not there counts as released, as it does for claims. -/
def stateOf : ClaimState :=
  ((s.generation ref).map (·.state)).getD .released

/-- The claim's generation is not released. -/
def live (c : Claim) : Bool := s.stateOf c.ref != .released

/-- `exclusiveReservationReusable`. -/
def exclusiveReservationReusable (reservation : Listener) (stackID : String) : Bool :=
  let held := s.claims.filter fun c => c.reservation == reservation && s.live c
  !held.isEmpty && held.all fun c => c.ref.stackID == stackID &&
    (s.stateOf c.ref == .active || s.stateOf c.ref == .uncertain)

/-- The reservation can be shared with a requirement that overlaps it. -/
def compatible (stackID : String) (listener : Listener) (v : Reservation) : Bool :=
  v.listener.bindAddress == listener.bindAddress && v.listener.sharing == listener.sharing &&
    match listener.sharing with
    | .virtualHost => v.listener.listenerGroupRef == listener.listenerGroupRef
    | .exclusive => s.exclusiveReservationReusable v.listener stackID

/-- The loop of `admitRequirement` over the reservations. -/
def findCompatible (s : Inventory) (stackID : String) (listener : Listener) :
    List Reservation → Option Reservation → Except PortError (Option Reservation)
  | [], found => .ok found
  | v :: rest, found =>
    if v.state ≠ .reserved then s.findCompatible stackID listener rest found
    else if v.listener.overlaps listener = false then
      s.findCompatible stackID listener rest found
    else if s.compatible stackID listener v then
      s.findCompatible stackID listener rest (some v)
    else .error (.allocationConflict listener.transport listener.bindAddress listener.port)

/-- A reservation is written, or revived. -/
def reserve (listener : Listener) : Inventory :=
  { s with reservations := Table.put Reservation.listener ⟨listener, .reserved⟩ s.reservations }

/-- A claim is written. -/
def addClaim (claim : Claim) : Inventory :=
  { s with claims := Table.put Claim.key claim s.claims }

def admitRequirement (requirement : Requirement) : Except PortError (Inventory × Claim) :=
  match s.findCompatible ref.stackID requirement.listener s.reservations none with
  | .error e => .error e
  | .ok (some v) =>
    let claim : Claim := ⟨ref, requirement, v.listener⟩
    .ok (s.addClaim claim, claim)
  | .ok none =>
    let claim : Claim := ⟨ref, requirement, requirement.listener⟩
    .ok ((s.reserve requirement.listener).addClaim claim, claim)

/-- The loop of `admitState` over the requirements. -/
def admitAll (ref : GenerationRef) :
    Inventory → List Requirement → Except PortError (Inventory × List Claim)
  | s, [] => .ok (s, [])
  | s, requirement :: rest =>
    match s.admitRequirement ref requirement with
    | .error e => .error e
    | .ok (s', claim) =>
      match admitAll ref s' rest with
      | .error e => .error e
      | .ok (s'', claims) => .ok (s'', claim :: claims)

/-- A generation is written. -/
def setGeneration (g : ClaimGeneration) : Inventory :=
  { s with generations := Table.put ClaimGeneration.ref g s.generations }

/-- `admitState`: the new state, and the claims that are admitted. -/
def admitState (requirements : List Requirement) : Except PortError (Inventory × List Claim) :=
  match s.generation ref with
  | some existing =>
    if existing.state = .released then .error .invalidTransition
    else if existing.claimSet ≠ requirements then .error .invalidRequest
    else .ok (s, s.claims.filter fun c => c.ref == ref)
  | none => admitAll ref (s.setGeneration ⟨ref, requirements, .pending⟩) requirements

/-- `gcReservations`. -/
def gcReservations : Inventory :=
  { s with reservations := s.reservations.map fun v =>
      if s.claims.any fun c => c.reservation == v.listener && s.live c then v
      else { v with state := .released } }

/-- `transition`, for a generation that is found. -/
def transition (allowed : List ClaimState) (next : ClaimState) : Except PortError Inventory :=
  match s.generation ref with
  | none => .error .claimGenerationNotFound
  | some g =>
    if g.state ∈ allowed then .ok (s.setGeneration { g with state := next })
    else .error .invalidTransition

/-- `release`. -/
def release (allowed : List ClaimState) : Except PortError Inventory :=
  match s.generation ref with
  | none => .error .claimGenerationNotFound
  | some g =>
    if g.state = .released then .ok s
    else if g.state ∈ allowed then
      .ok (s.setGeneration { g with state := .released }).gcReservations
    else .error .invalidTransition

/-- The other generations of the stack, as `Activate` leaves them. -/
def supersede (g : ClaimGeneration) : ClaimGeneration :=
  if g.ref ≠ ref ∧ g.ref.stackID = ref.stackID ∧ (g.state = .active ∨ g.state = .uncertain) then
    { g with state := .released }
  else g

/-- `Activate`, for a generation that is found. -/
def activate : Except PortError Inventory :=
  match s.generation ref with
  | none => .error .claimGenerationNotFound
  | some g =>
    if g.state ≠ .mutating ∧ g.state ≠ .active then .error .invalidTransition
    else
      let s := s.setGeneration { g with state := .active }
      .ok { s with generations := s.generations.map (supersede ref) }.gcReservations

end Inventory

inductive Operation where
  | admitRequest (request : AdmissionRequest)
  | markMutationStarted (ref : GenerationRef)
  | activate (ref : GenerationRef)
  | markUncertain (ref : GenerationRef)
  | abortBeforeMutation (ref : GenerationRef)
  | releaseAfterTeardown (ref : GenerationRef)

namespace Inventory

/-- An operation on a generation whose reference is normalized first. -/
def withRef (ref : GenerationRef) (operation : GenerationRef → Except PortError Inventory) :
    Except PortError Inventory :=
  match Texts.normalizeRef ref with
  | .error e => .error e
  | .ok ref => operation ref

variable (t : Texts)

/-- `Admit`: the claims, and the state that replaces the one before. -/
def admitRequest (s : Inventory) (request : AdmissionRequest) :
    Except PortError (Inventory × List Claim) :=
  match t.normalizeAdmission request with
  | .error e => .error e
  | .ok (ref, requirements) => s.admitState ref requirements

/-- What an operation leaves; one that fails leaves everything as it was. -/
def apply (s : Inventory) : Operation → Except PortError Inventory
  | .admitRequest request => (s.admitRequest t request).map (·.1)
  | .markMutationStarted ref =>
    withRef ref fun ref => s.transition ref [.pending, .mutating, .uncertain] .mutating
  | .activate ref => withRef ref s.activate
  | .markUncertain ref => withRef ref fun ref => s.transition ref [.mutating, .uncertain] .uncertain
  | .abortBeforeMutation ref => withRef ref fun ref => s.release ref [.pending]
  | .releaseAfterTeardown ref =>
    withRef ref fun ref => s.release ref [.mutating, .active, .uncertain]

/-- Any sequence of operations on a server generation that starts without claims. -/
def machine : Machine Inventory Operation where
  init s := s = empty
  step s operation s' := s.apply t operation = .ok s'

end Inventory

end TechStack.Ports
