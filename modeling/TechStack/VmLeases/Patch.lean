import TechStack.Lib.Slots
import TechStack.Lib.Text
import TechStack.Lib.Transition

/-!
# Concurrent patches of a lease

`Service.Patch` gets the lease from the store, edits its copy and replaces the stored lease by
the copy.  `Get` and `Update` are atomic steps, and what lies between them is not: `Update` refuses
a copy that changes the resource generation, the cancellation, the decommission claim or the host
key, and takes every other field as the copy has it.  So a patch that was read before another one
was stored puts the fields of the other one back (`concurrent_patch_undone`).

Where no other call stores the lease between the `Get` and the `Update` of a call, the stored lease
is at any time the result of the successful patches one after another
(`State.patches_serializable`).
-/

namespace TechStack.VmLeases

open Std (ExtTreeMap)
open List Lib

/-! ### The lease -/

/-- `vmlease.DesiredState`; a patch may carry any text. -/
inductive DesiredState where
  | running
  | stopped
  | archived
  | other (text : String)
  deriving DecidableEq

/-- What `Patch` and `Update` read and write of a lease.  The fields that neither changes are in
the digest function of the `Authority`. -/
structure Lease where
  orgID : String
  desiredState : DesiredState := .running
  validUntil : ℤ := 0
  renewedAt : ℤ := 0
  cancelledAt : Option ℤ := none
  metadata : ExtTreeMap String String compare := ∅

/-- The errors of `Patch` and of the store. -/
inductive Error where
  | tenantRequired
  | tenantMismatch
  | notFound
  | resourceGenerationUnavailable
  | resourceGenerationImmutable
  | resourceGenerationDigest
  | resourceGenerationSuperseded
  | decommissionClaimImmutable
  | sshHostKeyImmutable
  | leaseCancelled

def metadataKeyResourceGenerationID : String := "resource_generation_id"

def metadataKeyDecommissionClaimDigest : String := "resource_decommission_claim_digest"

def metadataKeySSHHostKey : String := "runtime_ssh_host_key"

namespace Lease

variable (lease : Lease)

/-- A metadata value, trimmed; an absent one reads as the empty text. -/
def value (key : String) : String :=
  trimSpace (lease.metadata.getD key "")

def resourceGenerationID : String :=
  lease.value metadataKeyResourceGenerationID

def decommissionClaim : String :=
  lease.value metadataKeyDecommissionClaimDigest

/-- `setLeaseMetadata`: the empty text deletes the key. -/
def setMetadata (key value : String) : Lease :=
  if value = "" then { lease with metadata := lease.metadata.erase key }
  else { lease with metadata := lease.metadata.insert key value }

/-- `tenantIDFromLease`. -/
def tenantID : Except Error String :=
  if trimSpace lease.orgID = "" then .error .tenantRequired else .ok (trimSpace lease.orgID)

/-- The leases are the same apart from `RenewedAt`. -/
def Agrees (lease other : Lease) : Prop :=
  { lease with renewedAt := 0 } = { other with renewedAt := 0 }

end Lease

/-- The digest of a resource generation: SHA-256 of the tenant, the generation and the identity of
the lease and of its resource, which no patch changes.  It is an error where the identity lacks the
lease or the provider. -/
structure Authority where
  hash : String → String → Except Error String

/-- `validResourceGenerationDigest`: 64 hexadecimal digits in lower case. -/
def validResourceGenerationDigest (value : String) : Bool :=
  (trimSpace value).length == 64 &&
    (trimSpace value).toList.all fun c => c.isDigit || ('a' ≤ c && c ≤ 'f')

namespace Authority

variable (A : Authority)

def resourceGenerationDigest (tenantID : String) (lease : Lease) : Except Error String := do
  if trimSpace tenantID = "" then throw .tenantRequired
  if (← lease.tenantID) ≠ trimSpace tenantID then throw .tenantMismatch
  if lease.resourceGenerationID = "" then throw .resourceGenerationUnavailable
  A.hash (trimSpace tenantID) lease.resourceGenerationID

/-! ### The store -/

/-- `Get` of the store. -/
def get (tenantID : String) (lease : Lease) : Except Error Lease :=
  if trimSpace tenantID = "" then .error .tenantRequired
  else if lease.tenantID.toOption = some (trimSpace tenantID) then .ok lease
  else .error .notFound

def ensureCancellationMonotonic (existing updated : Lease) : Except Error Unit :=
  match existing.cancelledAt with
  | none => .ok ()
  | some cancelled =>
    if updated.cancelledAt ≠ some cancelled then .error .leaseCancelled
    else if updated.desiredState ≠ .stopped ∧ updated.desiredState ≠ .archived then
      .error .leaseCancelled
    else .ok ()

def ensureDecommissionClaimUnchanged (existing updated : Lease) : Except Error Unit := do
  if existing.decommissionClaim ≠ "" ∧ updated.decommissionClaim ≠ existing.decommissionClaim then
    throw .decommissionClaimImmutable
  if updated.decommissionClaim ≠ "" then
    if updated.decommissionClaim ≠ (← A.resourceGenerationDigest (← updated.tenantID) updated) then
      throw .resourceGenerationDigest

/-- `Update` of the store: the whole lease is replaced. -/
def update (tenantID : String) (existing lease : Lease) : Except Error Lease := do
  if trimSpace tenantID = "" then throw .tenantRequired
  if (← lease.tenantID) ≠ trimSpace tenantID then throw .notFound
  if existing.tenantID.toOption ≠ some (trimSpace tenantID) then throw .notFound
  if existing.resourceGenerationID ≠ lease.resourceGenerationID then
    throw .resourceGenerationImmutable
  ensureCancellationMonotonic existing lease
  A.ensureDecommissionClaimUnchanged existing lease
  if lease.value metadataKeySSHHostKey ≠ existing.value metadataKeySSHHostKey then
    throw .sshHostKeyImmutable
  return lease

end Authority

/-! ### `Patch` -/

/-- A call of `Patch`.  The metadata are in the order in which the loop of the call meets them,
which Go leaves open. -/
structure Request where
  tenantArgument : String
  tenantID : String := ""
  desiredState : Option DesiredState := none
  validUntil : Option ℤ := none
  cancel : Bool := false
  metadata : List (String × String) := []
  expectedResourceGenerationDigest : String := ""
  claimDecommission : Bool := false

namespace Request

/-- The tenant of the call: the argument, else the one in the request. -/
def tenant (req : Request) : String :=
  if trimSpace req.tenantArgument = "" then trimSpace req.tenantID else trimSpace req.tenantArgument

def expectedDigest (req : Request) : String :=
  trimSpace req.expectedResourceGenerationDigest

end Request

/-- The metadata loop of `Patch`, for one entry. -/
def patchMetadata (lease : Lease) (entry : String × String) : Except Error Lease :=
  let key := trimSpace entry.1
  let value := trimSpace entry.2
  if key = "" then .ok lease
  else if key = metadataKeyResourceGenerationID then
    if value ≠ lease.resourceGenerationID then .error .resourceGenerationImmutable else .ok lease
  else if key = metadataKeyDecommissionClaimDigest then
    if value ≠ lease.decommissionClaim then .error .decommissionClaimImmutable else .ok lease
  else .ok (lease.setMetadata key value)

/-- The fields of the lease that `Patch` sets before the metadata. -/
def patchFields (req : Request) (now : ℤ) (lease : Lease) : Lease :=
  let lease := { lease with
    desiredState := req.desiredState.getD lease.desiredState
    validUntil := req.validUntil.getD lease.validUntil }
  if req.cancel then
    { lease with
      cancelledAt := some now
      desiredState := if req.desiredState = some .archived then .archived else .stopped }
  else lease

/-- What a call does once it has the lease. -/
inductive Edit where
  /-- A cancelled lease is cancelled again: success with nothing to store. -/
  | unchanged
  | write (lease : Lease)

namespace Authority

variable (A : Authority)

/-- The expectations of a call on the lease that it got. -/
def expect (req : Request) (lease : Lease) : Except Error Unit := do
  if req.expectedDigest ≠ "" then
    if !validResourceGenerationDigest req.expectedDigest then throw .resourceGenerationDigest
    if (← A.resourceGenerationDigest req.tenant lease) ≠ req.expectedDigest then
      throw .resourceGenerationSuperseded
  if req.claimDecommission ∧ req.expectedDigest = "" then throw .resourceGenerationDigest

/-- `Patch` from its start to its `Update`. -/
def prepare (req : Request) (now : ℤ) (stored : Lease) : Except Error Edit := do
  if req.tenant = "" then throw .tenantRequired
  let lease ← get req.tenant stored
  A.expect req lease
  if lease.cancelledAt.isSome && req.cancel then return .unchanged
  if lease.cancelledAt.isSome && req.desiredState.any (fun d => d ≠ .stopped ∧ d ≠ .archived) then
    throw .leaseCancelled
  let edited ← req.metadata.foldlM patchMetadata (patchFields req now lease)
  let claimed := if req.claimDecommission then
    edited.setMetadata metadataKeyDecommissionClaimDigest req.expectedDigest else edited
  return .write { claimed with renewedAt := now }

/-- `Patch` on a lease that no one else touches. -/
def patch (req : Request) (now : ℤ) (lease : Lease) : Except Error Lease :=
  match A.prepare req now lease with
  | .error err => .error err
  | .ok .unchanged => .ok lease
  | .ok (.write edited) => A.update req.tenant lease edited

/-- Patches one after another, each with the time it reads. -/
def patchAll (patches : List (Request × ℤ)) (lease : Lease) : Except Error Lease :=
  patches.foldlM (fun lease patch => A.patch patch.1 patch.2 lease) lease

/-- The last of several patches works on what the others leave. -/
lemma patchAll_snoc {patches : List (Request × ℤ)} {start lease : Lease}
    (before : A.patchAll patches start = .ok lease) (req : Request) (now : ℤ) :
    A.patchAll (patches ++ [(req, now)]) start = A.patch req now lease := by
  have folded : patches.foldlM (fun lease patch => A.patch patch.1 patch.2 lease) start =
      pure lease := before
  rw [patchAll, foldlM_append, folded, pure_bind, foldlM_cons]
  exact bind_pure (A.patch req now lease)

end Authority

/-! ### Interleavings -/

/-- Where a call stands.  A call that has its lease keeps how often the lease had been stored
when it got it. -/
inductive Call where
  | waiting (req : Request)
  | edited (req : Request) (now : ℤ) (lease : Lease) (seen : ℕ)
  | failed (err : Error)
  | succeeded

/-- The stored lease, the calls on it and what they achieved. -/
structure State where
  start : Lease
  lease : Lease
  /-- How often the lease was stored. -/
  stores : ℕ := 0
  calls : List Call
  /-- The successful patches so far. -/
  succeeded : List (Request × ℤ) := []

/-- The atomic steps of the `i`-th call: its `Get`, after which it reads the clock, and its
`Update`. -/
inductive Action where
  | get (i : ℕ) (now : ℤ)
  | update (i : ℕ)

namespace State

variable (A : Authority)

def act (s : State) : Action → Option State
  | .get i now =>
    match s.calls[i]? with
    | some (.waiting req) =>
      match A.prepare req now s.lease with
      | .error err => some { s with calls := s.calls.set i (.failed err) }
      | .ok .unchanged => some { s with
          calls := s.calls.set i .succeeded
          succeeded := s.succeeded ++ [(req, now)] }
      | .ok (.write lease) => some { s with
          calls := s.calls.set i (.edited req now lease s.stores) }
    | _ => none
  | .update i =>
    match s.calls[i]? with
    | some (.edited req now lease _) =>
      match A.update req.tenant s.lease lease with
      | .error err => some { s with calls := s.calls.set i (.failed err) }
      | .ok stored => some { s with
          lease := stored
          stores := s.stores + 1
          calls := s.calls.set i .succeeded
          succeeded := s.succeeded ++ [(req, now)] }
    | _ => none

/-- Any number of calls of `Patch` on any lease. -/
def machine : Machine State Action where
  init s := ∃ (lease : Lease) (requests : List Request),
    s = { start := lease, lease, calls := requests.map Call.waiting }
  step s a s' := s.act A a = some s'

/-- The stored lease is, apart from `RenewedAt`, the result of exactly the successful patches one
after another in some order. -/
def Serializable (s : State) : Prop :=
  ∃ order final, order.Perm s.succeeded ∧ A.patchAll order s.start = .ok final ∧
    final.Agrees s.lease

/-- No other call stored the lease since this one got it. -/
def undisturbed (s : State) : Action → Bool
  | .update i => s.calls[i]?.any fun call =>
    match call with
    | .edited _ _ _ seen => seen == s.stores
    | _ => false
  | .get _ _ => true

/-- What a call that has its lease knows: if the lease was not stored since, its edit is the one
it would make now. -/
def Current (s : State) : Call → Prop
  | .edited req now lease seen =>
    seen ≤ s.stores ∧ (seen = s.stores → A.prepare req now s.lease = .ok (.write lease))
  | _ => True

/-- The successful patches in their order lead to the stored lease, `RenewedAt` included. -/
structure Serial (s : State) : Prop where
  applied : A.patchAll s.succeeded s.start = .ok s.lease
  current : ∀ call ∈ s.calls, s.Current A call

variable {A} {s s' : State}

/-- The `Get` of a call stores nothing. -/
lemma Serial.get {i : ℕ} {now : ℤ} (h : s.Serial A) (made : s.act A (.get i now) = some s') :
    s'.Serial A := by
  simp only [act] at made
  split at made
  next req held =>
    split at made
    next err refused =>
      cases made
      exact ⟨h.applied, forall_mem_set h.current trivial⟩
    next again =>
      cases made
      refine ⟨?_, forall_mem_set h.current trivial⟩
      rw [A.patchAll_snoc h.applied, Authority.patch, again]
    next lease prepared =>
      cases made
      exact ⟨h.applied, forall_mem_set h.current ⟨le_rfl, fun _ => prepared⟩⟩
  next => exact nomatch made

/-- Once the lease is stored again no call that got it before is current. -/
lemma Current.stored {call : Call} (h : s.Current A call) (lease : Lease) (calls : List Call)
    (patches : List (Request × ℤ)) :
    ({ s with lease, stores := s.stores + 1, calls, succeeded := patches } : State).Current A
      call := by
  cases call with
  | edited req now edit seen =>
    exact ⟨Nat.le_succ_of_le h.1, fun same => absurd (same ▸ h.1) (Nat.not_succ_le_self _)⟩
  | waiting _ => trivial
  | failed _ => trivial
  | succeeded => trivial

/-- An undisturbed `Update` stores what the patch makes of the stored lease. -/
lemma Serial.update {i : ℕ} (h : s.Serial A) (alone : s.undisturbed (.update i) = true)
    (made : s.act A (.update i) = some s') : s'.Serial A := by
  simp only [act] at made
  split at made
  next req now lease seen held =>
    have fresh : seen = s.stores := by simpa [undisturbed, held] using alone
    have prepared : A.prepare req now s.lease = .ok (.write lease) :=
      (h.current _ (mem_of_getElem? held)).2 fresh
    split at made
    next err refused =>
      cases made
      exact ⟨h.applied, forall_mem_set h.current trivial⟩
    next stored updated =>
      cases made
      refine ⟨?_, forall_mem_set (fun call mem => (h.current call mem).stored _ _ _) trivial⟩
      rw [A.patchAll_snoc h.applied, Authority.patch, prepared, ← updated]
  next => exact nomatch made

/-- **Undisturbed patches are serializable.**  In every run in which no other call stores the lease
between the `Get` and the `Update` of a call, the stored lease is in every state reached the result
of the successful patches one after another. -/
theorem patches_serializable
    (reached : (machine A).Reaches (fun s a => s.undisturbed a = true) s) : s.Serializable A := by
  have serial : s.Serial A := by
    refine reached.invariant (fun s => s.Serial A) ?_ ?_
    · rintro _ ⟨lease, requests, rfl⟩
      refine ⟨rfl, fun call member => ?_⟩
      obtain ⟨req, -, rfl⟩ := mem_map.mp member
      trivial
    · intro s a s' h alone made
      cases a with
      | get i now => exact h.get made
      | update i => exact h.update alone made
  exact ⟨s.succeeded, s.lease, .refl _, serial.applied, rfl⟩

/-! ### Runs -/

section Examples

/-- A digest of any generation. -/
def plain : Authority := ⟨fun _ generation => .ok generation⟩

def extend : Request := { tenantArgument := "t", validUntil := some 5 }

def stop : Request := { tenantArgument := "t", desiredState := some .stopped }

/-- Two calls on a running lease. -/
def twoCalls : State :=
  { start := { orgID := "t" }, lease := { orgID := "t" },
    calls := [.waiting extend, .waiting stop] }

lemma enacted : (machine plain).Enacts (act plain) twoCalls :=
  ⟨⟨{ orgID := "t" }, [extend, stop], rfl⟩, fun _ _ _ => id⟩

/-- One call after the other: both patches are in the lease. -/
theorem patches_serializable_in_turn : ∃ s : State, s.lease.validUntil = 5 ∧
    s.lease.desiredState = .stopped ∧ s.Serializable plain := by
  obtain ⟨s, reached, extended, stopped⟩ := enacted.reaches undisturbed (fun _ _ => id)
    [.get 0 1, .update 0, .get 1 2, .update 1]
    (fun s => s.lease.validUntil = 5 ∧ s.lease.desiredState = .stopped) (by decide +kernel)
  exact ⟨s, extended, stopped, patches_serializable reached⟩

/-- Both calls get the lease before either stores it: both succeed, in either order they extend
the lease, and the stored lease is not extended. -/
theorem concurrent_patch_undone : ∃ s : State,
    (machine plain).Reaches (fun _ _ => True) s ∧ ¬ s.Serializable plain := by
  obtain ⟨s, reached, differs⟩ := enacted.reaches_any
    [.get 0 1, .get 1 2, .update 0, .update 1] (fun s => ∀ order ∈ s.succeeded.permutations',
      ∀ final ∈ (plain.patchAll order s.start).toOption, final.validUntil ≠ s.lease.validUntil)
    (by decide +kernel)
  refine ⟨s, reached, ?_⟩
  rintro ⟨order, final, permuted, applied, agrees⟩
  have differs := differs order (mem_permutations'.mpr permuted) final (by rw [applied]; rfl)
  rw [Lease.Agrees, Lease.mk.injEq] at agrees
  exact differs agrees.2.2.1

end Examples

end State

end TechStack.VmLeases
