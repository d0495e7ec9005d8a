import TechStack.Lib.Slots
import TechStack.Lib.Text
import TechStack.Lib.Transition

/-!
# Household projections with revisions

The projections of one member of one owner's household.  `projectRevision` accepts the revision,
binds the target, has the node apply the projection and completes the change of the reference, in
separate steps; other calls come between any two of them, and what is sent to the node may arrive
late, more than once or never, whatever the call is told.

The accepted revision only rises, the target is bound once, and every step checks that its
revision is still the accepted one.  So what is under way never runs ahead of the binding
(`Binding.Precedes`), and a removal that has succeeded lasts until a higher revision is accepted
(`State.removed_stays_removed`).
-/

namespace TechStack.Household

open Option List Lib

/-! ### The store -/

inductive Action where
  | add
  | remove
  deriving DecidableEq

/-- `HouseholdProjectionIntent`, for one tenant, owner and member. -/
structure Intent where
  revision : ℕ
  action : Action
  effectDigest : String
  deriving DecidableEq

/-- `HouseholdProjectionBinding`. -/
structure Binding where
  intent : Intent
  username : String
  stackID : String := ""
  agentID : String := ""
  stackKitInstanceID : String := ""
  deriving DecidableEq

/-- A reference of the member.  Every reference goes through `normalizeHouseholdRef` before it is
stored, so its stack has an identifier with no white space around it. -/
structure Ref where
  stackID : String
  username : String
  named : stackID ≠ ""
  trimmed : trimSpace stackID = stackID

inductive Error where
  | stale
  | conflict
  | notFound
  | incomplete

/-- The node that a binding names. -/
def Binding.target (b : Binding) : String × String × String :=
  (b.stackID, b.agentID, b.stackKitInstanceID)

/-- `checkHouseholdProjection`. -/
def checkHouseholdProjection (current expected : Intent) : Except Error Unit :=
  if expected.revision < current.revision then .error .stale
  else if current ≠ expected then .error .conflict
  else .ok ()

/-- `AcceptHouseholdProjection`: the row that it leaves and returns.  The first revision adopts
a reference that is there; `person` is the username that is made from the member's subject. -/
def acceptHouseholdProjection (person : String) (refs : List Ref) (row : Option Binding)
    (intent : Intent) : Except Error Binding :=
  if intent.revision = 0 ∨ 2 ^ 63 ≤ intent.revision then .error .conflict
  else
    match row with
    | none =>
      match refs with
      | [] => .ok { intent, username := person }
      | [ref] => .ok { intent, username := ref.username, stackID := ref.stackID }
      | _ => .error .conflict
    | some current =>
      if intent.revision ≤ current.intent.revision then
        (checkHouseholdProjection current.intent intent).map fun _ => current
      else .ok { current with intent }

/-- `BindHouseholdProjectionTarget`: the row that it leaves and returns. -/
def bindHouseholdProjectionTarget (row : Option Binding) (expected : Binding)
    (stackID agentID instanceID : String) : Except Error Binding :=
  if trimSpace stackID = "" ∨ trimSpace agentID = "" ∨ trimSpace instanceID = "" then
    .error .conflict
  else
    match row with
    | none => .error .notFound
    | some current =>
      (checkHouseholdProjection current.intent expected.intent).bind fun _ =>
        if current.agentID ≠ "" then .ok current
        else if current.username ≠ expected.username ∨
            (current.stackID ≠ "" ∧ current.stackID ≠ stackID) ∨
            (current.stackID = "" ∧ current.intent.action ≠ .add) then .error .conflict
        else .ok { current with stackID, agentID, stackKitInstanceID := instanceID }

/-- The reference that `normalizeHouseholdRef` makes of a stack and a username. -/
def normalizeHouseholdRef (stackID username : String) : Except Error Ref :=
  if named : trimSpace stackID = "" ∨ trimSpace username = "" then .error .incomplete
  else .ok ⟨trimSpace stackID, trimSpace username, (not_or.mp named).1, trimSpace_trimSpace _⟩

/-- `CompleteHouseholdProjection`: the references that it leaves.  An add stores its reference
under the trimmed stack; a removal deletes from the stack of the row as it stands there. -/
def completeHouseholdProjection (row : Option Binding) (refs : List Ref) (expected : Binding) :
    Except Error (List Ref) :=
  match row with
  | none => .error .notFound
  | some current =>
    (checkHouseholdProjection current.intent expected.intent).bind fun _ =>
      if current ≠ expected ∨ current.stackID = "" ∨ current.agentID = "" then .error .conflict
      else
        match current.intent.action with
        | .remove => .ok (refs.filter (·.stackID ≠ current.stackID))
        | .add =>
          (normalizeHouseholdRef current.stackID current.username).bind fun ref =>
            match refs.find? (·.stackID = ref.stackID) with
            | none => .ok (refs ++ [ref])
            | some stored => if stored.username = ref.username then .ok refs else .error .conflict

/-! ### The node -/

/-- What a node has of the member: the highest revision that it applied, and whether there is an
account that a projection created. -/
structure Node where
  applied : ℕ := 0
  account : Bool := false

/-- A node ignores a projection below one that it has applied. -/
def Node.project (node : Node) (intent : Intent) : Node :=
  if intent.revision < node.applied then node
  else ⟨intent.revision, intent.action = .add⟩

/-- What arrives at a node leaves its revision where it was or raises it. -/
lemma Node.le_project (node : Node) (intent : Intent) :
    node.applied ≤ (node.project intent).applied ∧
      intent.revision ≤ (node.project intent).applied := by
  unfold Node.project
  split
  · exact ⟨le_rfl, le_of_lt ‹_›⟩
  · exact ⟨not_lt.mp ‹_›, le_rfl⟩

/-! ### Calls -/

/-- Where a call of `projectRevision` stands, with the binding it holds. -/
inductive Call where
  | waiting (intent : Intent)
  | accepted (b : Binding)
  | bound (b : Binding)
  | dispatched (b : Binding)
  | answered (b : Binding)
  | ended

structure State where
  row : Option Binding := none
  refs : List Ref
  nodes : String × String × String → Node := fun _ => {}
  /-- What has been sent to nodes; it may arrive at any time. -/
  sent : List Binding := []
  /-- What a node has dealt with. -/
  handled : List Binding := []
  calls : List Call
  /-- The revisions of the removals that have returned success. -/
  removed : List ℕ := []

/-- The atomic steps of the `i`-th call, and the arrival of what was sent. -/
inductive Move where
  | accept (i : ℕ)
  | bind (i : ℕ) (stackID agentID instanceID : String)
  | dispatch (i : ℕ)
  | deliver (b : Binding)
  | answer (i : ℕ)
  | complete (i : ℕ)
  /-- The call ends without success in a removal: an error, or an add that finds no stack. -/
  | stop (i : ℕ)

/-- The stack of the homelab, to which a call binds the member, has no white space around its
identifier. -/
def Move.trimmed : Move → Bool
  | .bind _ stackID _ _ => trimSpace stackID = stackID
  | _ => true

namespace State

def setCall (s : State) (i : ℕ) (call : Call) : State := { s with calls := s.calls.set i call }

/-- A removal returns success. -/
def succeed (s : State) (intent : Intent) : State :=
  match intent.action with
  | .remove => { s with removed := s.removed ++ [intent.revision] }
  | .add => s

/-- `projectRevision` goes on with the binding that it was given. -/
def goOn (s : State) (i : ℕ) (intent : Intent) (b : Binding) : State :=
  if b.stackID = "" ∧ intent.action = .remove then
    ({ s with row := some b }.succeed intent).setCall i .ended
  else if b.agentID = "" then { s with row := some b }.setCall i (.accepted b)
  else { s with row := some b }.setCall i (.bound b)

def act (person : String) (s : State) : Move → Option State
  | .accept i =>
    match s.calls[i]? with
    | some (.waiting intent) =>
      match acceptHouseholdProjection person s.refs s.row intent with
      | .error _ => some (s.setCall i .ended)
      | .ok b => some (s.goOn i intent b)
    | _ => none
  | .bind i stackID agentID instanceID =>
    match s.calls[i]? with
    | some (.accepted b) =>
      match bindHouseholdProjectionTarget s.row b
          (if b.stackID = "" then stackID else b.stackID) agentID instanceID with
      | .error _ => some (s.setCall i .ended)
      | .ok b => some ({ s with row := some b }.setCall i (.bound b))
    | _ => none
  | .dispatch i =>
    match s.calls[i]? with
    | some (.bound b) => some ({ s with sent := s.sent ++ [b] }.setCall i (.dispatched b))
    | _ => none
  | .deliver b =>
    if b ∈ s.sent then
      some { s with
        nodes := Function.update s.nodes b.target ((s.nodes b.target).project b.intent)
        handled := s.handled ++ [b] }
    else none
  | .answer i =>
    match s.calls[i]? with
    | some (.dispatched b) => if b ∈ s.handled then some (s.setCall i (.answered b)) else none
    | _ => none
  | .complete i =>
    match s.calls[i]? with
    | some (.answered b) =>
      match completeHouseholdProjection s.row s.refs b with
      | .error _ => some (s.setCall i .ended)
      | .ok refs => some (({ s with refs }.succeed b.intent).setCall i .ended)
    | _ => none
  | .stop i => some (s.setCall i .ended)

/-- Any number of calls, on any references that were there before. -/
def machine (person : String) : Machine State Move where
  init s := ∃ (refs : List Ref) (intents : List Intent),
    s = { refs, calls := intents.map Call.waiting }
  step s move s' := s.act person move = some s'

end State

/-! ### The binding only goes forward -/

/-- The binding `row` is as far as `b` or further: a stack and a target stay once they are
there. -/
structure Binding.Precedes (b row : Binding) : Prop where
  revision : b.intent.revision ≤ row.intent.revision
  intent : b.intent.revision = row.intent.revision → b.intent = row.intent
  stack : b.stackID ≠ "" → row.stackID = b.stackID
  target : b.agentID ≠ "" → row.target = b.target

namespace Binding.Precedes

lemma refl (b : Binding) : b.Precedes b := ⟨le_rfl, fun _ => rfl, fun _ => rfl, fun _ => rfl⟩

lemma trans {a b c : Binding} (first : a.Precedes b) (second : b.Precedes c) : a.Precedes c where
  revision := first.revision.trans second.revision
  intent same := by
    have middle : a.intent.revision = b.intent.revision :=
      le_antisymm first.revision (same ▸ second.revision)
    exact (first.intent middle).trans (second.intent (middle ▸ same))
  stack named := by
    have kept := first.stack named
    exact (second.stack (kept ▸ named)).trans kept
  target bound := by
    have kept := first.target bound
    have agent : b.agentID = a.agentID := congrArg (·.2.1) kept
    exact (second.target (agent ▸ bound)).trans kept

end Binding.Precedes

lemma eq_of_check {current expected : Intent} {u : Unit}
    (passes : checkHouseholdProjection current expected = .ok u) : current = expected := by
  unfold checkHouseholdProjection at passes
  split at passes
  · cases passes
  · split at passes
    · cases passes
    · exact not_not.mp ‹_›

variable {person : String} {row : Option Binding} {b : Binding}

/-- What is accepted: the first row adopts the reference, a later one keeps its target. -/
lemma accept_ok {refs : List Ref} {intent : Intent}
    (accepts : acceptHouseholdProjection person refs row intent = .ok b) :
    b.intent = intent ∧ (row = none ∧ b.agentID = "" ∧ (∀ ref ∈ refs, ref.stackID = b.stackID) ∧
          trimSpace b.stackID = b.stackID ∨
        ∃ current, row = some current ∧ current.Precedes b ∧ b.target = current.target) := by
  unfold acceptHouseholdProjection at accepts
  split at accepts
  · cases accepts
  cases row with
  | none =>
    dsimp only at accepts
    split at accepts
    · cases accepts
      exact ⟨rfl, .inl ⟨rfl, rfl, by simp, rfl⟩⟩
    next ref =>
      cases accepts
      exact ⟨rfl, .inl ⟨rfl, rfl, by simp, ref.trimmed⟩⟩
    · cases accepts
  | some current =>
    dsimp only at accepts
    split at accepts
    · rcases checked : checkHouseholdProjection current.intent intent with _ | u
      · simp [checked, Except.map] at accepts
      · obtain rfl : current = b := by simpa [checked, Except.map] using accepts
        exact ⟨eq_of_check checked, .inr ⟨current, rfl, .refl current, rfl⟩⟩
    · rename_i higher
      cases accepts
      exact ⟨rfl, .inr ⟨current, rfl, ⟨(not_le.mp higher).le,
        fun same => absurd same (not_le.mp higher).ne, fun _ => rfl, fun _ => rfl⟩, rfl⟩⟩

lemma ne_empty_of_trimSpace {text : String} (some_text : trimSpace text ≠ "") : text ≠ "" := by
  rintro rfl
  exact some_text (by decide +kernel)

/-- What is bound: a target that was there, or a new one for the stack. -/
lemma bind_ok {expected b : Binding} {stackID agentID instanceID : String}
    (binds : bindHouseholdProjectionTarget row expected stackID agentID instanceID = .ok b) :
    ∃ current, row = some current ∧ current.Precedes b ∧ b.agentID ≠ "" ∧
      (b = current ∨ current.agentID = "" ∧ b.stackID ≠ "" ∧ b.stackID = stackID ∧
        (current.stackID = "" → b.intent.action = .add)) := by
  unfold bindHouseholdProjectionTarget at binds
  split at binds
  · cases binds
  rename_i named
  push Not at named
  cases row with
  | none => cases binds
  | some current =>
    dsimp only at binds
    rcases checked : checkHouseholdProjection current.intent expected.intent with _ | u
    · simp [checked, Except.bind] at binds
    simp only [checked, Except.bind] at binds
    split at binds
    · cases binds
      exact ⟨b, rfl, .refl b, ‹_›, .inl rfl⟩
    · rename_i free
      split at binds
      · cases binds
      rename_i fits
      push Not at fits free
      cases binds
      refine ⟨current, rfl, ⟨le_rfl, fun _ => rfl, fun old => ?_, fun bound => absurd free bound⟩,
        ne_empty_of_trimSpace named.2.1,
        .inr ⟨free, ne_empty_of_trimSpace named.1, rfl, fits.2.2⟩⟩
      exact (fits.2.1 old).symm

lemma stack_of_normalize {stackID username : String} {ref : Ref}
    (normal : normalizeHouseholdRef stackID username = .ok ref) :
    ref.stackID = trimSpace stackID := by
  unfold normalizeHouseholdRef at normal
  split at normal <;> cases normal
  rfl

/-- What is completed is the accepted projection: a removal empties the stack of the binding, and
an add puts its reference on that stack without the white space around it. -/
lemma complete_ok {refs refs' : List Ref}
    (completes : completeHouseholdProjection row refs b = .ok refs') :
    row = some b ∧ b.agentID ≠ "" ∧
      (∀ ref ∈ refs', ref ∈ refs ∨ ref.stackID = trimSpace b.stackID) ∧
      (b.intent.action = .remove → ∀ ref ∈ refs', ref ∈ refs ∧ ref.stackID ≠ b.stackID) := by
  unfold completeHouseholdProjection at completes
  cases row with
  | none => cases completes
  | some current =>
    dsimp only at completes
    rcases checked : checkHouseholdProjection current.intent b.intent with _ | u
    · simp [checked, Except.bind] at completes
    simp only [checked, Except.bind] at completes
    split at completes
    · cases completes
    rename_i fits
    push Not at fits
    obtain ⟨rfl, -, bound⟩ := fits
    refine ⟨rfl, bound, ?_⟩
    split at completes
    next removal =>
      cases completes
      refine ⟨fun ref mem => .inl (mem_of_mem_filter mem), fun _ ref mem => ?_⟩
      simpa using mem_filter.mp mem
    next addition =>
      rw [addition]
      refine ⟨?_, nofun⟩
      split at completes
      · cases completes
      next ref normal =>
      split at completes
      · cases completes
        exact forall_mem_snoc (fun _ => .inl) (.inr (stack_of_normalize normal))
      · split at completes
        · cases completes
          exact fun ref mem => .inl mem
        · cases completes

/-! ### The invariant -/

/-- The binding is as far as `b`. -/
def Known (row : Option Binding) (b : Binding) : Prop :=
  ∃ current, row = some current ∧ b.Precedes current

/-- What is true of the binding that a call holds. -/
def Call.Fits (row : Option Binding) (handled : List Binding) : Call → Prop
  | .accepted b | .dispatched b => Known row b
  | .bound b => Known row b ∧ b.agentID ≠ ""
  | .answered b => Known row b ∧ b ∈ handled
  | .waiting _ | .ended => True

namespace State

/-- While `r` is the accepted revision, it is the one of a removal that has been carried out. -/
def Removed (s : State) (row : Binding) (r : ℕ) : Prop :=
  r ≤ row.intent.revision ∧ (row.intent.revision = r → row.intent.action = .remove ∧ s.refs = [] ∧
    (row.agentID = "" ∧ row.stackID = "" ∨
      row.agentID ≠ "" ∧ r ≤ (s.nodes row.target).applied))

structure Orderly (s : State) : Prop where
  calls : ∀ call ∈ s.calls, call.Fits s.row s.handled
  sent : ∀ b ∈ s.sent, Known s.row b ∧ b.agentID ≠ ""
  handled : ∀ b ∈ s.handled, b.intent.revision ≤ (s.nodes b.target).applied
  /-- An account comes from an add that is the last that its node applied. -/
  nodes : ∀ t, (s.nodes t).account = true → ∃ b ∈ s.sent, b.target = t ∧
    b.intent.action = .add ∧ (s.nodes t).applied = b.intent.revision
  named : ∀ row, s.row = some row → (row.agentID ≠ "" → row.stackID ≠ "") ∧
    trimSpace row.stackID = row.stackID
  refs : ∀ row, s.row = some row → ∀ ref ∈ s.refs, ref.stackID = row.stackID
  removed : ∀ r ∈ s.removed, ∃ row, s.row = some row ∧ s.Removed row r

variable {s s' : State} {i : ℕ}

section

variable (h : s.Orderly)
include h

lemma Orderly.setCall {call : Call} (fits : call.Fits s.row s.handled) :
    (s.setCall i call).Orderly :=
  ⟨forall_mem_set h.calls fits, h.sent, h.handled, h.nodes, h.named, h.refs, h.removed⟩

/-- The row goes forward: it is made, gets another intent, or gets its target. -/
lemma Orderly.setRow {row : Binding}
    (first : s.row = none → ∀ ref ∈ s.refs, ref.stackID = row.stackID)
    (rises : ∀ current, s.row = some current → current.Precedes row ∧
      (row.target = current.target ∨ current.agentID = "" ∧ row.stackID ≠ "" ∧
        (current.stackID = "" → row.intent.action = .add)))
    (named : (row.agentID ≠ "" → row.stackID ≠ "") ∧ trimSpace row.stackID = row.stackID) :
    { s with row := some row }.Orderly := by
  have known {b : Binding} : Known s.row b → Known (some row) b := by
    rintro ⟨current, held, precedes⟩
    exact ⟨row, rfl, precedes.trans (rises current held).1⟩
  constructor
  case calls =>
    intro call mem
    have fits := h.calls call mem
    cases call with
    | accepted | dispatched => exact known fits
    | bound | answered => exact ⟨known fits.1, fits.2⟩
    | waiting | ended => trivial
  case sent => exact fun b mem => ⟨known (h.sent b mem).1, (h.sent b mem).2⟩
  case handled => exact h.handled
  case nodes => exact h.nodes
  case named =>
    rintro _ ⟨⟩
    exact named
  case refs =>
    rintro _ ⟨⟩ ref mem
    cases held : s.row with
    | none => exact first held ref mem
    | some current =>
      have at_stack := h.refs current held ref mem
      rw [(rises current held).1.stack (at_stack ▸ ref.named), at_stack]
  case removed =>
    intro r mem
    obtain ⟨current, held, reached, done⟩ := h.removed r mem
    obtain ⟨precedes, target⟩ := rises current held
    refine ⟨row, rfl, reached.trans precedes.revision, fun same => ?_⟩
    have still : current.intent.revision = r :=
      le_antisymm (precedes.revision.trans same.le) reached
    have intent := precedes.intent (still.trans same.symm)
    obtain ⟨action, refs, carried⟩ := done still
    refine ⟨intent ▸ action, refs, ?_⟩
    rcases target with kept | ⟨free, -, adds⟩
    · have agent : row.agentID = current.agentID := congrArg (·.2.1) kept
      have stack : row.stackID = current.stackID := congrArg (·.1) kept
      show _ ∨ _ ∧ r ≤ (s.nodes row.target).applied
      rw [agent, stack, kept]
      exact carried
    · -- A removal binds no target where there is no stack.
      rcases carried with ⟨-, blank⟩ | ⟨bound, -⟩
      · have added := adds blank
        rw [← intent, action] at added
        cases added
      · exact absurd free bound

/-- A removal that is carried out is counted. -/
lemma Orderly.succeed {row : Binding} (held : s.row = some row)
    (done : row.intent.action = .remove → s.Removed row row.intent.revision) :
    (s.succeed row.intent).Orderly := by
  unfold State.succeed
  split
  next removal =>
    exact { h with removed := forall_mem_snoc h.removed ⟨row, held, done removal⟩ }
  next => exact h

lemma Orderly.accept (made : s.act person (.accept i) = some s') : s'.Orderly := by
  simp only [act] at made
  split at made
  next intent held =>
    split at made
    next => exact some.inj made ▸ h.setCall trivial
    next b accepts =>
      cases made
      obtain ⟨rfl, from_row⟩ := accept_ok accepts
      have moved : { s with row := some b }.Orderly := by
        rcases from_row with ⟨none_, free, adopted, trimmed⟩ | ⟨current, row, precedes, target⟩
        · refine h.setRow (fun _ => adopted) (fun current row => ?_)
            ⟨fun bound => absurd free bound, trimmed⟩
          cases none_.symm.trans row
        · refine h.setRow (fun none_ => ?_) (fun current' row' => ?_) ?_
          · cases none_.symm.trans row
          · cases row.symm.trans row'
            exact ⟨precedes, .inl target⟩
          · have agent : b.agentID = current.agentID := congrArg (·.2.1) target
            have stack : b.stackID = current.stackID := congrArg (·.1) target
            rw [stack, agent]
            exact h.named current row
      unfold goOn
      split
      next blank =>
        refine (moved.succeed rfl fun removal => ⟨le_rfl, fun _ => ⟨removal, ?_,
          .inl ⟨?_, blank.1⟩⟩⟩).setCall trivial
        · refine eq_nil_iff_forall_not_mem.mpr fun ref mem => ref.named ?_
          exact (moved.refs b rfl ref mem).trans blank.1
        · by_contra bound
          exact (moved.named b rfl).1 bound blank.1
      next =>
        split
        · exact moved.setCall ⟨b, rfl, .refl b⟩
        · exact moved.setCall ⟨⟨b, rfl, .refl b⟩, ‹_›⟩
  next => cases made

lemma Orderly.bind {person stackID agentID instanceID : String}
    (trimmed : trimSpace stackID = stackID)
    (made : s.act person (.bind i stackID agentID instanceID) = some s') : s'.Orderly := by
  simp only [act] at made
  split at made
  next expected held =>
    split at made
    next => exact some.inj made ▸ h.setCall trivial
    next b binds =>
      cases made
      obtain ⟨current, row, precedes, bound, changes⟩ := bind_ok binds
      refine (h.setRow (fun none_ => ?_) (fun current' row' => ⟨?_, ?_⟩) ?_).setCall
        ⟨⟨b, rfl, .refl b⟩, bound⟩
      · cases none_.symm.trans row
      · exact some.inj (row.symm.trans row') ▸ precedes
      · cases row.symm.trans row'
        exact changes.imp (fun same => by rw [same]) fun new => ⟨new.1, new.2.1, new.2.2.2⟩
      · rcases changes with rfl | ⟨-, stack, chosen, -⟩
        · exact h.named b row
        · -- The stack is the homelab's, or the one that the call holds, which is the row's.
          refine ⟨fun _ => stack, ?_⟩
          rw [chosen]
          split
          · exact trimmed
          · obtain ⟨current', row', precedes⟩ := h.calls _ (mem_of_getElem? held)
            exact precedes.stack ‹_› ▸ (h.named current' row').2
  next => cases made

lemma Orderly.deliver (mem : b ∈ s.sent) :
    { s with
      nodes := Function.update s.nodes b.target ((s.nodes b.target).project b.intent)
      handled := s.handled ++ [b] }.Orderly := by
  -- No node falls back to a lower revision.
  have rises (t : String × String × String) : (s.nodes t).applied ≤
      (Function.update s.nodes b.target ((s.nodes b.target).project b.intent) t).applied := by
    by_cases here : t = b.target
    · rw [here, Function.update_self]
      exact (Node.le_project _ _).1
    · rw [Function.update_of_ne here]
  constructor
  case calls =>
    intro call listed
    have fits := h.calls call listed
    cases call with
    | answered => exact ⟨fits.1, mem_append_left _ fits.2⟩
    | accepted | bound | dispatched | waiting | ended => exact fits
  case sent => exact h.sent
  case handled =>
    refine forall_mem_snoc (fun b' old => (h.handled b' old).trans (rises _)) ?_
    simp only [Function.update_self]
    exact (Node.le_project _ _).2
  case nodes =>
    intro t account
    by_cases here : t = b.target
    · subst here
      simp only [Function.update_self] at account ⊢
      unfold Node.project at account ⊢
      split at account
      next lower =>
        rw [if_pos lower]
        exact h.nodes _ account
      next higher =>
        rw [if_neg higher]
        exact ⟨b, mem, rfl, of_decide_eq_true account, rfl⟩
    · simp only [Function.update_of_ne here] at account ⊢
      exact h.nodes t account
  case named => exact h.named
  case refs => exact h.refs
  case removed =>
    intro r listed
    obtain ⟨row, held, reached, done⟩ := h.removed r listed
    refine ⟨row, held, reached, fun same => ?_⟩
    obtain ⟨action, refs, carried⟩ := done same
    exact ⟨action, refs, carried.imp_right fun bound => ⟨bound.1, bound.2.trans (rises _)⟩⟩

lemma Orderly.complete (made : s.act person (.complete i) = some s') : s'.Orderly := by
  simp only [act] at made
  split at made
  next b held =>
    obtain ⟨known, answered⟩ := h.calls _ (mem_of_getElem? held)
    split at made
    next => exact some.inj made ▸ h.setCall trivial
    next refs completes =>
      cases made
      obtain ⟨row, bound, kept, emptied⟩ := complete_ok completes
      have at_stack : ∀ ref ∈ refs, ref.stackID = b.stackID := fun ref mem =>
        (kept ref mem).elim (h.refs b row ref) fun stack => stack.trans (h.named b row).2
      have none_left : b.intent.action = .remove → refs = [] := fun removal =>
        eq_nil_iff_forall_not_mem.mpr fun ref mem =>
          (emptied removal ref mem).2 (at_stack ref mem)
      have moved : { s with refs }.Orderly := by
        refine ⟨h.calls, h.sent, h.handled, h.nodes, h.named, fun row' held' => ?_, ?_⟩
        · cases row.symm.trans held'
          exact at_stack
        · intro r mem
          obtain ⟨row', held', reached, done⟩ := h.removed r mem
          cases row.symm.trans held'
          exact ⟨b, held', reached, fun same => ⟨(done same).1, none_left (done same).1,
            (done same).2.2⟩⟩
      refine (moved.succeed row fun removal => ⟨le_rfl, fun _ => ?_⟩).setCall trivial
      exact ⟨removal, none_left removal, .inr ⟨bound, h.handled b answered⟩⟩
  next => cases made

lemma Orderly.kept {move : Move} (trimmed : move.trimmed)
    (made : s.act person move = some s') : s'.Orderly := by
  cases move with
  | accept => exact h.accept made
  | bind => exact h.bind (of_decide_eq_true trimmed) made
  | dispatch =>
    simp only [act] at made
    split at made
    next b held =>
      cases made
      have fits := h.calls _ (mem_of_getElem? held)
      have moved : { s with sent := s.sent ++ [b] }.Orderly := by
        refine ⟨h.calls, ?_, h.handled, fun t account => ?_, h.named, h.refs, h.removed⟩
        · exact forall_mem_snoc h.sent fits
        · obtain ⟨b', mem, rest⟩ := h.nodes t account
          exact ⟨b', mem_append_left _ mem, rest⟩
      exact moved.setCall fits.1
    next => cases made
  | deliver =>
    obtain ⟨mem, ⟨⟩⟩ := ite_none_right_eq_some.mp made
    exact h.deliver mem
  | answer =>
    simp only [act] at made
    split at made
    next held =>
      obtain ⟨handled, ⟨⟩⟩ := ite_none_right_eq_some.mp made
      exact h.setCall ⟨h.calls _ (mem_of_getElem? held), handled⟩
    next => cases made
  | complete => exact h.complete made
  | stop => exact some.inj made ▸ h.setCall trivial

end

/-- **A removed member stays removed.**  Once a removal has returned success, there is no reference
of the member and no account that a projection created, until a higher revision is accepted.  The
identifiers of stacks have no white space around them. -/
theorem removed_stays_removed {person : String}
    (reached : (machine person).Reaches (fun _ move => move.trimmed) s) {r : ℕ} (removed : r ∈ s.removed)
    {row : Binding} (held : s.row = some row) (highest : row.intent.revision ≤ r) :
    s.refs = [] ∧ ∀ t, (s.nodes t).account = false := by
  have h : s.Orderly := by
    refine reached.invariant Orderly ?_ fun _ _ _ h trimmed made => h.kept trimmed made
    rintro _ ⟨refs, intents, rfl⟩
    refine ⟨fun call member => ?_, nofun, nofun, nofun, nofun, nofun, nofun⟩
    obtain ⟨intent, -, rfl⟩ := mem_map.mp member
    trivial
  obtain ⟨row', held', least, done⟩ := h.removed r removed
  cases held.symm.trans held'
  obtain ⟨action, refs, carried⟩ := done (le_antisymm highest least)
  refine ⟨refs, fun t => Bool.eq_false_iff.mpr fun account => ?_⟩
  -- The account would come from an add of the accepted revision.
  obtain ⟨b, member, rfl, adds, applied⟩ := h.nodes t account
  obtain ⟨⟨row', held', precedes⟩, bound⟩ := h.sent b member
  cases held.symm.trans held'
  have target := precedes.target bound
  have agent : row.agentID = b.agentID := congrArg (·.2.1) target
  rcases carried with ⟨free, -⟩ | ⟨-, at_node⟩
  · exact bound (agent ▸ free)
  · rw [target, applied] at at_node
    have same := le_antisymm precedes.revision (highest.trans at_node)
    rw [precedes.intent same, action] at adds
    cases adds

/-- What the add of the first revision sends to its node. -/
def firstAdd (stackID : String) : Binding := ⟨⟨1, .add, "d1"⟩, "member", stackID, "agent", "kit"⟩

def thenRemoved (stackID : String) : Binding :=
  { firstAdd stackID with intent := ⟨2, .remove, "d2"⟩ }

/-- An add and a removal. -/
def addAndRemove (stackID : String) : List Move :=
  [.accept 0, .bind 0 stackID "agent" "kit", .dispatch 0, .deliver (firstAdd stackID), .answer 0,
    .complete 0, .accept 1, .dispatch 1, .deliver (thenRemoved stackID), .answer 1, .complete 1]

lemma enacted (stackID : String) : (machine "member").Enacts (act "member")
    { refs := []
      calls := [.waiting (firstAdd stackID).intent, .waiting (thenRemoved stackID).intent] } :=
  ⟨⟨[], [(firstAdd stackID).intent, (thenRemoved stackID).intent], rfl⟩, fun _ _ _ => id⟩

/-- A stack with a blank before its identifier: the add stores its reference without the blank, and
the removal, which looks for it with the blank, succeeds and leaves it. -/
theorem blank_stack_stays : ∃ s row, (machine "member").Reaches (fun _ _ => True) s ∧
    2 ∈ s.removed ∧ s.row = some row ∧ row.intent.revision ≤ 2 ∧
    s.refs.map (·.stackID) = ["s"] := by
  obtain ⟨s, reached, removed, held, left⟩ := (enacted " s").reaches_any (addAndRemove " s")
    (fun s => 2 ∈ s.removed ∧ s.row = some (thenRemoved " s") ∧ s.refs.map (·.stackID) = ["s"])
    (by decide +kernel)
  exact ⟨s, _, reached, removed, held, le_rfl, left⟩

/-- An add and a removal, after which the add arrives at the node once more. -/
theorem removed_stays_removed_late_add : ∃ s row,
    (machine "member").Reaches (fun _ move => move.trimmed) s ∧
    2 ∈ s.removed ∧ s.row = some row ∧ row.intent.revision ≤ 2 ∧ s.handled.length = 3 ∧
    s.refs = [] ∧ ∀ t, (s.nodes t).account = false := by
  obtain ⟨s, reached, removed, held, handled⟩ := (enacted "stack").reaches
    (fun _ move => move.trimmed) (fun _ _ => id) (addAndRemove "stack" ++ [.deliver (firstAdd "stack")])
    (fun s => 2 ∈ s.removed ∧ s.row = some (thenRemoved "stack") ∧ s.handled.length = 3)
    (by decide +kernel)
  exact ⟨s, _, reached, removed, held, le_rfl, handled,
    removed_stays_removed reached removed held le_rfl⟩

end State

end TechStack.Household
