import TechStack.Lib.Transition

/-!
# The heartbeat of a claim

While an adapter executes, a goroutine renews the claim.  `finalize` takes `renewMu`, so that no
renewal runs beside the append, and appends unless `lost` is set.  The goroutine sets `lost` under
another mutex, when it has given `renewMu` back.  If `finalize` gets `renewMu` in between, it
appends, and `advanceWithClaim` still returns `ErrExecutionClaimLost` (`lost_yet_appended`).
-/

namespace TechStack.ProviderControl.Heartbeat

open Option Lib

/-- Where the goroutine of `startClaimHeartbeat` is. -/
inductive Beat where
  | waiting
  /-- `RenewExecutionClaim` runs, under `renewMu`. -/
  | renewing
  /-- It has failed, with `context.Canceled` or otherwise, and `renewMu` is free again. -/
  | failed (canceled : Bool)
  /-- `lost` is set if it has to be. -/
  | leaving
  | done
  deriving DecidableEq

/-- What `advanceWithClaim` returns: no error, `ErrExecutionClaimLost`, or another error. -/
inductive Answer where
  | advanced
  | claimLost
  | otherwise
  deriving DecidableEq

/-- Where `advanceWithClaim` is, with the answer that it is about to give. -/
inductive Stage where
  | executing
  /-- `snapshot` has found the claim, and the result is looked at. -/
  | validating
  /-- `finalize` waits for `renewMu`, then reads `lost`, calls `fn`, initiates the stop and gives
  `renewMu` back, and waits for the goroutine. -/
  | locking
  | reading
  | appending
  | stopping (answer : Answer)
  | draining (answer : Answer)
  /-- Only the deferred `stop` is left. -/
  | returned (answer : Answer)
  deriving DecidableEq

/-- `finalize` has `renewMu`. -/
def Stage.locked : Stage → Bool
  | .reading | .appending | .stopping _ => true
  | _ => false

structure State where
  beat : Beat := .waiting
  stage : Stage := .executing
  lost : Bool := false
  stopping : Bool := false
  /-- A renewal has failed, not by cancellation. -/
  failed : Bool := false
  /-- One had when `finalize` began. -/
  failedBefore : Bool := false
  attempted : Bool := false
  appended : Bool := false

inductive Move where
  | tick
  | renewed
  | fails (canceled : Bool)
  | publish
  | leave
  | execute
  | reject
  | finalize
  | lock
  | read
  /-- `AppendClaimedReceipt` answers.  It refuses a lost claim in the transaction that appends;
  another error may come after the commit. -/
  | append (answer : Answer) (appended : Bool)
  | stop
  | join
  deriving DecidableEq

namespace State

/-- A step of either goroutine.  The context may end at any time, as the caller may cancel it. -/
def act (s : State) : Move → Option State
  | .tick =>
    if s.beat = .waiting ∧ s.stage.locked = false then some { s with beat := .renewing } else none
  | .renewed => if s.beat = .renewing then some { s with beat := .waiting } else none
  | .fails canceled =>
    if s.beat = .renewing then
      some { s with beat := .failed canceled, failed := s.failed || !canceled }
    else none
  | .publish =>
    match s.beat with
    | .failed canceled =>
      some { s with beat := .leaving, lost := s.lost || !s.stopping && !canceled }
    | _ => none
  | .leave =>
    if s.beat = .waiting ∨ s.beat = .leaving then some { s with beat := .done } else none
  | .execute =>
    if s.stage = .executing then
      some { s with stage := if s.lost then .returned .claimLost else .validating }
    else none
  -- The result is rejected, or brings no progress.
  | .reject =>
    if s.stage = .validating then some { s with stage := .returned .otherwise } else none
  | .finalize =>
    if s.stage = .validating then
      some { s with stage := .locking, failedBefore := s.failed }
    else none
  | .lock =>
    if s.stage = .locking ∧ s.beat ≠ .renewing then some { s with stage := .reading } else none
  | .read =>
    if s.stage = .reading then
      some (if s.lost then { s with stage := .stopping .claimLost }
        else { s with stage := .appending, attempted := true })
    else none
  | .append answer appended =>
    if s.stage = .appending ∧ (answer = .advanced → appended = true) ∧
        (answer = .claimLost → appended = false) then
      some { s with stage := .stopping answer, appended := appended }
    else none
  | .stop =>
    match s.stage with
    | .stopping answer => some { s with stage := .draining answer, stopping := true }
    | .returned _ => some { s with stopping := true }
    | _ => none
  | .join =>
    match s.beat, s.stage with
    | .done, .draining answer =>
      some { s with stage := .returned (if s.lost then .claimLost else answer) }
    | _, _ => none

end State

open State

/-- One call of `advanceWithClaim` from the start of its heartbeat on. -/
def machine : Machine State Move where
  init s := s = {}
  step s move s' := s.act move = some s'

/-- `finalize` does not get `renewMu` while a failed renewal is still to be published. -/
def Published (s : State) (move : Move) : Prop := move = .lock → s.beat ≠ .failed false

/-- Nothing can have been attempted yet. -/
def Stage.early : Stage → Bool
  | .executing | .validating | .locking | .reading => true
  | _ => false

/-- The answer is known. -/
def Stage.answer : Stage → Option Answer
  | .stopping answer | .draining answer | .returned answer => some answer
  | _ => none

/-- The call is not stopped, and a renewal that has failed is published or about to be, though
not beside `finalize`. -/
def Open (s : State) : Prop :=
  s.stopping = false ∧ (s.failed = true → s.lost = true ∨ s.beat = .failed false) ∧
    (s.stage.locked = true → s.beat ≠ .renewing ∧ s.beat ≠ .failed false)

/-- What holds of a call in such a run. -/
structure Sound (s : State) : Prop where
  isOpen : s.stage.early = true ∨ s.stage.locked = true → Open s
  early : s.stage.early = true → s.attempted = false
  appending : s.stage = .appending → s.attempted = true
  /-- An append is attempted with the claim, and then the claim is not lost any more. -/
  held : s.attempted = true → s.lost = false ∧ s.failedBefore = false ∧
    (s.stopping = true ∨ s.stage.locked = true)
  appended : s.appended = true → s.attempted = true ∧ s.stage.answer ≠ some .claimLost
  before : s.failedBefore = true → s.failed = true

namespace Sound

variable {s s' : State} (sound : Sound s)
include sound

/-- The goroutine goes on, and sets `lost` only when nothing has been attempted. -/
lemma beats {beat : Beat} {lost failed : Bool}
    (opens : Open s → Open { s with beat := beat, lost := lost, failed := failed })
    (keeps : s.attempted = true → lost = s.lost) (fails : s.failed = true → failed = true) :
    Sound { s with beat := beat, lost := lost, failed := failed } :=
  { sound with
    isOpen := fun runs => opens (sound.isOpen runs)
    held := fun attempted => by
      obtain ⟨kept, rest⟩ := sound.held attempted
      exact ⟨(keeps attempted).trans kept, rest⟩
    before := fun failedBefore => fails (sound.before failedBefore) }

/-- The call goes on, and nothing has been attempted. -/
lemma goes {stage : Stage} {failedBefore : Bool} (early : s.stage.early = true)
    (opens : Open s → Open { s with stage := stage, failedBefore := failedBefore })
    (further : stage ≠ .appending) (before : failedBefore = true → s.failed = true) :
    Sound { s with stage := stage, failedBefore := failedBefore } := by
  have none := sound.early early
  refine ⟨fun _ => opens (sound.isOpen (.inl early)), fun _ => none,
    fun here => absurd here further, fun held => ?_, fun held => ?_, before⟩
  · cases none.symm.trans held
  · cases none.symm.trans (sound.appended held).1

/-- `lost` is clear under `renewMu`, so the append is attempted with the claim. -/
lemma attempts (here : s.stage = .reading) (kept : s.lost = false) :
    Sound { s with stage := .appending, attempted := true } := by
  obtain ⟨stopping, published, free⟩ := sound.isOpen (.inl (here ▸ rfl))
  have free := free (here ▸ rfl)
  refine ⟨fun _ => ⟨stopping, published, fun _ => free⟩, by simp [Stage.early], fun _ => rfl,
    fun _ => ⟨kept, ?_, .inr rfl⟩, fun _ => ⟨rfl, by simp [Stage.answer]⟩, sound.before⟩
  -- A renewal that had failed before would be published by now.
  apply Bool.eq_false_iff.mpr
  intro failedBefore
  rcases published (sound.before failedBefore) with lost | pending
  · cases kept.symm.trans lost
  · exact free.2 pending

/-- What comes after an append keeps its answer. -/
lemma answers {stage : Stage} {stopping appended : Bool} {answer : Answer}
    (late : stage.answer = some answer) (opens : stage.locked = true →
      Open { s with stage := stage, stopping := stopping, appended := appended })
    (stops : s.attempted = true → stopping = true ∨ stage.locked = true)
    (honest : appended = true → s.attempted = true ∧ answer ≠ .claimLost) :
    Sound { s with stage := stage, stopping := stopping, appended := appended } := by
  have notEarly : stage.early ≠ true := by
    cases stage <;> simp [Stage.answer, Stage.early] at late ⊢
  refine ⟨fun runs => opens (runs.resolve_left notEarly), fun early => absurd early notEarly, ?_,
    fun attempted => ?_, fun held => ?_, sound.before⟩
  · rintro rfl
    cases late
  · obtain ⟨kept, before, -⟩ := sound.held attempted
    exact ⟨kept, before, stops attempted⟩
  · obtain ⟨attempted, other⟩ := honest held
    exact ⟨attempted, by simpa [late] using other⟩

/-- One step of such a run. -/
lemma act {move : Move} (published : Published s move) (stepped : s.act move = some s') :
    Sound s' := by
  cases move with
  | tick | renewed | fails | leave =>
    -- No renewal runs beside `finalize`, and one that fails is about to be published.
    obtain ⟨here, ⟨⟩⟩ := ite_none_right_eq_some.mp stepped
    exact sound.beats (by grind [Open]) (fun _ => rfl) (by simp +contextual)
  | publish =>
    simp only [State.act] at stepped
    split at stepped <;> cases stepped
    refine sound.beats (by grind [Open]) (fun attempted => ?_) id
    -- After an attempt the call is stopped, or no failed renewal is left to be published.
    rcases (sound.held attempted).2.2 with stopping | locked
    · simp [stopping]
    · have free := (sound.isOpen (.inr locked)).2.2 locked
      grind
  | execute | reject | finalize | lock =>
    -- `finalize` gets `renewMu` only when every failed renewal is published.
    obtain ⟨here, ⟨⟩⟩ := ite_none_right_eq_some.mp stepped
    have before := sound.before
    exact sound.goes (by grind [Stage.early]) (by grind [Open, Published, Stage.locked])
      (by grind) (by grind)
  | read =>
    obtain ⟨here, ⟨⟩⟩ := ite_none_right_eq_some.mp stepped
    split
    case isTrue lost =>
      exact sound.goes (here ▸ rfl) (by grind [Open, Stage.locked]) (by simp) sound.before
    case isFalse kept => exact sound.attempts here (Bool.eq_false_iff.mpr kept)
  | append answer appended =>
    obtain ⟨⟨here, -, refused⟩, ⟨⟩⟩ := ite_none_right_eq_some.mp stepped
    have isOpen := sound.isOpen (.inr (here ▸ rfl))
    refine sound.answers rfl (fun _ => ?_) (fun _ => .inr rfl) fun held =>
      ⟨sound.appending here, fun lost => ?_⟩
    · grind [Open, Stage.locked]
    · cases (refused lost).symm.trans held
  | stop =>
    have appended := sound.appended
    simp only [State.act] at stepped
    split at stepped <;> cases stepped <;> rename_i answer here
    all_goals
      refine sound.answers (by simp [here, Stage.answer] : _ = some answer) ?_
        (fun _ => .inl rfl) ?_
      · simp [here, Stage.locked]
      · simpa [here, Stage.answer] using appended
  | join =>
    simp only [State.act] at stepped
    split at stepped <;> cases stepped
    case h_1 answer done here =>
    refine sound.answers rfl (fun locked => by cases locked) (fun attempted => ?_) fun held => ?_
    · obtain ⟨-, -, stopping⟩ := sound.held attempted
      simpa [here, Stage.locked] using stopping
    · obtain ⟨attempted, other⟩ := sound.appended held
      simpa [(sound.held attempted).1, here, Stage.answer] using And.intro attempted other

end Sound

/-- **A lost claim means that nothing was appended**, in every run in which `finalize` does not get
`renewMu` while a failed renewal is still to be published; and then a renewal that failed before
`finalize` began keeps the append from being attempted. -/
theorem lost_not_appended {s : State} (reached : machine.Reaches Published s) :
    (s.stage = .returned .claimLost → s.appended = false) ∧
      (s.failedBefore = true → s.attempted = false) := by
  have sound : Sound s := by
    refine reached.invariant Sound ?_ fun _ _ _ sound admitted => sound.act admitted
    rintro _ rfl
    exact ⟨by simp [Open, Stage.locked], fun _ => rfl, by simp, by simp, by simp, by simp⟩
  refine ⟨fun lost => ?_, fun failed => ?_⟩
  · apply Bool.eq_false_iff.mpr
    intro appended
    exact (sound.appended appended).2 (lost ▸ rfl)
  · apply Bool.eq_false_iff.mpr
    intro attempted
    cases failed.symm.trans (sound.held attempted).2.1

lemma enacted : machine.Enacts act {} := ⟨rfl, fun _ _ _ => id⟩

instance (s : State) (move : Move) : Decidable (Published s move) :=
  inferInstanceAs (Decidable (_ → _))

/-- A renewal fails while the result is looked at, and nothing is appended. -/
theorem lost_not_appended_published : ∃ s, machine.Reaches Published s ∧
    s.stage = .returned .claimLost ∧ s.failedBefore = true ∧ s.appended = false ∧
    s.attempted = false := by
  obtain ⟨s, reached, lost, failed⟩ := enacted.reaches (fun s move => Published s move)
    (fun _ _ => of_decide_eq_true)
    [.execute, .tick, .fails false, .finalize, .publish, .lock, .read, .stop, .leave, .join]
    (fun s => s.stage = .returned .claimLost ∧ s.failedBefore = true) (by decide +kernel)
  have holds := lost_not_appended reached
  exact ⟨s, reached, lost, failed, holds.1 lost, holds.2 failed⟩

/-- A renewal fails, `finalize` begins and appends, and then `lost` is set. -/
theorem lost_yet_appended : ∃ s, machine.Reaches (fun _ _ => True) s ∧
    s.stage = .returned .claimLost ∧ s.appended = true ∧ s.failedBefore = true ∧
    s.attempted = true :=
  enacted.reaches_any [.execute, .tick, .fails false, .finalize, .lock, .read,
    .append .advanced true, .publish, .stop, .leave, .join] _ (by decide +kernel)

end TechStack.ProviderControl.Heartbeat
