import TechStack.GuardRelease.Floor

/-!
# The switch to a staged Guard release

`Commit` keeps each installed executable as `.prev` and renames the staged one over it, the
operations executable first and the Guard last; when an operation fails it restores both
executables from their `.prev`, the Guard first.  A file is the digest of its content here, and
`Commit` is the list of its file operations, any of which may fail.

The switch back does not ask whose `.prev` it restores.  An operation that fails before the
`.prev` of an executable is renewed puts the release of an earlier update back
(`older_release_installed`).  A failed `Commit` changes nothing exactly on a host whose
executables are there and have no `.prev` of another release (`failed_commit_unchanged_iff`).
-/

namespace TechStack.GuardExec

open List Option

open GuardRelease (Release Floor)

/-! ### The host -/

/-- The two executables. -/
inductive Target where
  | agent
  | operations
  deriving DecidableEq

/-- An executable and the files beside it, as the digests of their contents.  A `.restore` file is
removed before it is linked and renamed, so what an earlier one held is never installed. -/
structure Slot where
  current : Option String := none
  prev : Option String := none
  next : Option String := none

/-- `trialRecord`. -/
structure Trial where
  id : ℕ
  candidate : Release
  previous : Release
  startedAt : ℤ
  deadline : ℤ
  deriving DecidableEq

inductive State where
  | staged
  | trial
  | denied
  | committed
  | rolledBack
  | recoveryNeeded
  deriving DecidableEq

/-- `UpdateStatus`, without its time. -/
structure Status where
  state : State
  version : String
  previousVersion : String
  reason : String
  trialID : Option ℕ
  deriving DecidableEq

/-- The executables, the state directory and the handoff directory.  The floor is none when it
cannot be read. -/
structure Host where
  agent : Slot := {}
  operations : Slot := {}
  floor : Option Floor := some {}
  staged : Option Release := none
  trial : Option Trial := none
  handoffTrial : Option Trial := none
  /-- There is a `TrialReady`. -/
  ready : Bool := false
  status : Option Status := none
  denyMutations : Bool := false

variable (guardOnly : Bool)

/-- `executables`: a substrate host has the Guard alone. -/
def executables : List Target :=
  if guardOnly then [.agent] else [.agent, .operations]

namespace Host

def slot (h : Host) : Target → Slot
  | .agent => h.agent
  | .operations => h.operations

def setSlot (h : Host) (slot : Slot) : Target → Host
  | .agent => { h with agent := slot }
  | .operations => { h with operations := slot }

lemma slot_setSlot_self (h : Host) (slot : Slot) (t : Target) :
    (h.setSlot slot t).slot t = slot := by
  cases t <;> rfl

lemma slot_setSlot_of_ne (h : Host) (slot : Slot) {t t' : Target} (differ : t' ≠ t) :
    (h.setSlot slot t).slot t' = h.slot t' := by
  cases t <;> cases t' <;> first | rfl | exact absurd rfl differ

end Host

/-! ### File operations -/

/-- The operations of `Stage`, of `Commit` and of the supervisor on the host. -/
inductive Op where
  | writeNext (t : Target) (content : String)
  | writeStaged (release : Release)
  | writeTrial (trial : Trial)
  | writeHandoff (trial : Trial)
  | removeReady
  | removePrev (t : Target)
  | linkPrev (t : Target)
  | activate (t : Target)
  | syncDir
  | runTransient (trial : Trial)
  /-- The switch back for one executable: its `.prev` is linked and renamed over it. -/
  | restore (t : Target)
  | removeTrial
  | removeHandoff
  | removeStaged
  | deny
  | record (status : Status)
  deriving DecidableEq

/-- An operation, none if it fails by itself.  A link needs its source and a free name;
a missing executable is not linked, and that is no error. -/
def perform (h : Host) : Op → Option Host
  | .writeNext t content => some (h.setSlot { h.slot t with next := some content } t)
  | .writeStaged release => some { h with staged := some release }
  | .writeTrial trial => some { h with trial := some trial }
  | .writeHandoff trial => some { h with handoffTrial := some trial }
  | .removeReady => some { h with ready := false }
  | .removePrev t => some (h.setSlot { h.slot t with prev := none } t)
  | .linkPrev t =>
    match (h.slot t).current, (h.slot t).prev with
    | none, _ => some h
    | some content, none => some (h.setSlot { h.slot t with prev := some content } t)
    | some _, some _ => none
  | .activate t => (h.slot t).next.map fun content =>
    h.setSlot { h.slot t with current := some content, next := none } t
  | .syncDir => some h
  | .runTransient _ => some h
  | .restore t => (h.slot t).prev.map fun content =>
    h.setSlot { h.slot t with current := some content } t
  | .removeTrial => some { h with trial := none }
  | .removeHandoff => some { h with handoffTrial := none }
  | .removeStaged => some { h with staged := none }
  | .deny => some { h with denyMutations := true }
  | .record status => some { h with status := some status }

/-- The executable that an operation is on. -/
def Op.target : Op → Option Target
  | .writeNext t _ => some t
  | .removePrev t => some t
  | .linkPrev t => some t
  | .activate t => some t
  | .restore t => some t
  | _ => none

variable {op : Op}

/-- An operation leaves the executables alone that it is not on. -/
lemma slot_perform {h h' : Host} {t : Target} (done : perform h op = some h')
    (aside : op.target ≠ some t) : h'.slot t = h.slot t := by
  have differ : ∀ {t'}, op.target = some t' → t ≠ t' := fun target same =>
    aside (target.trans (congrArg some same.symm))
  cases op with
  | writeNext | removePrev =>
    cases done
    exact h.slot_setSlot_of_ne _ (differ rfl)
  | linkPrev t' =>
    rw [perform] at done
    split at done
    · cases done
      rfl
    · cases done
      exact h.slot_setSlot_of_ne _ (differ rfl)
    · exact nomatch done
  | activate | restore =>
    obtain ⟨content, -, rfl⟩ := map_eq_some_iff.mp done
    exact h.slot_setSlot_of_ne _ (differ rfl)
  | _ =>
    cases done
    cases t <;> rfl

/-- An operation that may be made to fail. -/
def attempt (fails : Op → Bool) (h : Host) (op : Op) : Option Host :=
  if fails op then none else perform h op

/-- Operations whose errors are ignored. -/
def performAll (fails : Op → Bool) (h : Host) (ops : List Op) : Host :=
  ops.foldl (fun h op => (attempt fails h op).getD h) h

/-! ### Commit -/

/-- `switchTo` for one executable. -/
def switchOps (t : Target) : List Op := [.removePrev t, .linkPrev t, .activate t]

/-- `switchBack`. -/
def switchBackOps : List Op := (executables guardOnly).map .restore

/-- The last operations of `Commit`, after the executables are switched. -/
def closingOps (trial : Trial) : List Op :=
  [.syncDir, .record ⟨.trial, trial.candidate.version, trial.previous.version, "",
    some trial.id⟩, .runTransient trial]

/-- The operations of `Commit` once the staged release is checked.  The Guard executable moves
last. -/
def commitOps (trial : Trial) : List Op :=
  [.writeTrial trial, .writeHandoff trial, .removeReady] ++
    ((executables guardOnly).reverse.flatMap switchOps ++ closingOps trial)

/-- What `Commit` does when an operation fails, before it returns the error; none if the error is
ignored. -/
def onError : Op → Option (List Op)
  | .writeTrial _ => some []
  | .writeHandoff _ => some []
  | .linkPrev _ => some (switchBackOps guardOnly)
  | .activate _ => some (switchBackOps guardOnly)
  | .syncDir => some (switchBackOps guardOnly)
  | .runTransient trial => some (switchBackOps guardOnly ++ [.removeTrial, .removeHandoff,
      .record ⟨.rolledBack, trial.previous.version, trial.candidate.version,
        "trial_supervisor_unavailable", some trial.id⟩])
  | _ => none

/-- The operations one after the other: the host that they leave, and whether all went well. -/
def run (guardOnly : Bool) (fails : Op → Bool) : List Op → Host → Host × Bool
  | [], h => (h, true)
  | op :: rest, h =>
    match attempt fails h op with
    | some h' => run guardOnly fails rest h'
    | none =>
      match onError guardOnly op with
      | some back => (performAll fails h back, false)
      | none => run guardOnly fails rest h

section

variable (lower : String → String)

/-- The checks of `Commit`: the release is the staged one, the floor admits it, and its files are
as they were verified. -/
def Host.admits (h : Host) (guardOnly : Bool) (release : Release) : Bool :=
  h.staged == some release && h.floor.any (fun floor => (floor.denial lower release).isNone) &&
    (executables guardOnly).all (fun t => (h.slot t).next == some release.digest) &&
    h.agent.current.isSome

/-- The trial that `Commit` records. -/
def Host.newTrial (h : Host) (release : Release) (currentVersion : String) (id : ℕ)
    (now budget : ℤ) : Trial :=
  ⟨id, release, ⟨currentVersion, h.agent.current.getD ""⟩, now, now + budget⟩

/-- `Commit`. -/
def Host.commit (h : Host) (guardOnly : Bool) (fails : Op → Bool) (release : Release)
    (currentVersion : String) (id : ℕ) (now budget : ℤ) : Host × Bool :=
  if h.admits lower guardOnly release then
    let trial := h.newTrial release currentVersion id now budget
    run guardOnly fails (commitOps guardOnly trial) h
  else (h, false)

end

/-- `Stage` of a release that was verified. -/
def stageOps (release : Release) (currentVersion : String) : List Op :=
  (executables guardOnly).map (.writeNext · release.digest) ++
    [.writeStaged release, .record ⟨.staged, release.version, currentVersion, "", none⟩]

/-- `finishTrial`. -/
def finishOps (trial : Trial) : List Op :=
  [.removeTrial, .removeStaged, .removeHandoff,
    .record ⟨.committed, trial.candidate.version, trial.previous.version, "", some trial.id⟩]

/-! ### What a failed switch leaves -/

variable {rest : List Op}

section

variable {guardOnly : Bool} {fails : Op → Bool} {trial : Trial} {h h' h₀ : Host} {t t' : Target}

lemma run_cons_some (done : attempt fails h op = some h') :
    run guardOnly fails (op :: rest) h = run guardOnly fails rest h' := by
  rw [run, done]

lemma run_cons_ignored (failed : attempt fails h op = none)
    (ignored : onError guardOnly op = none) :
    run guardOnly fails (op :: rest) h = run guardOnly fails rest h := by
  rw [run, failed, ignored]

lemma run_cons_failed {rest back : List Op} (failed : attempt fails h op = none)
    (handled : onError guardOnly op = some back) :
    run guardOnly fails (op :: rest) h = (performAll fails h back, false) := by
  rw [run, failed, handled]

lemma attempt_eq_some (done : attempt fails h op = some h') : perform h op = some h' :=
  (ite_none_left_eq_some.mp done).2

lemma attempt_of_works (works : fails op = false) : attempt fails h op = perform h op :=
  if_neg (by rw [works]; exact Bool.false_ne_true)

/-- An executable that a switch back puts right: it is as it was and has no `.prev`, or its `.prev`
is what it was. -/
def Restorable (h₀ h : Host) (t : Target) : Prop :=
  ((h.slot t).current = (h₀.slot t).current ∧ (h.slot t).prev = none) ∨
    (h.slot t).prev = (h₀.slot t).current

lemma Restorable.congr (restorable : Restorable h₀ h t) (same : h'.slot t = h.slot t) :
    Restorable h₀ h' t := by
  unfold Restorable
  rw [same]
  exact restorable

lemma current_restore (works : fails (.restore t) = false)
    (there : (h₀.slot t).current ≠ none) (restorable : Restorable h₀ h t) :
    (((attempt fails h (.restore t)).getD h).slot t).current = (h₀.slot t).current := by
  obtain ⟨content, installed⟩ := ne_none_iff_exists'.mp there
  rw [attempt_of_works works, perform]
  rcases restorable with ⟨same, missing⟩ | kept
  · rw [missing]
    exact same
  · rw [kept, installed, map_some, getD_some, Host.slot_setSlot_self]

lemma slot_attempt (aside : op.target ≠ some t) :
    ((attempt fails h op).getD h).slot t = h.slot t := by
  cases done : attempt fails h op with
  | none => rfl
  | some after => exact slot_perform (attempt_eq_some done) aside

lemma slot_performAll {ops : List Op} (aside : ∀ op ∈ ops, op.target ≠ some t) :
    (performAll fails h ops).slot t = h.slot t := by
  induction ops generalizing h with
  | nil => rfl
  | cons op ops ih =>
    exact (ih fun op mem => aside op (mem_cons_of_mem _ mem)).trans
      (slot_attempt (aside op mem_cons_self))

lemma performAll_append (ops ops' : List Op) : performAll fails h (ops ++ ops') =
      performAll fails (performAll fails h ops) ops' :=
  foldl_append

/-- The switch back over some of the executables: those are put right, the others are left
alone. -/
lemma switchBack_spec (works : ∀ t, fails (.restore t) = false)
    {targets : List Target} (distinct : targets.Nodup) (there : ∀ t ∈ targets, (h₀.slot t).current ≠ none)
    (restorable : ∀ t ∈ targets, Restorable h₀ h t) :
    (∀ t ∈ targets,
      ((performAll fails h (targets.map .restore)).slot t).current = (h₀.slot t).current) ∧
    ∀ t ∉ targets, (performAll fails h (targets.map .restore)).slot t = h.slot t := by
  induction targets generalizing h with
  | nil => exact ⟨fun _ mem => (not_mem_nil mem).elim, fun _ _ => rfl⟩
  | cons first targets ih =>
    obtain ⟨apart, distinct⟩ := nodup_cons.mp distinct
    have away : ∀ t ∈ targets, t ≠ first := fun t mem same => apart (same ▸ mem)
    have aside : ∀ {t}, t ≠ first → (Op.restore first).target ≠ some t := fun differ same =>
      differ (Option.some.inj same).symm
    have ⟨inside, outside⟩ := ih (h := (attempt fails h (.restore first)).getD h) distinct
      (fun t mem => there t (mem_cons_of_mem _ mem))
      (fun t mem => (restorable t (mem_cons_of_mem _ mem)).congr
        (slot_attempt (aside (away t mem))))
    refine ⟨fun t mem => ?_, fun t missing => ?_⟩
    · rcases mem_cons.mp mem with rfl | mem
      · exact (congrArg Slot.current (outside t apart)).trans
          (current_restore (works t) (there t mem) (restorable t mem))
      · exact inside t mem
    · rw [mem_cons, not_or] at missing
      exact (outside t missing.2).trans (slot_attempt (aside missing.1))

/-- A host whose executables a switch back puts right. -/
structure Recoverable (guardOnly : Bool) (h₀ h : Host) : Prop where
  restorable : ∀ t ∈ executables guardOnly, Restorable h₀ h t
  aside : ∀ t ∉ executables guardOnly, (h.slot t).current = (h₀.slot t).current

/-- The executables are as they were unless all went well. -/
def UnchangedOnError (h₀ : Host) (result : Host × Bool) : Prop :=
  result.2 = false → ∀ t, (result.1.slot t).current = (h₀.slot t).current

lemma executables_nodup (guardOnly : Bool) : (executables guardOnly).Nodup := by
  cases guardOnly <;> decide

section

variable (recoverable : Recoverable guardOnly h₀ h)
include recoverable

/-- What a failing operation of the switch leaves. -/
lemma Recoverable.unchanged (works : ∀ t, fails (.restore t) = false)
    (there : ∀ t ∈ executables guardOnly, (h₀.slot t).current ≠ none) (t : Target) :
    ((performAll fails h (switchBackOps guardOnly)).slot t).current = (h₀.slot t).current := by
  have ⟨inside, outside⟩ := switchBack_spec works (executables_nodup guardOnly)
    there recoverable.restorable
  by_cases mem : t ∈ executables guardOnly
  · exact inside t mem
  · exact (congrArg Slot.current (outside t mem)).trans (recoverable.aside t mem)

lemma Recoverable.congr (same : ∀ t, h'.slot t = h.slot t) : Recoverable guardOnly h₀ h' where
  restorable t mem := (recoverable.restorable t mem).congr (same t)
  aside t apart := (congrArg Slot.current (same t)).trans (recoverable.aside t apart)

/-- An operation on no executable, whose error is ignored or undone by a switch back. -/
lemma Recoverable.cons (works : ∀ t, fails (.restore t) = false)
    (there : ∀ t ∈ executables guardOnly, (h₀.slot t).current ≠ none) (apart : op.target = none)
    (undone : ∀ back, onError guardOnly op = some back →
      ∃ log : List Op, back = switchBackOps guardOnly ++ log ∧ ∀ op ∈ log, op.target = none)
    (onward : ∀ h', Recoverable guardOnly h₀ h' →
      UnchangedOnError h₀ (run guardOnly fails rest h')) :
    UnchangedOnError h₀ (run guardOnly fails (op :: rest) h) := by
  have away : ∀ {op : Op}, op.target = none → ∀ t, op.target ≠ some t := fun none t some =>
    nomatch none.symm.trans some
  cases done : attempt fails h op with
  | some after =>
    rw [run_cons_some done]
    exact onward after (recoverable.congr fun t =>
      slot_perform (attempt_eq_some done) (away apart t))
  | none =>
    cases handled : onError guardOnly op with
    | none =>
      rw [run_cons_ignored done handled]
      exact onward h recoverable
    | some back =>
      obtain ⟨log, rfl, silent⟩ := undone back handled
      rw [run_cons_failed done handled]
      intro _ t
      rw [performAll_append, slot_performAll fun op mem => away (silent op mem) t]
      exact recoverable.unchanged works there t

lemma Recoverable.closing (works : ∀ t, fails (.restore t) = false)
    (there : ∀ t ∈ executables guardOnly, (h₀.slot t).current ≠ none) :
    UnchangedOnError h₀ (run guardOnly fails (closingOps trial) h) := by
  refine recoverable.cons works there rfl (fun back handled => ?_) fun h recoverable => ?_
  · cases handled
    exact ⟨[], (append_nil _).symm, by decide⟩
  refine recoverable.cons works there rfl (fun back handled => nomatch handled)
    fun h recoverable => ?_
  refine recoverable.cons works there rfl (fun back handled => ?_) fun h recoverable failed => ?_
  · cases handled
    exact ⟨_, rfl, by simp [Op.target]⟩
  · exact nomatch failed

end

/-- An executable as it was, with no `.prev` of another release. -/
structure Intact (h₀ h : Host) (t : Target) : Prop where
  current : (h.slot t).current = (h₀.slot t).current
  prev : (h.slot t).prev = none ∨ (h.slot t).prev = (h₀.slot t).current

lemma Intact.restorable (intact : Intact h₀ h t) : Restorable h₀ h t :=
  intact.prev.imp (fun missing => ⟨intact.current, missing⟩) id

lemma Intact.congr (intact : Intact h₀ h t) (same : h'.slot t = h.slot t) : Intact h₀ h' t where
  current := (congrArg Slot.current same).trans intact.current
  prev := by rw [same]; exact intact.prev

/-- The switch of one executable: it is done and what was installed is kept as `.prev`, or it
failed with the executable restorable. -/
lemma Intact.switch (guardOnly : Bool) (fails : Op → Bool)
    (intact : Intact h₀ h t) (there : (h₀.slot t).current ≠ none) (rest : List Op) :
    ∃ h', (∀ t', t' ≠ t → h'.slot t' = h.slot t') ∧ Restorable h₀ h' t ∧
      (run guardOnly fails (switchOps t ++ rest) h = run guardOnly fails rest h' ∨
        run guardOnly fails (switchOps t ++ rest) h =
          (performAll fails h' (switchBackOps guardOnly), false)) := by
  obtain ⟨content, installed⟩ := ne_none_iff_exists'.mp there
  have away : ∀ {t' : Target}, t' ≠ t → some t ≠ some t' := fun differ same =>
    differ (Option.some.inj same).symm
  -- the old `.prev` is removed, or it stays: it is of the installed release
  obtain ⟨h₁, aside₁, intact₁, ran₁⟩ : ∃ h₁, (∀ t', t' ≠ t → h₁.slot t' = h.slot t') ∧
      Intact h₀ h₁ t ∧ run guardOnly fails (switchOps t ++ rest) h =
        run guardOnly fails (.linkPrev t :: .activate t :: rest) h₁ := by
    cases done : attempt fails h (.removePrev t) with
    | none => exact ⟨h, fun _ _ => rfl, intact, run_cons_ignored done rfl⟩
    | some h₁ =>
      refine ⟨h₁, fun t' differ => slot_perform (attempt_eq_some done) (away differ), ?_,
        run_cons_some done⟩
      cases attempt_eq_some done
      constructor
      · rw [Host.slot_setSlot_self]
        exact intact.current
      · rw [Host.slot_setSlot_self]
        exact .inl rfl
  rw [ran₁]
  cases linked : attempt fails h₁ (.linkPrev t) with
  | none =>
    exact ⟨h₁, aside₁, intact₁.restorable, .inr (run_cons_failed linked rfl)⟩
  | some h₂ =>
    have kept : (h₂.slot t).prev = (h₀.slot t).current := by
      have made := attempt_eq_some linked
      rw [perform, intact₁.current, installed] at made
      cases old : (h₁.slot t).prev with
      | some content => exact nomatch (old ▸ made)
      | none =>
        rw [old] at made
        cases made
        rw [Host.slot_setSlot_self, installed]
    have aside₂ : ∀ t', t' ≠ t → h₂.slot t' = h.slot t' := fun t' differ =>
      (slot_perform (attempt_eq_some linked) (away differ)).trans (aside₁ t' differ)
    rw [run_cons_some linked]
    cases moved : attempt fails h₂ (.activate t) with
    | none => exact ⟨h₂, aside₂, .inr kept, .inr (run_cons_failed moved rfl)⟩
    | some h₃ =>
      refine ⟨h₃, fun t' differ => (slot_perform (attempt_eq_some moved) (away differ)).trans
        (aside₂ t' differ), .inr ?_, .inl (run_cons_some moved)⟩
      obtain ⟨content, -, rfl⟩ := map_eq_some_iff.mp (attempt_eq_some moved)
      rw [Host.slot_setSlot_self]
      exact kept

/-- The switch of the remaining executables and the end of `Commit`. -/
lemma switch_unchanged (works : ∀ t, fails (.restore t) = false)
    (there : ∀ t ∈ executables guardOnly, (h₀.slot t).current ≠ none) {targets : List Target}
    (distinct : targets.Nodup) (known : ∀ t ∈ targets, t ∈ executables guardOnly)
    (intact : ∀ t ∈ targets, Intact h₀ h t) (recoverable : Recoverable guardOnly h₀ h) :
    UnchangedOnError h₀
      (run guardOnly fails (targets.flatMap switchOps ++ closingOps trial) h) := by
  induction targets generalizing h with
  | nil => exact recoverable.closing works there
  | cons t targets ih =>
    obtain ⟨apart, distinct⟩ := nodup_cons.mp distinct
    have mem : t ∈ executables guardOnly := known t mem_cons_self
    obtain ⟨h', aside, restorable, ran⟩ := (intact t mem_cons_self).switch
      guardOnly fails (there t mem) (targets.flatMap switchOps ++ closingOps trial)
    have recoverable' : Recoverable guardOnly h₀ h' := by
      refine ⟨fun t' mem' => ?_, fun t' outside => ?_⟩
      · by_cases same : t' = t
        · exact same ▸ restorable
        · exact (recoverable.restorable t' mem').congr (aside t' same)
      · have differ : t' ≠ t := fun same => outside (same ▸ mem)
        exact (congrArg Slot.current (aside t' differ)).trans (recoverable.aside t' outside)
    rw [flatMap_cons, append_assoc]
    rcases ran with onward | failed
    · rw [onward]
      exact ih distinct (fun t' mem' => known t' (mem_cons_of_mem _ mem'))
        (fun t' mem' => (intact t' (mem_cons_of_mem _ mem')).congr
          (aside t' fun same => apart (same ▸ mem')))
        recoverable'
    · rw [failed]
      exact fun _ t' => recoverable'.unchanged works there t'

/-- The executables of a host are installed, and none has a `.prev` of another release. -/
def Host.Settled (h : Host) (guardOnly : Bool) : Prop :=
  ∀ t ∈ executables guardOnly, (h.slot t).current ≠ none ∧
    ((h.slot t).prev = none ∨ (h.slot t).prev = (h.slot t).current)

lemma Host.Settled.unchanged (settled : h.Settled guardOnly)
    (works : ∀ t, fails (.restore t) = false) :
    UnchangedOnError h (run guardOnly fails (commitOps guardOnly trial) h) := by
  have intact : ∀ {h'}, (∀ t, h'.slot t = h.slot t) → ∀ t ∈ executables guardOnly,
      Intact h h' t := fun same t mem =>
    Intact.congr ⟨rfl, (settled t mem).2⟩ (same t)
  have switched : ∀ {h'}, (∀ t, h'.slot t = h.slot t) → UnchangedOnError h (run guardOnly fails
        ((executables guardOnly).reverse.flatMap switchOps ++ closingOps trial) h') := by
    intro h' same
    refine switch_unchanged works (fun t mem => (settled t mem).1)
      (nodup_reverse.mpr (executables_nodup guardOnly)) (fun t => mem_reverse.mp)
      (fun t mem => intact same t (mem_reverse.mp mem)) ⟨?_, ?_⟩
    · exact fun t mem => (intact same t mem).restorable
    · exact fun t _ => congrArg Slot.current (same t)
  have log : ∀ {h₁ h₂ : Host} {op : Op}, op.target = none → attempt fails h₁ op = some h₂ →
      ∀ t, h₂.slot t = h₁.slot t := fun apart done t =>
    slot_perform (attempt_eq_some done) fun target => nomatch apart.symm.trans target
  unfold commitOps
  -- the three operations before the switch leave the executables alone
  cases wrote : attempt fails h (.writeTrial trial) with
  | none =>
    rw [cons_append, run_cons_failed wrote rfl]
    exact fun _ _ => rfl
  | some h₁ =>
    rw [cons_append, run_cons_some wrote]
    cases handed : attempt fails h₁ (.writeHandoff trial) with
    | none =>
      rw [cons_append, run_cons_failed handed rfl]
      exact fun _ t => congrArg Slot.current (log rfl wrote t)
    | some h₂ =>
      rw [cons_append, run_cons_some handed]
      have same₂ : ∀ t, h₂.slot t = h.slot t := fun t =>
        (log rfl handed t).trans (log rfl wrote t)
      cases removed : attempt fails h₂ .removeReady with
      | none =>
        rw [cons_append, run_cons_ignored removed rfl]
        exact switched same₂
      | some h₃ =>
        rw [cons_append, run_cons_some removed]
        exact switched fun t => (log rfl removed t).trans (same₂ t)

end

/-! ### When a failed Commit changes nothing -/

/-- One operation that fails. -/
def onlyFails (op : Op) (other : Op) : Bool := other == op

section

variable (lower : String → String)

lemma Host.admits_eq_true {h : Host} {guardOnly : Bool} {release : Release}
    (admitted : h.admits lower guardOnly release = true) :
    (∀ t ∈ executables guardOnly, (h.slot t).next = some release.digest) ∧
      ∃ content, h.agent.current = some content := by
  simp only [admits, Bool.and_eq_true, List.all_eq_true, beq_iff_eq] at admitted
  exact ⟨admitted.1.2, Option.isSome_iff_exists.mp admitted.2⟩

/-- A `.prev` of the Guard that cannot be removed is installed. -/
lemma run_removePrev_agent {h : Host} {guardOnly : Bool} (trial : Trial) {content old : String}
    (staged : ∀ t ∈ executables guardOnly, ∃ next, (h.slot t).next = some next)
    (installed : h.agent.current = some content) (stale : h.agent.prev = some old) :
    let result := run guardOnly (onlyFails (.removePrev .agent)) (commitOps guardOnly trial) h
    result.2 = false ∧ result.1.agent.current = some old := by
  obtain ⟨⟨_, _, _⟩, ⟨current, _, _⟩⟩ := h
  dsimp only at installed stale
  subst installed stale
  cases guardOnly with
  | true => exact ⟨rfl, rfl⟩
  | false =>
    obtain ⟨next, named⟩ := staged .operations (by decide)
    dsimp only [Host.slot] at named
    subst named
    cases current <;> exact ⟨rfl, rfl⟩

/-- So is a `.prev` of the operations executable. -/
lemma run_removePrev_operations {h : Host} (trial : Trial) {content old : String}
    (installed : h.operations.current = some content) (stale : h.operations.prev = some old) :
    let result := run false (onlyFails (.removePrev .operations)) (commitOps false trial) h
    result.2 = false ∧ result.1.operations.current = some old := by
  obtain ⟨⟨_, agentPrev, _⟩, ⟨_, _, _⟩⟩ := h
  dsimp only at installed stale
  subst installed stale
  cases agentPrev <;> exact ⟨rfl, rfl⟩

/-- An operations executable that was missing stays after a failed `Commit`. -/
lemma run_syncDir {h : Host} (trial : Trial) {content next next' : String}
    (installed : h.agent.current = some content) (agentStaged : h.agent.next = some next')
    (missing : h.operations.current = none) (staged : h.operations.next = some next) :
    let result := run false (onlyFails .syncDir) (commitOps false trial) h
    result.2 = false ∧ result.1.operations.current = some next := by
  obtain ⟨⟨_, _, _⟩, ⟨_, _, _⟩⟩ := h
  dsimp only at installed agentStaged missing staged
  subst installed agentStaged missing staged
  exact ⟨rfl, rfl⟩

/-- A host that is not settled is changed by a failed `Commit`. -/
lemma Host.settled_of_unchanged {h : Host} {guardOnly : Bool} (trial : Trial)
    {release : Release} (admitted : h.admits lower guardOnly release = true)
    (unchanged : ∀ op, (∀ t, op ≠ .restore t) →
      UnchangedOnError h (run guardOnly (onlyFails op) (commitOps guardOnly trial) h)) :
    h.Settled guardOnly := by
  obtain ⟨staged, content, installed⟩ := h.admits_eq_true lower admitted
  -- a `.prev` whose failed removal leaves the executable as it was is of the installed release
  have prev_eq : ∀ (t : Target) {content : String}, (h.slot t).current = some content →
      (∀ old, (h.slot t).prev = some old → some old = some content) →
      (h.slot t).prev = none ∨ (h.slot t).prev = (h.slot t).current := by
    intro t content installed same
    cases kept : (h.slot t).prev with
    | none => exact .inl rfl
    | some old => exact .inr ((same old kept).trans installed.symm)
  intro t mem
  cases t with
  | agent =>
    refine ⟨fun missing => ?_, prev_eq .agent installed fun old stale => ?_⟩
    · exact nomatch installed.symm.trans missing
    have ⟨failed, restored⟩ := run_removePrev_agent trial
      (fun t mem => ⟨_, staged t mem⟩) installed stale
    have same := unchanged (.removePrev .agent) (fun t => by simp) failed .agent
    exact restored.symm.trans (same.trans installed)
  | operations =>
    cases guardOnly with
    | true => exact absurd mem (by decide)
    | false =>
      cases current : (h.slot .operations).current with
      | none =>
        have ⟨failed, put⟩ := run_syncDir trial installed
          (staged .agent (by decide)) current (staged .operations (by decide))
        have same := unchanged .syncDir (fun t => by simp) failed .operations
        exact nomatch put.symm.trans (same.trans current)
      | some content =>
        refine ⟨(nomatch ·), ?_⟩
        rw [← current]
        refine prev_eq .operations current fun old stale => ?_
        have ⟨failed, restored⟩ := run_removePrev_operations trial current stale
        have same := unchanged (.removePrev .operations) (fun t => by simp) failed .operations
        exact restored.symm.trans (same.trans current)

/-- A failed `Commit` leaves both executables as they were, whichever of its operations fails,
exactly if a host that passes its checks is settled. -/
theorem failed_commit_unchanged_iff (h : Host) (guardOnly : Bool) (release : Release)
    (currentVersion : String) (id : ℕ) (now budget : ℤ) :
    (∀ fails, (∀ t, fails (.restore t) = false) →
        (h.commit lower guardOnly fails release currentVersion id now budget).2 = false →
        ∀ t, ((h.commit lower guardOnly fails release currentVersion id now budget).1.slot
          t).current = (h.slot t).current) ↔
      (h.admits lower guardOnly release = true → h.Settled guardOnly) := by
  constructor
  · intro unchanged admitted
    refine Host.settled_of_unchanged lower (h.newTrial release currentVersion id now budget)
      admitted fun op forward => ?_
    have called := unchanged (onlyFails op) fun t => beq_eq_false_iff_ne.mpr (forward t).symm
    rw [Host.commit, if_pos admitted] at called
    exact called
  · intro settled fails works
    rw [Host.commit]
    split
    · rename_i admitted
      exact (settled admitted).unchanged works
    · exact fun _ _ => rfl

end

/-- A host that has been updated from `a` to `b`, and has the release `c` staged. -/
def updatedHost : Host :=
  let clean : Op → Bool := fun _ => false
  let fresh : Host := { agent := { current := some "a" }, operations := { current := some "a" } }
  let staged := performAll clean fresh (stageOps false ⟨"1.1.0", "b"⟩ "1.0.0")
  let switched := (staged.commit id false clean ⟨"1.1.0", "b"⟩ "1.0.0" 1 0 300).1
  let trial := staged.newTrial ⟨"1.1.0", "b"⟩ "1.0.0" 1 0 300
  performAll clean switched (finishOps trial ++ stageOps false ⟨"1.2.0", "c"⟩ "1.1.0")

/-- The next update fails to keep the operations executable and puts the Guard of the update
before it back, though the switch back succeeds. -/
theorem older_release_installed :
    let result := updatedHost.commit id false (onlyFails (.linkPrev .operations)) ⟨"1.2.0", "c"⟩ "1.1.0" 2
      400 300
    result.2 = false ∧ updatedHost.agent.current = some "b" ∧ result.1.agent.current = some "a" ∧
      (∀ t, onlyFails (.linkPrev .operations) (.restore t) = false) := by
  exact ⟨by decide +kernel, by decide +kernel, by decide +kernel, fun t => rfl⟩

end TechStack.GuardExec
