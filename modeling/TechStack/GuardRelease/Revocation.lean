import TechStack.GuardRelease.Floor
import TechStack.Lib.Slots
import TechStack.Lib.Transition

/-!
# Revocations of Guard releases

The service manager runs one executor process per connection.  A process that authenticates a
manifest reads the floor, takes the manifest in and replaces the file; a process that stages or
commits a release, or looks whether it may roll back, reads the floor and asks it.  The mutexes
of an updater hold inside one process only, so the processes here exclude each other nowhere.
Every file read and every atomic replacement is one step.

A process that read the floor before another one wrote it puts back a floor without the other
one's revocations (`overwritten_floor_admits`).  As long as no floor is replaced but the one that
was read (`Uncontested`), the floor denies all that a manifest denies whose authentication has
returned, and so does every decision that begins afterwards (`revocation_is_permanent`).
-/

namespace TechStack.GuardRelease

open List Lib

/-- What a decision is made for. -/
inductive Purpose where
  | stage
  | commit
  | rollback
  deriving DecidableEq

/-- A release that was let through, and the manifests whose authentication had returned when the
request began. -/
structure Admission where
  purpose : Purpose
  release : Release
  since : List Manifest

/-- Where a request is.  `staging` is the digest of the artifact that `Stage` goes on with, and
`since` are the manifests that had been authenticated when the request began. -/
inductive Process where
  /-- The manifest is verified; the floor is read next. -/
  | accepting (m : Manifest) (staging : Option String) (since : List Manifest)
  /-- There is no floor yet; the cached manifest is read next. -/
  | seeding (m : Manifest) (staging : Option String) (since : List Manifest)
  /-- The floor was read as `seen`, and `next` is about to replace it. -/
  | replacing (m : Manifest) (seen : Option Floor) (next : Floor) (staging : Option String)
      (since : List Manifest)
  | caching (m : Manifest) (staging : Option String) (since : List Manifest)
  | cachingBundle (m : Manifest) (staging : Option String) (since : List Manifest)
  /-- `AuthenticateManifest` has returned to `Stage`. -/
  | verifying (m : Manifest) (digest : String) (since : List Manifest)
  /-- The floor is read for a decision next. -/
  | deciding (purpose : Purpose) (release : Release) (since : List Manifest)
  | decidingSeed (purpose : Purpose) (release : Release) (since : List Manifest)
  | admitted (purpose : Purpose) (release : Release)
  /-- The trial is recorded; its supervisor is started next. -/
  | switching
  /-- The trial of a release, with the one it replaced. -/
  | supervising (trial previous : Release)
  | finishing
  /-- The trial has failed; the previous release is checked next. -/
  | fallingBack (previous : Release)
  | done

/-- The state directory, and what is under way. -/
structure Host where
  floor : Option Floor
  manifest : Option Manifest
  staged : Option Release
  trial : Option (Release × Release)
  processes : List Process
  /-- The manifests whose authentication has returned. -/
  returned : List Manifest
  /-- The decisions that let a release through. -/
  admissions : List Admission

inductive Action where
  | authenticate (m : Manifest) (staging : Option String)
  | stageUnsigned (release : Release)
  | commit (release : Release)
  | readFloor (process : ℕ)
  | readManifest (process : ℕ)
  | writeFloor (process : ℕ)
  | writeManifest (process : ℕ)
  | writeBundle (process : ℕ)
  | verifyArtifact (process : ℕ)
  | writeStaged (process : ℕ)
  | writeTrial (process : ℕ) (previous : Release)
  | dropTrial (process : ℕ)
  | runTrial
  | finishTrial (process : ℕ)
  | dropStaged (process : ℕ)
  | failTrial (process : ℕ)
  | checkFallback (process : ℕ)

variable {process : Process} {m : Manifest} {since : List Manifest}

namespace Host

/-- A host that has accepted nothing yet; it may have a manifest from before there were floors. -/
def fresh (cached : Option Manifest) : Host := ⟨none, cached, none, none, [], [], []⟩

def setProcess (h : Host) (i : ℕ) (process : Process) : Host :=
  { h with processes := h.processes.set i process }

def start (h : Host) (process : Process) : Host :=
  { h with processes := h.processes ++ [process] }

/-- A release is let through. -/
def recordAdmission (h : Host) (a : Admission) : Host :=
  { h with admissions := h.admissions ++ [a] }

/-- The floor of a host that has none: that of its cached manifest. -/
def seed (cached : Option Manifest) : Floor :=
  match cached with
  | none => {}
  | some m => ({} : Floor).accept m |>.toOption.getD {}

/-- A manifest is taken into the floor that was loaded, or refused. -/
def acceptManifest (seen : Option Floor) (loaded : Floor) (m : Manifest) (staging : Option String)
    (since : List Manifest) : Process :=
  match loaded.accept m with
  | .ok next => .replacing m seen next staging since
  | .error _ => .done

variable (lower : String → String)

/-- The floor that was loaded is asked. -/
def decideOn (h : Host) (i : ℕ) (loaded : Floor) (purpose : Purpose) (release : Release)
    (since : List Manifest) : Host :=
  match loaded.denial lower release with
  | some _ => h.setProcess i .done
  | none =>
    (h.recordAdmission ⟨purpose, release, since⟩).setProcess i (.admitted purpose release)

/-- What a step does, when it can be taken.  A process that stops, or that a check refuses,
takes no further step. -/
def act (h : Host) : Action → Option Host
  | .authenticate m staging => some (h.start (.accepting m staging h.returned))
  | .stageUnsigned release => some (h.start (.deciding .stage release h.returned))
  | .commit release =>
    if h.staged = some release then some (h.start (.deciding .commit release h.returned))
    else none
  | .readFloor i =>
    match h.processes[i]? with
    | some (.accepting m staging since) =>
      match h.floor with
      | some f => some (h.setProcess i (acceptManifest (some f) f m staging since))
      | none => some (h.setProcess i (.seeding m staging since))
    | some (.deciding purpose release since) =>
      match h.floor with
      | some f => some (h.decideOn lower i f purpose release since)
      | none => some (h.setProcess i (.decidingSeed purpose release since))
    | _ => none
  | .readManifest i =>
    match h.processes[i]? with
    | some (.seeding m staging since) =>
      some (h.setProcess i (acceptManifest none (seed h.manifest) m staging since))
    | some (.decidingSeed purpose release since) =>
      some (h.decideOn lower i (seed h.manifest) purpose release since)
    | _ => none
  | .writeFloor i =>
    match h.processes[i]? with
    | some (.replacing m _ next staging since) =>
      some ({ h with floor := some next }.setProcess i (.caching m staging since))
    | _ => none
  | .writeManifest i =>
    match h.processes[i]? with
    | some (.caching m staging since) =>
      some ({ h with manifest := some m }.setProcess i (.cachingBundle m staging since))
    | _ => none
  | .writeBundle i =>
    match h.processes[i]? with
    | some (.cachingBundle m staging since) =>
      let process := match staging with
        | some digest => Process.verifying m digest since
        | none => .done
      some ({ h with returned := h.returned ++ [m] }.setProcess i process)
    | _ => none
  | .verifyArtifact i =>
    match h.processes[i]? with
    | some (.verifying m digest since) =>
      match m.denial lower ⟨m.version, digest⟩ with
      | some _ => some (h.setProcess i .done)
      | none => some (h.setProcess i (.deciding .stage ⟨m.version, digest⟩ since))
    | _ => none
  | .writeStaged i =>
    match h.processes[i]? with
    | some (.admitted .stage release) =>
      some ({ h with staged := some release }.setProcess i .done)
    | _ => none
  | .writeTrial i previous =>
    match h.processes[i]? with
    | some (.admitted .commit release) =>
      some ({ h with trial := some (release, previous) }.setProcess i .switching)
    | _ => none
  | .dropTrial i =>
    -- The supervisor did not start, so `Commit` takes its trial back.
    match h.processes[i]? with
    | some .switching => some ({ h with trial := none }.setProcess i .done)
    | _ => none
  | .runTrial => h.trial.map fun (release, previous) => h.start (.supervising release previous)
  | .finishTrial i =>
    match h.processes[i]? with
    | some (.supervising _ _) => some ({ h with trial := none }.setProcess i .finishing)
    | _ => none
  | .dropStaged i =>
    match h.processes[i]? with
    | some .finishing => some ({ h with staged := none }.setProcess i .done)
    | _ => none
  | .failTrial i =>
    match h.processes[i]? with
    | some (.supervising _ previous) =>
      some ({ h with trial := none }.setProcess i (.fallingBack previous))
    | _ => none
  | .checkFallback i =>
    match h.processes[i]? with
    | some (.fallingBack previous) =>
      some (h.setProcess i (.deciding .rollback previous h.returned))
    | _ => none

/-- Executor processes on one host, in any interleaving. -/
def machine : Machine Host Action where
  init h := ∃ cached, h = fresh cached
  step h action h' := h.act lower action = some h'

/-- A process replaces the floor only while it is the one the process has read. -/
def Uncontested (h : Host) (action : Action) : Prop :=
  ∀ i m seen next staging since, action = .writeFloor i →
    h.processes[i]? = some (.replacing m seen next staging since) → h.floor = seen

/-! ### The invariant -/

variable {lower} {h h' : Host}

/-- The floor denies what a manifest denies. -/
def Remembers (lower : String → String) (floor : Option Floor) (m : Manifest) : Prop :=
  ∃ f, floor = some f ∧ f.CoversManifest lower m

/-- What is known of a process. -/
def Fine (lower : String → String) (floor : Option Floor) (returned : List Manifest) :
    Process → Prop
  | .replacing m seen next _ since =>
    since ⊆ returned ∧ next.Shaped ∧ next.CoversManifest lower m ∧
      ∀ f, seen = some f → f.Covers lower next
  | .caching m _ since | .cachingBundle m _ since =>
    since ⊆ returned ∧ Remembers lower floor m
  | .accepting _ _ since | .seeding _ _ since | .verifying _ _ since | .deciding _ _ since =>
    since ⊆ returned
  -- The floor was missing, so nothing had been authenticated.
  | .decidingSeed _ _ since => since = []
  | .admitted _ _ | .switching | .supervising _ _ | .finishing | .fallingBack _ | .done => True

structure Sound (lower : String → String) (h : Host) : Prop where
  shaped : ∀ f, h.floor = some f → f.Shaped
  remembers : ∀ m ∈ h.returned, Remembers lower h.floor m
  processes : ∀ process ∈ h.processes, Fine lower h.floor h.returned process
  admissions : ∀ a ∈ h.admissions, ∀ m ∈ a.since, m.denial lower a.release = none

lemma shaped_seed (cached : Option Manifest) : (seed cached).Shaped := by
  unfold seed
  cases cached with
  | none => exact Floor.shaped_empty
  | some m =>
    dsimp only
    cases accepted : ({} : Floor).accept m with
    | error e => exact Floor.shaped_empty
    | ok next => exact Floor.shaped_accept Floor.shaped_empty accepted

/-- A floor that grows, or more manifests that have returned, keep what is known. -/
lemma Fine.mono {floor floor' : Option Floor} {returned returned' : List Manifest}
    (fine : Fine lower floor returned process)
    (grown : ∀ m, Remembers lower floor m → Remembers lower floor' m)
    (more : returned ⊆ returned') : Fine lower floor' returned' process := by
  cases process with
  | replacing => exact ⟨List.Subset.trans fine.1 more, fine.2⟩
  | caching | cachingBundle => exact ⟨List.Subset.trans fine.1 more, grown _ fine.2⟩
  | accepting | seeding | verifying | deciding => exact List.Subset.trans fine more
  | decidingSeed => exact fine
  | admitted | switching | supervising | finishing | fallingBack | done => trivial

namespace Sound

section

variable (sound : h.Sound lower)
include sound

/-- A process goes on; the cached manifest, the staged release and the trial may change. -/
lemma goesOn {i : ℕ} (floor : h'.floor = h.floor) (returned : h'.returned = h.returned)
    (admissions : h'.admissions = h.admissions)
    (processes : h'.processes = h.processes.set i process)
    (fine : Fine lower h.floor h.returned process) : h'.Sound lower := by
  refine ⟨?_, ?_, ?_, ?_⟩
  · rw [floor]
    exact sound.shaped
  · rw [floor, returned]
    exact sound.remembers
  · rw [floor, returned, processes]
    exact forall_mem_set sound.processes fine
  · rw [admissions]
    exact sound.admissions

lemma setProcess (i : ℕ) (fine : Fine lower h.floor h.returned process)
    : (h.setProcess i process).Sound lower :=
  sound.goesOn rfl rfl rfl rfl fine

lemma start (fine : Fine lower h.floor h.returned process) : (h.start process).Sound lower :=
  { sound with processes := forall_mem_snoc sound.processes fine }

lemma acceptManifest (i : ℕ) {seen : Option Floor} {loaded : Floor} {staging : Option String}
    (shaped : loaded.Shaped) (read : ∀ f, seen = some f → f = loaded)
    (before : since ⊆ h.returned) :
    (h.setProcess i (Host.acceptManifest seen loaded m staging since)).Sound lower := by
  refine sound.setProcess i ?_
  unfold Host.acceptManifest
  cases accepted : loaded.accept m with
  | error e => trivial
  | ok next =>
    refine ⟨before, Floor.shaped_accept shaped accepted,
      Floor.covers_accept_manifest shaped accepted, fun f same => ?_⟩
    rw [read f same]
    exact Floor.covers_accept shaped accepted

lemma recordAdmission (a : Admission)
    (let_through : ∀ m ∈ a.since, m.denial lower a.release = none) :
    (h.recordAdmission a).Sound lower :=
  { sound with admissions := forall_mem_snoc sound.admissions let_through }

/-- A decision lets nothing through that a manifest denies which the floor covers. -/
lemma decideOn (i : ℕ) {loaded : Floor} (purpose : Purpose) (release : Release)
    (covers : ∀ m ∈ since, loaded.CoversManifest lower m) :
    (h.decideOn lower i loaded purpose release since).Sound lower := by
  unfold Host.decideOn
  cases denied : loaded.denial lower release with
  | some code => exact sound.setProcess i trivial
  | none =>
    have let_through : ∀ m ∈ since, m.denial lower release = none := by
      intro m before
      by_contra refused
      have again := covers m before release (Option.isSome_iff_ne_none.mpr refused)
      rw [denied] at again
      cases again
    exact (sound.recordAdmission ⟨purpose, release, since⟩ let_through).setProcess i trivial

/-- The floor that a process has read is replaced by one that covers it. -/
lemma writeFloor (i : ℕ) {next : Floor} {staging : Option String}
    (fine : Fine lower h.floor h.returned (.replacing m h.floor next staging since)) :
    ({ h with floor := some next }.setProcess i (.caching m staging since)).Sound lower := by
  obtain ⟨before, shaped, manifest, covers⟩ := fine
  have grown : ∀ m', Remembers lower h.floor m' → Remembers lower (some next) m' := by
    rintro m' ⟨f, held, denies⟩
    exact ⟨next, rfl, denies.trans (covers f held)⟩
  have written : { h with floor := some next }.Sound lower :=
    { shaped := fun f same => Option.some.inj same ▸ shaped
      remembers := fun m' mem => grown m' (sound.remembers m' mem)
      processes := fun p mem =>
        (sound.processes p mem).mono grown (List.Subset.refl h.returned)
      admissions := sound.admissions }
  exact written.setProcess i ⟨before, next, rfl, manifest⟩

/-- `AuthenticateManifest` returns. -/
lemma returns (i : ℕ) (remembered : Remembers lower h.floor m)
    (fine : Fine lower h.floor (h.returned ++ [m]) process) :
    ({ h with returned := h.returned ++ [m] }.setProcess i process).Sound lower := by
  have logged : { h with returned := h.returned ++ [m] }.Sound lower := by
    refine ⟨sound.shaped, forall_mem_snoc sound.remembers remembered, fun p mem => ?_,
      sound.admissions⟩
    exact (sound.processes p mem).mono (fun _ kept => kept) (subset_append_left _ _)
  exact logged.setProcess i fine

lemma readFloor {i : ℕ} (stepped : h.act lower (.readFloor i) = some h') :
    h'.Sound lower := by
  simp only [act] at stepped
  split at stepped
  case h_1 m staging since here =>
    have before : since ⊆ h.returned := sound.processes _ (mem_of_getElem? here)
    split at stepped
    case h_1 f held =>
      cases stepped
      exact sound.acceptManifest i (sound.shaped f held)
        (fun g same => (Option.some.inj same).symm) before
    case h_2 =>
      cases stepped
      exact sound.setProcess i before
  case h_2 purpose release since here =>
    have before : since ⊆ h.returned := sound.processes _ (mem_of_getElem? here)
    split at stepped
    case h_1 f held =>
      cases stepped
      refine sound.decideOn i purpose release fun m mem => ?_
      obtain ⟨g, same, covers⟩ := sound.remembers m (before mem)
      cases held.symm.trans same
      exact covers
    case h_2 missing =>
      cases stepped
      -- A manifest that had returned would have left a floor.
      refine sound.setProcess i (eq_nil_iff_forall_not_mem.mpr fun m mem => ?_)
      obtain ⟨g, same, -⟩ := sound.remembers m (before mem)
      simp [missing] at same
  case h_3 => cases stepped

lemma readManifest {i : ℕ} (stepped : h.act lower (.readManifest i) = some h')
    : h'.Sound lower := by
  simp only [act] at stepped
  split at stepped <;> cases stepped
  case h_1 m staging since here =>
    exact sound.acceptManifest i (shaped_seed h.manifest) nofun
      (sound.processes _ (mem_of_getElem? here))
  case h_2 purpose release since here =>
    obtain rfl : since = [] := sound.processes _ (mem_of_getElem? here)
    exact sound.decideOn i purpose release fun m mem => (not_mem_nil mem).elim

lemma step {action : Action} (uncontested : h.Uncontested action)
    (stepped : h.act lower action = some h') : h'.Sound lower := by
  cases action with
  | authenticate | stageUnsigned =>
    cases stepped
    exact sound.start (List.Subset.refl _)
  | commit release =>
    obtain ⟨-, ⟨⟩⟩ := Option.ite_none_right_eq_some.mp stepped
    exact sound.start (List.Subset.refl _)
  | readFloor i => exact sound.readFloor stepped
  | readManifest i => exact sound.readManifest stepped
  | writeFloor i =>
    simp only [act] at stepped
    split at stepped <;> cases stepped
    case h_1 m seen next staging since here =>
      obtain rfl := uncontested i m seen next staging since rfl here
      exact sound.writeFloor i (sound.processes _ (mem_of_getElem? here))
  | writeManifest i =>
    simp only [act] at stepped
    split at stepped <;> cases stepped
    case h_1 m staging since here =>
      obtain ⟨before, remembered⟩ := sound.processes _ (mem_of_getElem? here)
      exact sound.goesOn rfl rfl rfl rfl ⟨before, remembered⟩
  | writeBundle i =>
    simp only [act] at stepped
    split at stepped <;> cases stepped
    case h_1 m staging since here =>
      obtain ⟨before, remembered⟩ := sound.processes _ (mem_of_getElem? here)
      refine sound.returns i remembered ?_
      cases staging with
      | none => trivial
      | some digest => exact List.Subset.trans before (subset_append_left _ _)
  | verifyArtifact i =>
    simp only [act] at stepped
    split at stepped
    case h_1 m digest since here =>
      have before : since ⊆ h.returned := sound.processes _ (mem_of_getElem? here)
      split at stepped
      case h_1 =>
        cases stepped
        exact sound.setProcess i trivial
      case h_2 =>
        cases stepped
        exact sound.setProcess i before
    case h_2 => cases stepped
  | writeStaged | writeTrial | dropTrial | finishTrial | dropStaged | failTrial =>
    simp only [act] at stepped
    split at stepped <;> cases stepped
    case h_1 =>
      exact sound.goesOn rfl rfl rfl rfl trivial
  | runTrial =>
    obtain ⟨⟨release, previous⟩, -, rfl⟩ := Option.map_eq_some_iff.mp stepped
    exact sound.start trivial
  | checkFallback i =>
    simp only [act] at stepped
    split at stepped <;> cases stepped
    case h_1 =>
      exact sound.setProcess i (List.Subset.refl h.returned)

end

lemma of_reaches (reached : (machine lower).Reaches Uncontested h) : h.Sound lower := by
  refine reached.invariant (Sound lower) ?_ ?_
  · rintro _ ⟨cached, rfl⟩
    constructor
    case shaped => exact fun f missing => (Option.some_ne_none f missing.symm).elim
    all_goals exact fun x mem => (not_mem_nil mem).elim
  · exact fun h action h' sound uncontested stepped => sound.step uncontested stepped

end Sound

/-- **A revocation is permanent**, as long as no process replaces a floor it has not read: what
is staged, committed or rolled back to is denied by no manifest whose authentication had returned
when the request began. -/
theorem revocation_is_permanent (reached : (machine lower).Reaches Uncontested h) :
    ∀ a ∈ h.admissions, ∀ m ∈ a.since, m.denial lower a.release = none :=
  (Sound.of_reaches reached).admissions

/-! ### Runs -/

/-- A manifest of a version, with what it revokes. -/
def published (version : String) (issuedAt : ℤ) (revoked : List String) : Manifest :=
  ⟨version, "1.0.0", revoked, [], issuedAt, by decide +kernel⟩

/-- The rest of a request that has read the floor. -/
def writesAll (i : ℕ) : List Action := [.writeFloor i, .writeManifest i, .writeBundle i]

def candidate : Release := ⟨"1.1.0", "d1"⟩

/-- The first process on the host stages a release. -/
def stagesCandidate : List Action :=
  [.authenticate (published candidate.version 0 []) (some candidate.digest), .readFloor 0,
    .readManifest 0] ++ writesAll 0 ++ [.verifyArtifact 0, .readFloor 0, .writeStaged 0]

lemma enacted : (machine id).Enacts (act id) (fresh none) := ⟨⟨none, rfl⟩, fun _ _ _ => id⟩

/-- `Uncontested`, as a check. -/
def uncontestedNow (h : Host) : Action → Bool
  | .writeFloor i =>
    match h.processes[i]? with
    | some (.replacing _ seen _ _ _) => h.floor == seen
    | _ => true
  | _ => true

lemma uncontested_of_now (h : Host) (action : Action) (now : h.uncontestedNow action = true) :
    h.Uncontested action := by
  rintro i m seen next staging since rfl here
  simpa [uncontestedNow, here] using now

/-- A later version is committed after an earlier one was revoked. -/
theorem revocation_is_permanent_committed : ∃ h, (machine id).Reaches Uncontested h ∧
      ∃ a ∈ h.admissions, a.purpose = .commit ∧ a.since.length = 2 ∧
        ∀ m ∈ a.since, m.denial id a.release = none := by
  obtain ⟨h, reached, a, member, purpose, since⟩ := enacted.reaches uncontestedNow
    uncontested_of_now
    (stagesCandidate ++ [.authenticate (published "1.2.0" 1 ["1.0.5"]) none, .readFloor 1] ++
      writesAll 1 ++ [.commit candidate, .readFloor 2])
    (fun h => ∃ a ∈ h.admissions, a.purpose = .commit ∧ a.since.length = 2) (by decide +kernel)
  exact ⟨h, reached, a, member, purpose, since, revocation_is_permanent reached a member⟩

/-- One process reads the floor, another one accepts a manifest that revokes a staged version,
and the first one replaces the floor: the version is committed. -/
theorem overwritten_floor_admits : ∃ h, (machine id).Reaches (fun _ _ => True) h ∧
      ∃ a ∈ h.admissions, a.purpose = .commit ∧ a.release = candidate ∧
        ∃ m ∈ a.since, m.denial id a.release = some .revoked :=
  enacted.reaches_any
    (stagesCandidate ++ [.authenticate (published "1.2.0" 1 []) none, .readFloor 1,
      .authenticate (published "1.2.0" 2 ["1.1.0"]) none, .readFloor 2] ++ writesAll 2 ++
      writesAll 1 ++ [.commit candidate, .readFloor 3])
    _ (by decide +kernel)

end Host

end TechStack.GuardRelease
