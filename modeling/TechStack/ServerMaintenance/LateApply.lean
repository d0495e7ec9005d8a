import Mathlib

/-!
# Updates that finish late

`pollApply` completes a waiting update once a plan shows that nothing the owner approved is still
pending.  It compares with the approved plan as the job row keeps it: cut to 200 packages, with
one version for each name, and perhaps not found.  What the row does not keep is taken for
installed.
-/

namespace TechStack.ServerMaintenance

open List

/-- A text, byte by byte. -/
abbrev Text := List UInt8

/-- What is compared of a `PlanPackage`. -/
structure PlanPackage where
  name : Text
  from_ : Text
  deriving DecidableEq

def maxStoredPlanPackages : ℕ := 200
def maxStoredPlanHeld : ℕ := 50
def maxStoredPlanStringLength : ℕ := 256

/-- What `Dispatcher.Plan` answers. -/
inductive Observed where
  | packageManagerBusy
  | stackKitsUpgradeRequired
  | refused
  | failed
  | plan (dpkgProblems : List Text) (packages : List PlanPackage)

/-- What becomes of the job. -/
inductive Outcome where
  | waiting (extended : Bool)
  | refused
  | notInstalled (names : List Text)
  | completed
  deriving DecidableEq

section

-- `strings.TrimSpace`.
variable (trim : Text → Text)

def boundedPlanString (value : Text) : Text := (trim value).take maxStoredPlanStringLength

/-- The packages of `PlanResultDocument`. -/
def planResultDocument (plan : List PlanPackage) : List PlanPackage :=
  (plan.take maxStoredPlanPackages).map fun pkg =>
    ⟨boundedPlanString trim pkg.name, boundedPlanString trim pkg.from_⟩

/-- The map that `notInstalledPackages` makes of them: the last of a name counts. -/
def approved (listed : List PlanPackage) (name : Text) : Option Text :=
  if name = [] then none
  else (listed.reverse.find? (trim ·.name == name)).map (trim ·.from_)

/-- `notInstalledPackages`; the lookup of the approved plan may fail. -/
def notInstalledPackages (planDigest : Text) (approvedPlan : Option (List PlanPackage))
    (pending : List PlanPackage) : List Text :=
  if pending = [] ∨ trim planDigest = [] then []
  else match approvedPlan with
    | none => []
    | some listed =>
      ((pending.filter fun pkg => approved trim listed (trim pkg.name) == some (trim pkg.from_)).map
        fun pkg => boundedPlanString trim pkg.name).take maxStoredPlanHeld

def pollApply (planDigest : Text) (approvedPlan : Option (List PlanPackage)) : Observed → Outcome
  | .packageManagerBusy => .waiting true
  | .stackKitsUpgradeRequired | .failed => .waiting false
  | .refused => .refused
  | .plan dpkgProblems packages =>
    if dpkgProblems ≠ [] then .waiting true
    else match notInstalledPackages trim planDigest approvedPlan packages with
      | [] => .completed
      | names => .notInstalled names

variable {trim} {planDigest : Text} {plan pending : List PlanPackage}

/-- A job is completed if no pending package is found in the approved plan. -/
lemma pollApply_completed_iff {approvedPlan : Option (List PlanPackage)} :
    pollApply trim planDigest approvedPlan (.plan [] pending) = .completed ↔
    ∀ pkg ∈ pending, trim planDigest ≠ [] → ∀ listed ∈ approvedPlan,
      approved trim listed (trim pkg.name) ≠ some (trim pkg.from_) := by
  have names : pollApply trim planDigest approvedPlan (.plan [] pending) = .completed ↔
      notInstalledPackages trim planDigest approvedPlan pending = [] := by
    simp only [pollApply, ne_eq, not_true_eq_false, if_false]
    split <;> simp_all
  rw [names]
  unfold notInstalledPackages
  split
  case isTrue empty => rcases empty with rfl | blank <;> simp [*]
  case isFalse compared =>
    rw [not_or] at compared
    cases approvedPlan <;> simp [compared.2, maxStoredPlanHeld, filter_eq_nil_iff]

/-- **A settled update is completed only if nothing approved is missing**, whatever is pending,
exactly if the plan is found and the row keeps each of its packages: the last of the first 200
packages that has the name, both cut to 256 bytes, has the version. -/
theorem completed_nothing_missing_iff (found : Bool) :
    (∀ pending, pollApply trim planDigest
        (if found then some (planResultDocument trim plan) else none) (.plan [] pending) =
          .completed →
      ∀ p ∈ plan, ∀ pkg ∈ pending, ¬(trim pkg.name = trim p.name ∧ trim pkg.from_ = trim p.from_)) ↔
    ∀ p ∈ plan, found = true ∧ trim planDigest ≠ [] ∧
      approved trim (planResultDocument trim plan) (trim p.name) = some (trim p.from_) := by
  simp only [pollApply_completed_iff]
  constructor
  · intro sound p mem
    by_contra unkept
    refine sound [p] ?_ p mem p (.head _) ⟨rfl, rfl⟩
    cases found <;> simp_all
  · rintro kept pending completed p mem pkg there ⟨name, version⟩
    obtain ⟨rfl, digest, stored⟩ := kept p mem
    exact completed pkg there digest _ rfl (by rw [name, version, stored])

end

/-- `strings.TrimSpace` of ASCII bytes. -/
def trimASCII (text : Text) : Text :=
  (text.dropWhile (· ∈ [9, 10, 11, 12, 13, 32])).rdropWhile (· ∈ [9, 10, 11, 12, 13, 32])

/-- Two hundred packages and one more, with names of two letters: `aa`, `ab`, … `mi`. -/
def many : List PlanPackage :=
  (range 201).map fun i => ⟨[UInt8.ofNat (0x61 + i / 16), UInt8.ofNat (0x61 + i % 16)], [0x31]⟩

/-- The last of 201 approved packages, `mi` from version 1, is pending as it was, and the update
is completed. -/
theorem truncated_plan_completes :
    pollApply trimASCII [0x64] (some (planResultDocument trimASCII many))
        (.plan [] [⟨[0x6d, 0x69], [0x31]⟩]) = .completed ∧
      (⟨[0x6d, 0x69], [0x31]⟩ : PlanPackage) ∈ many := by
  decide +kernel

end TechStack.ServerMaintenance
