import TechStack.Lib.Text

/-!
# The release floor

A host remembers what it has accepted from signed release manifests: the newest issue time, the
highest minimum version and every revocation.  `Floor.accept` takes a manifest in, and whatever
the floor or the manifest denies, the new floor denies (`covers_accept`, `covers_accept_manifest`).
-/

namespace TechStack.GuardRelease

open List Option Lib

/-! ### Versions -/

/-- A version as numbers, in the order of `compareParsed`. -/
abbrev Version := ℕ ×ₗ ℕ ×ₗ ℕ

/-- The largest number that `strconv.Atoi` reads. -/
def maxInt : ℕ := 2 ^ 63 - 1

/-- One number of a version: no leading zero, and not too large. -/
def parsePart (digits : List Char) : Option ℕ :=
  if digits ≠ [] ∧ digits.all Char.isDigit = true ∧ (digits.head? ≠ some '0' ∨ digits.length = 1)
  then
    let value := digits.foldl (fun n c => 10 * n + (c.toNat - 48)) 0
    if value ≤ maxInt then some value else none
  else none

/-- `parseVersion`. -/
def parseVersion (version : String) : Option Version :=
  let text := (trimSpace version).toList
  let text := if text.head? = some 'v' then text.tail else text
  match text.splitOn '.' with
  | [major, minor, patch] =>
    match parsePart major, parsePart minor, parsePart patch with
    | some a, some b, some c => some (toLex (a, toLex (b, c)))
    | _, _, _ => none
  | _ => none

/-! ### Manifests and floors -/

inductive Code where
  | revoked
  | belowMinimum
  | manifestSuperseded
  deriving DecidableEq

/-- A version and the digest of its artifact. -/
structure Release where
  version : String
  digest : String
  deriving DecidableEq

/-- A manifest that was verified: `validateShape` has parsed its minimum version. -/
structure Manifest where
  version : String
  minimumAdmittedVersion : String
  revokedVersions : List String
  revokedDigests : List String
  issuedAt : ℤ
  shaped : (parseVersion minimumAdmittedVersion).isSome = true

/-- What the host has accepted; `issuedAt` is none before the first manifest. -/
structure Floor where
  issuedAt : Option ℤ := none
  minimumAdmittedVersion : String := ""
  revokedVersions : List String := []
  revokedDigests : List String := []
  deriving DecidableEq

section

variable (lower : String → String)

/-- `admit`: why a release is denied.  A revoked version that does not parse counts as 0.0.0. -/
def denial (minimum : String) (revokedVersions revokedDigests : List String) (r : Release) :
    Option Code :=
  match parseVersion r.version with
  | none => some .belowMinimum
  | some got =>
    if revokedVersions.any fun v => (parseVersion v).getD (toLex (0, toLex (0, 0))) == got then
      some .revoked
    else if revokedDigests.any (· == lower r.digest) then some .revoked
    else
      match parseVersion minimum with
      | some least => if got < least then some .belowMinimum else none
      | none => none

def Manifest.denial (m : Manifest) (r : Release) : Option Code :=
  GuardRelease.denial lower m.minimumAdmittedVersion m.revokedVersions m.revokedDigests r

def Floor.denial (f : Floor) (r : Release) : Option Code :=
  GuardRelease.denial lower f.minimumAdmittedVersion f.revokedVersions f.revokedDigests r

end

/-- `union`. -/
def union (a b : List String) : List String := (a ++ b).dedup.insertionSort (· ≤ ·)

namespace Floor

/-- The minimum version of the new floor. -/
def raise (f : Floor) (minimum : String) : String :=
  if f.minimumAdmittedVersion = "" then minimum
  else
    match parseVersion minimum, parseVersion f.minimumAdmittedVersion with
    | some new, some old => if old < new then minimum else f.minimumAdmittedVersion
    | _, _ => f.minimumAdmittedVersion

/-- `Floor.Accept`: none for a manifest that is superseded. -/
def accept (f : Floor) (m : Manifest) : Except Code Floor :=
  if f.issuedAt.any fun newest => decide (m.issuedAt < newest) then .error .manifestSuperseded
  else
    .ok {
      issuedAt := some ((f.issuedAt.map (max m.issuedAt)).getD m.issuedAt)
      minimumAdmittedVersion := f.raise m.minimumAdmittedVersion
      revokedVersions := union f.revokedVersions m.revokedVersions
      revokedDigests := union f.revokedDigests m.revokedDigests }

end Floor

/-! ### Floors grow -/

lemma mem_union {a b : List String} {x : String} : x ∈ union a b ↔ x ∈ a ∨ x ∈ b := by
  simp [union, mem_insertionSort]

variable {lower : String → String}

/-- A version below a bound, if there is one. -/
def Below (minimum : String) (got : Version) : Prop :=
  ∃ least, parseVersion minimum = some least ∧ got < least

/-- What is denied, as a condition on the release. -/
lemma denial_isSome_iff {minimum : String} {versions digests : List String} {r : Release} :
    (denial lower minimum versions digests r).isSome = true ↔
      ∀ got, parseVersion r.version = some got →
        (∃ v ∈ versions, (parseVersion v).getD (toLex (0, toLex (0, 0))) = got) ∨
          lower r.digest ∈ digests ∨ Below minimum got := by
  unfold denial
  cases parsed : parseVersion r.version with
  | none => simp
  | some got =>
    simp only [Option.some.injEq, forall_eq']
    by_cases version : ∃ v ∈ versions, (parseVersion v).getD (toLex (0, toLex (0, 0))) = got
    · simp [List.any_eq_true, version]
    · by_cases digest : lower r.digest ∈ digests
      · simp [List.any_eq_true, version, digest]
      · cases least : parseVersion minimum with
        | none => simp [List.any_eq_true, version, digest, Below, least]
        | some least' =>
          by_cases below : got < least' <;>
            simp [List.any_eq_true, version, digest, Below, least, below]

/-- Longer lists and a higher minimum deny more. -/
lemma denial_mono {minimum minimum' : String} {versions versions' digests digests' : List String}
    {r : Release} (revoked : versions ⊆ versions') (digested : digests ⊆ digests')
    (raised : ∀ got, Below minimum got → Below minimum' got)
    (denied : (denial lower minimum versions digests r).isSome = true) :
    (denial lower minimum' versions' digests' r).isSome = true := by
  rw [denial_isSome_iff] at denied ⊢
  intro got parsed
  rcases denied got parsed with ⟨v, mem, same⟩ | digest | below
  · exact .inl ⟨v, revoked mem, same⟩
  · exact .inr (.inl (digested digest))
  · exact .inr (.inr (raised got below))

namespace Floor

/-- The minimum version is unset, or it parses. -/
def Shaped (f : Floor) : Prop :=
  f.minimumAdmittedVersion = "" ∨ (parseVersion f.minimumAdmittedVersion).isSome = true

/-- Another floor denies all that this one denies. -/
def Covers (lower : String → String) (f g : Floor) : Prop :=
  ∀ r, (f.denial lower r).isSome = true → (g.denial lower r).isSome = true

/-- The floor denies all that a manifest denies. -/
def CoversManifest (lower : String → String) (f : Floor) (m : Manifest) : Prop :=
  ∀ r, (m.denial lower r).isSome = true → (f.denial lower r).isSome = true

lemma parseVersion_empty : parseVersion "" = none := by decide +kernel

lemma raise_cases {f : Floor} (shaped : f.Shaped) {minimum : String} {new : Version}
    (parsed : parseVersion minimum = some new) :
    (f.raise minimum = minimum ∧ ∀ old, parseVersion f.minimumAdmittedVersion = some old →
      old ≤ new) ∨
    f.raise minimum = f.minimumAdmittedVersion ∧
      ∃ old, parseVersion f.minimumAdmittedVersion = some old ∧ new ≤ old := by
  unfold raise
  by_cases unset : f.minimumAdmittedVersion = ""
  · simp [unset, parseVersion_empty]
  · obtain ⟨old, found⟩ := isSome_iff_exists.mp (shaped.resolve_left unset)
    simp only [unset, if_false, parsed, found]
    by_cases higher : old < new
    · exact .inl ⟨if_pos higher, fun other same => Option.some.inj same ▸ higher.le⟩
    · exact .inr ⟨if_neg higher, old, rfl, not_lt.mp higher⟩

section

variable {f next : Floor} {m : Manifest} (shaped : f.Shaped) (accepted : f.accept m = .ok next)
include accepted

lemma accept_eq :
    next.minimumAdmittedVersion = f.raise m.minimumAdmittedVersion ∧
      next.revokedVersions = union f.revokedVersions m.revokedVersions ∧
      next.revokedDigests = union f.revokedDigests m.revokedDigests := by
  unfold accept at accepted
  split at accepted <;> cases accepted
  exact ⟨rfl, rfl, rfl⟩

include shaped

lemma shaped_accept : next.Shaped := by
  obtain ⟨new, parsed⟩ := isSome_iff_exists.mp m.shaped
  obtain ⟨minimum, -, -⟩ := accept_eq accepted
  rcases raise_cases shaped parsed with ⟨same, -⟩ | ⟨same, old, found, -⟩
  · exact .inr (by rw [minimum, same]; exact m.shaped)
  · exact .inr (by rw [minimum, same, found]; rfl)

/-- **What the floor denies, it denies after a manifest was accepted.** -/
lemma covers_accept : f.Covers lower next := by
  obtain ⟨new, parsed⟩ := isSome_iff_exists.mp m.shaped
  obtain ⟨minimum, versions, digests⟩ := accept_eq accepted
  intro r
  refine denial_mono (fun v mem => ?_) (fun d mem => ?_) ?_
  · rw [versions]
    exact mem_union.mpr (.inl mem)
  · rw [digests]
    exact mem_union.mpr (.inl mem)
  · rintro got ⟨old, found, below⟩
    rw [minimum]
    rcases raise_cases shaped parsed with ⟨same, higher⟩ | ⟨same, -⟩
    · exact ⟨new, by rw [same, parsed], below.trans_le (higher old found)⟩
    · exact ⟨old, by rw [same, found], below⟩

/-- **What an accepted manifest denies, the floor denies.** -/
lemma covers_accept_manifest : next.CoversManifest lower m := by
  obtain ⟨new, parsed⟩ := isSome_iff_exists.mp m.shaped
  obtain ⟨minimum, versions, digests⟩ := accept_eq accepted
  intro r
  refine denial_mono (fun v mem => ?_) (fun d mem => ?_) ?_
  · rw [versions]
    exact mem_union.mpr (.inr mem)
  · rw [digests]
    exact mem_union.mpr (.inr mem)
  · rintro got ⟨least, found, below⟩
    cases parsed.symm.trans found
    rw [minimum]
    rcases raise_cases shaped parsed with ⟨same, -⟩ | ⟨same, old, higher, le⟩
    · exact ⟨new, by rw [same, parsed], below⟩
    · exact ⟨old, by rw [same, higher], below.trans_le le⟩

end

lemma CoversManifest.trans {f next : Floor} {m : Manifest} (covers : f.CoversManifest lower m) (grown : f.Covers lower next) :
    next.CoversManifest lower m := fun r denied => grown r (covers r denied)

lemma shaped_empty : ({} : Floor).Shaped := .inl rfl

end Floor

end TechStack.GuardRelease
