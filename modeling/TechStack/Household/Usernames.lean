import Mathlib

/-!
# The username of a new member

`usernameFor` derives a name from the e-mail address.  A name that is taken on the stack gets four
digits of the digest of the member's subject; what comes out is not looked up again, and so may be
the account of somebody else (`account_of_another`).  The fallback to `member-…` is never reached:
every derived name matches the pattern (`matches_base`).

Texts are lists of characters, and `strings.ToLower` and the SHA-256 digest are parameters.
-/

namespace TechStack.Household.Usernames

open List

abbrev Text := List Char

structure Ref where
  stackID : Text
  username : Text
  cloudSubject : Text

structure Member where
  subject : Text
  email : Text
  displayName : Text

/-- `strings.ToLower`, and the half bytes of `sha256.Sum256`. -/
structure Library where
  toLower : Text → Text
  digest : Text → List (Fin 16)

/-- `[A-Za-z0-9._-]`. -/
def safe (c : Char) : Bool := c.isAlphanum || c ∈ ['.', '_', '-']

/-- `unsafeUsername.ReplaceAllString(s, "-")`: one hyphen for a run of other characters. -/
def replaceUnsafe (inRun : Bool) : Text → Text
  | [] => []
  | c :: rest =>
    if safe c then c :: replaceUnsafe false rest
    else if inRun then replaceUnsafe true rest
    else '-' :: replaceUnsafe true rest

/-- `strings.Trim(s, "-._")`. -/
def trim (s : Text) : Text :=
  (s.dropWhile (· ∈ ['-', '.', '_'])).rdropWhile (· ∈ ['-', '.', '_'])

def scopeIdentityMax : ℕ := 64

/-- `usernamePattern`. -/
def matchesPattern : Text → Bool
  | [] => false
  | c :: rest => c.isAlphanum && rest.all safe && rest.length ≤ 63

section

variable (lib : Library)

/-- The name that is tried first. -/
def base (member : Member) : Text :=
  let address := member.email.takeWhile (· ≠ '@')
  let named := if address = [] then member.email else address
  let named := if named = [] then member.displayName else named
  match trim (replaceUnsafe false (lib.toLower named)) with
  | [] => "member".toList
  | c :: rest => (c :: rest).take (scopeIdentityMax - 5)

/-- `hex.EncodeToString(digest[:])[:n]` of the subject. -/
def digits (member : Member) (n : ℕ) : Text :=
  ((lib.digest member.subject).take n).map fun d : Fin 16 => Nat.digitChar d.val

def withDigest (member : Member) : Text := base lib member ++ '-' :: digits lib member 4

/-- `Service.usernameFor`. -/
def usernameFor (existing : List Ref) (stackID : Text) (member : Member) : Text :=
  match existing.find? fun ref => ref.stackID = stackID ∧ ref.cloudSubject = member.subject with
  | some ref => ref.username
  | none =>
    let clash := existing.any fun ref =>
      ref.stackID = stackID ∧ lib.toLower ref.username = lib.toLower (base lib member)
    let candidate := if clash then withDigest lib member else base lib member
    if matchesPattern candidate then candidate else "member-".toList ++ digits lib member 8

/-- Nobody has the name on the stack, in whatever case. -/
def Free (existing : List Ref) (stackID name : Text) : Prop :=
  ∀ ref ∈ existing, ref.stackID = stackID → lib.toLower ref.username ≠ lib.toLower name

end

variable {lib : Library} {member : Member}

lemma safe_of_mem_replaceUnsafe {inRun : Bool} {s : Text} {c : Char}
    (listed : c ∈ replaceUnsafe inRun s) : safe c = true := by
  induction s generalizing inRun with
  | nil => cases listed
  | cons d rest ih =>
    simp only [replaceUnsafe] at listed
    split_ifs at listed with kept skipped
    · rcases mem_cons.mp listed with rfl | later
      · exact kept
      · exact ih later
    · exact ih listed
    · rcases mem_cons.mp listed with rfl | later
      · rfl
      · exact ih later

lemma mem_of_mem_trim {s : Text} {c : Char} (listed : c ∈ trim s) : c ∈ s :=
  (dropWhile_sublist _).mem (( rdropWhile_prefix _ _).sublist.mem listed)

/-- A trimmed name starts with a letter or a digit. -/
lemma isAlphanum_of_trim {s rest : Text} {c : Char} (all_safe : ∀ c ∈ s, safe c = true)
    (trimmed : trim s = c :: rest) : c.isAlphanum = true := by
  have is_safe := all_safe c (mem_of_mem_trim (trimmed ▸ mem_cons_self))
  obtain ⟨more, starts⟩ := rdropWhile_prefix (· ∈ ['-', '.', '_'])
    (s.dropWhile (· ∈ ['-', '.', '_']))
  have head := List.head?_dropWhile_not (· ∈ ['-', '.', '_']) s
  rw [← starts, show List.rdropWhile _ _ = c :: rest from trimmed] at head
  simp_all [safe]

lemma base_shape (lib : Library) (member : Member) : ∃ c rest, base lib member = c :: rest ∧
    c.isAlphanum = true ∧ (∀ d ∈ rest, safe d = true) ∧ rest.length ≤ 58 := by
  simp only [base]
  split
  · exact ⟨'m', ['e', 'm', 'b', 'e', 'r'], rfl, rfl, by simp [safe], by decide⟩
  next c rest trimmed =>
    have all_safe : ∀ d ∈ c :: rest, safe d = true := fun d listed =>
      safe_of_mem_replaceUnsafe (mem_of_mem_trim (trimmed ▸ listed))
    refine ⟨c, rest.take 58, rfl, isAlphanum_of_trim (fun _ => safe_of_mem_replaceUnsafe) trimmed,
      fun d listed => all_safe d (.tail c (mem_of_mem_take listed)), ?_⟩
    exact length_take_le _ _

/-- The pattern leaves room for a hyphen and four digits. -/
lemma matches_append {suffix : Text} (safe_suffix : ∀ c ∈ suffix, safe c = true)
    (few : suffix.length ≤ 5) : matchesPattern (base lib member ++ suffix) = true := by
  obtain ⟨c, rest, shape, letter, safe_rest, short⟩ := base_shape lib member
  rw [shape, cons_append]
  simp only [matchesPattern, letter, all_append, length_append, Bool.true_and, Bool.and_eq_true,
    all_eq_true, decide_eq_true_eq]
  exact ⟨⟨safe_rest, safe_suffix⟩, by omega⟩

lemma matches_base : matchesPattern (base lib member) = true := by
  simpa using @matches_append lib member [] (by simp) (by simp)

lemma matches_withDigest : matchesPattern (withDigest lib member) = true := by
  have hex : ∀ d : Fin 16, safe (Nat.digitChar d.val) = true := by decide
  refine matches_append ?_ (by simp [digits])
  rintro c (_ | ⟨_, listed⟩)
  · rfl
  · obtain ⟨d, -, rfl⟩ := mem_map.mp listed
    exact hex d

variable {existing : List Ref} {stackID : Text}

/-- **A new member gets a name that nobody has on the stack**, exactly if the derived name or the
one with the digest is free. -/
theorem new_username_free (new : ∀ ref ∈ existing, ref.stackID = stackID →
      ref.cloudSubject ≠ member.subject) :
    Free lib existing stackID (usernameFor lib existing stackID member) ↔
      Free lib existing stackID (base lib member) ∨
        Free lib existing stackID (withDigest lib member) := by
  have unknown : (existing.find? fun ref => ref.stackID = stackID ∧
      ref.cloudSubject = member.subject) = none := by
    simpa using new
  have clash : (existing.any fun ref => ref.stackID = stackID ∧
      lib.toLower ref.username = lib.toLower (base lib member)) = true ↔
      ¬ Free lib existing stackID (base lib member) := by
    simp [Free]
  by_cases free : Free lib existing stackID (base lib member)
  · have chosen : usernameFor lib existing stackID member = base lib member := by
      simp only [usernameFor, unknown, if_neg (clash.not.mpr (not_not.mpr free)), matches_base,
        if_true]
    rw [chosen]
    exact ⟨.inl, fun _ => free⟩
  · have chosen : usernameFor lib existing stackID member = withDigest lib member := by
      simp only [usernameFor, unknown, if_pos (clash.mpr free), matches_withDigest, if_true]
    rw [chosen]
    exact ⟨.inr, fun either => either.resolve_left free⟩

namespace Sample

/-- The SHA-256 of the subject `u3`, and ASCII letters. -/
def library : Library where
  toLower := (·.map Char.toLower)
  digest _ := [
    0, 1, 1, 14, 3, 9, 14, 15, 14, 2, 2, 5, 9, 0, 15, 4, 10, 3, 3, 9, 10, 13, 1, 9, 12, 13, 1,
    8, 0, 15, 4, 13, 8, 5, 5, 14, 3, 2, 15, 14, 11, 10, 6, 0, 2, 13, 1, 14, 12, 8, 14, 1, 5, 4,
    7, 8, 0, 8, 3, 8, 12, 9, 9, 12]

def bob : Member := ⟨"u3".toList, "Bob@home".toList, []⟩

def stack : Text := "s".toList

/-- Bob is somebody else already. -/
def bobs : List Ref := [⟨stack, "bob".toList, "u1".toList⟩]

end Sample

open Sample in
/-- The name with the digest is not looked up: the new member, who has no reference on the stack,
is sent to the account that another reference of the stack names. -/
theorem account_of_another : ∃ existing : List Ref,
    (∀ ref ∈ existing, ref.cloudSubject ≠ bob.subject) ∧
      ∃ ref ∈ existing, ref.stackID = stack ∧ ref.cloudSubject = "u2".toList ∧
        ref.username = usernameFor library existing stack bob := by
  refine ⟨⟨stack, "bob-011e".toList, "u2".toList⟩ :: bobs, ?_, _, .head _, rfl, rfl, ?_⟩
  · simp [bobs, bob]
  · decide +kernel

open Sample in
theorem new_username_free_second :
    usernameFor library bobs stack bob = "bob-011e".toList ∧
      Free library bobs stack (usernameFor library bobs stack bob) := by
  refine ⟨by decide +kernel, (new_username_free ?_).mpr (.inr ?_)⟩
  · simp [bobs, bob]
  · simp only [Free, bobs, forall_mem_singleton]
    decide +kernel

end TechStack.Household.Usernames
