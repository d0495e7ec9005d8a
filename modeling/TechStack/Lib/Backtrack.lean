import Mathlib

/-!
# Bounded backtracking

A depth-first search over a list of decisions, with one mutable state: a decision
offers candidates in the state at hand, a candidate is committed, the search goes
on, and if it fails the candidate is taken back.  Commits count as work, and the
search gives up once the work reaches a budget; it may also be interrupted.

Two facts carry what is said about such a search, for arbitrary states, decisions and
candidates, provided that taking back undoes a commit:

* `walk_fails` — a search that fails leaves the state as it found it, has done the work of the whole
  tree (`size`) if it has budget to spare, and has none if there is a path;
* `walk_sound` — a search that succeeds has committed a `Path`.

That a search which nothing interrupts answers at all is `walk_answers`; that it never works beyond
its budget and that more budget does not change an answer are `walk_work_le` and `walk_budget`.
-/

namespace TechStack.Lib.Backtrack

open List

/-- What a decision offers in a state, and how a candidate is committed and taken
back. -/
structure Moves (σ δ κ : Type) where
  candidates : σ → δ → List κ
  commit : σ → δ → κ → σ
  uncommit : σ → δ → κ → σ

/-- The state of a search: the mutable state, the commits so far, and the choices
made on the way down. -/
structure Search (σ δ κ : Type) where
  state : σ
  work : ℕ
  chosen : List (δ × κ)

variable {σ δ κ ε : Type} (M : Moves σ δ κ) (budget : ℕ)

/-- Try the candidates for a decision one after the other. -/
def tryAll (next : Search σ δ κ → Except ε (Bool × Search σ δ κ)) (decision : δ) :
    List κ → Search σ δ κ → Except ε (Bool × Search σ δ κ)
  | [], s => .ok (false, s)
  | candidate :: rest, s =>
    match next ⟨M.commit s.state decision candidate, s.work + 1,
        s.chosen ++ [(decision, candidate)]⟩ with
    | .error err => .error err
    | .ok (true, s') => .ok (true, s')
    | .ok (false, s') =>
      let back : Search σ δ κ :=
        ⟨M.uncommit s'.state decision candidate, s'.work, s'.chosen.dropLast⟩
      if back.work ≥ budget then .ok (false, back) else tryAll next decision rest back

/-- The search, with the decisions that are left. -/
def walk (interrupted : ℕ → Option ε) :
    List δ → Search σ δ κ → Except ε (Bool × Search σ δ κ)
  | [], s => .ok (true, s)
  | decision :: rest, s =>
    if s.work ≥ budget then .ok (false, s)
    else match interrupted s.work with
      | some err => .error err
      | none => tryAll M budget (walk interrupted rest) decision (M.candidates s.state decision) s

/-- The commits of a search that tries everything. -/
def size : List δ → σ → ℕ
  | [], _ => 0
  | decision :: rest, s =>
    ((M.candidates s decision).map fun candidate => 1 + size rest (M.commit s decision candidate)).sum

/-- Choices that can be made one after the other. -/
inductive Path : σ → List (δ × κ) → σ → Prop where
  | nil (s : σ) : Path s [] s
  | cons {s s' : σ} {decision : δ} {candidate : κ} {rest : List (δ × κ)}
      (offered : candidate ∈ M.candidates s decision)
      (follows : Path (M.commit s decision candidate) rest s') :
      Path s ((decision, candidate) :: rest) s'

variable {M budget} {interrupted : ℕ → Option ε}

/-- Taking back undoes a commit. -/
def Undoes (M : Moves σ δ κ) : Prop :=
  ∀ s decision candidate, candidate ∈ M.candidates s decision →
    M.uncommit (M.commit s decision candidate) decision candidate = s

/-- There is a path through the decisions. -/
def Passable (M : Moves σ δ κ) (decisions : List δ) (s : σ) : Prop :=
  ∃ taken final, Path M s taken final ∧ taken.map Prod.fst = decisions

/-- How a search fails: everything but the work is as it was, the work is that of trying everything
if budget is left, and none is left if there was hope. -/
structure Fails (budget : ℕ) (cost : σ → ℕ) (hope : σ → Prop) (s s' : Search σ δ κ) : Prop where
  state : s'.state = s.state
  chosen : s'.chosen = s.chosen
  most : s'.work ≤ s.work + cost s.state
  all : s'.work < budget → s'.work = s.work + cost s.state
  spent : hope s.state → budget ≤ s'.work

variable {s s' : Search σ δ κ} {candidates : List κ} {decisions : List δ}

section TryAll

variable {next : Search σ δ κ → Except ε (Bool × Search σ δ κ)} {decision : δ} {cost : σ → ℕ}
  {hope : σ → Prop} (undoes : Undoes M)
  (deeper : ∀ s s', next s = .ok (false, s') → Fails budget cost hope s s')
  (offered : ∀ candidate ∈ candidates, candidate ∈ M.candidates s.state decision)
include undoes deeper offered

/-- Going down and failing, then taking the candidate back. -/
lemma taken_back {candidate : κ} (mem : candidate ∈ candidates)
    (down : next ⟨M.commit s.state decision candidate, s.work + 1,
      s.chosen ++ [(decision, candidate)]⟩ = .ok (false, s')) :
    M.uncommit s'.state decision candidate = s.state ∧ s'.chosen.dropLast = s.chosen := by
  obtain ⟨state, chosen, -⟩ := deeper _ _ down
  rw [state, chosen, dropLast_concat]
  exact ⟨undoes s.state decision candidate (offered candidate mem), rfl⟩

lemma tryAll_fails (failed : tryAll M budget next decision candidates s = .ok (false, s')) :
    Fails budget (fun st => (candidates.map fun c => 1 + cost (M.commit st decision c)).sum)
      (fun st => ∃ c ∈ candidates, hope (M.commit st decision c)) s s' := by
  induction candidates generalizing s with
  | nil =>
    cases failed
    exact ⟨rfl, rfl, le_rfl, fun _ => rfl, by simp⟩
  | cons candidate rest ih =>
    rw [tryAll] at failed
    split at failed
    · cases failed
    · cases failed
    case h_3 s₁ down =>
      obtain ⟨state, chosen⟩ := taken_back undoes deeper offered mem_cons_self down
      obtain ⟨-, -, most, all, hopeless⟩ := deeper _ s₁ down
      simp only [state, chosen] at failed most all
      split at failed
      case isTrue spent =>
        cases failed
        refine ⟨rfl, rfl, ?_, fun spare => absurd spent (not_le.mpr spare), fun _ => spent⟩
        simp only [map_cons, sum_cons]
        omega
      case isFalse spare =>
        have first := all (not_le.mp spare)
        obtain ⟨state', chosen', most', all', hopeless'⟩ :=
          ih (s := ⟨s.state, s₁.work, s.chosen⟩)
            (fun other mem => offered other (mem_cons_of_mem _ mem)) failed
        refine ⟨state', chosen', ?_, fun left => ?_, ?_⟩
        · simp only [map_cons, sum_cons] at most' ⊢
          omega
        · have last := all' left
          simp only [map_cons, sum_cons] at last ⊢
          omega
        · rintro ⟨good, mem, hopeful⟩
          rcases mem_cons.mp mem with rfl | later
          · exact absurd (hopeless hopeful) spare
          · exact hopeless' ⟨good, later, hopeful⟩

lemma tryAll_sound (succeeded : tryAll M budget next decision candidates s = .ok (true, s')) :
    ∃ candidate ∈ M.candidates s.state decision, ∃ work,
      next ⟨M.commit s.state decision candidate, work, s.chosen ++ [(decision, candidate)]⟩ =
        .ok (true, s') := by
  induction candidates generalizing s with
  | nil => cases succeeded
  | cons candidate rest ih =>
    rw [tryAll] at succeeded
    split at succeeded
    · cases succeeded
    case h_2 s₁ down =>
      obtain ⟨⟩ := succeeded
      exact ⟨candidate, offered candidate mem_cons_self, s.work + 1, down⟩
    case h_3 s₁ down =>
      obtain ⟨state, chosen⟩ := taken_back undoes deeper offered mem_cons_self down
      simp only [state, chosen] at succeeded
      split at succeeded
      · cases succeeded
      · exact ih (s := ⟨s.state, s₁.work, s.chosen⟩)
          (fun other mem => offered other (mem_cons_of_mem _ mem)) succeeded

end TryAll

/-- **A search that fails** leaves the state as it found it, has tried everything if it has budget
to spare, and has used up its budget if there is a path. -/
lemma walk_fails (undoes : Undoes M)
    (failed : walk M budget interrupted decisions s = .ok (false, s')) :
    Fails budget (size M decisions) (Passable M decisions) s s' := by
  induction decisions generalizing s s' with
  | nil => cases failed
  | cons decision rest ih =>
    rw [walk] at failed
    split at failed
    case isTrue spent =>
      cases failed
      exact ⟨rfl, rfl, Nat.le_add_right _ _, fun spare => absurd spent (not_le.mpr spare),
        fun _ => spent⟩
    case isFalse =>
      split at failed
      · cases failed
      · obtain ⟨state, chosen, most, all, spent⟩ :=
          tryAll_fails undoes (fun _ _ => ih) (fun _ mem => mem) failed
        refine ⟨state, chosen, most, all, ?_⟩
        rintro ⟨_, final, _ | ⟨offered, follows⟩, covers⟩
        · cases covers
        · obtain ⟨rfl, others⟩ := List.cons.inj covers
          exact spent ⟨_, offered, _, final, follows, others⟩

/-- **A search that succeeds has committed a path.** -/
lemma walk_sound (undoes : Undoes M)
    (succeeded : walk M budget interrupted decisions s = .ok (true, s')) :
    ∃ taken, Path M s.state taken s'.state ∧ taken.map Prod.fst = decisions ∧
      s'.chosen = s.chosen ++ taken := by
  induction decisions generalizing s s' with
  | nil =>
    obtain ⟨⟩ := succeeded
    exact ⟨[], .nil _, rfl, by simp⟩
  | cons decision rest ih =>
    rw [walk] at succeeded
    split at succeeded
    · cases succeeded
    · split at succeeded
      · cases succeeded
      · obtain ⟨candidate, offered, work, down⟩ := tryAll_sound undoes
          (fun _ _ => walk_fails undoes) (fun _ mem => mem) succeeded
        obtain ⟨taken, path, covers, chosen⟩ := ih down
        refine ⟨(decision, candidate) :: taken, .cons offered path, by simp [covers], ?_⟩
        rw [chosen, append_assoc]
        rfl

/-- A search that nothing interrupts answers. -/
lemma walk_answers (live : ∀ work, interrupted work = none) (decisions : List δ)
    (s : Search σ δ κ) : ∃ answer, walk M budget interrupted decisions s = .ok answer := by
  induction decisions generalizing s with
  | nil => exact ⟨_, rfl⟩
  | cons decision rest ih =>
    rw [walk, live]
    split
    · exact ⟨_, rfl⟩
    · simp only
      generalize M.candidates s.state decision = candidates
      induction candidates generalizing s with
      | nil => exact ⟨_, rfl⟩
      | cons candidate others more =>
        rw [tryAll]
        obtain ⟨⟨found, s₁⟩, down⟩ := ih ⟨M.commit s.state decision candidate, s.work + 1,
          s.chosen ++ [(decision, candidate)]⟩
        rw [down]
        cases found with
        | true => exact ⟨_, rfl⟩
        | false =>
          simp only
          split
          · exact ⟨_, rfl⟩
          · exact more _ ‹_›

section Budget

variable {next next' : Search σ δ κ → Except ε (Bool × Search σ δ κ)} {decision : δ} {found : Bool}
  {budget' : ℕ}

/-- Between two candidates the work is below the budget. -/
lemma tryAll_work_le
    (deeper : ∀ s found s', next s = .ok (found, s') → s.work ≤ budget → s'.work ≤ budget)
    (answered : tryAll M budget next decision candidates s = .ok (found, s'))
    (spare : s.work < budget) : s'.work ≤ budget := by
  induction candidates generalizing s with
  | nil =>
    cases answered
    exact spare.le
  | cons candidate rest ih =>
    rw [tryAll] at answered
    split at answered
    case h_1 => cases answered
    case h_2 down =>
      cases answered
      exact deeper _ _ _ down spare
    case h_3 down =>
      have within := deeper _ _ _ down spare
      simp only at answered
      split at answered
      · cases answered
        exact within
      case isFalse left => exact ih answered (not_le.mp left)

/-- **No search works beyond its budget.** -/
lemma walk_work_le (answered : walk M budget interrupted decisions s = .ok (found, s'))
    (within : s.work ≤ budget) : s'.work ≤ budget := by
  induction decisions generalizing s s' found with
  | nil =>
    cases answered
    exact within
  | cons decision rest ih =>
    rw [walk] at answered
    split at answered
    · cases answered
      exact within
    case isFalse spare =>
      split at answered
      · cases answered
      · exact tryAll_work_le (fun _ _ _ => ih) answered (not_le.mp spare)

lemma tryAll_budget (more : budget ≤ budget')
    (deeper : ∀ s found s', next s = .ok (found, s') → found = true ∨ s'.work < budget →
      next' s = .ok (found, s'))
    (answered : tryAll M budget next decision candidates s = .ok (found, s'))
    (spare : found = true ∨ s'.work < budget) :
    tryAll M budget' next' decision candidates s = .ok (found, s') := by
  induction candidates generalizing s with
  | nil => exact answered
  | cons candidate rest ih =>
    rw [tryAll] at answered ⊢
    split at answered
    case h_1 => cases answered
    case h_2 down =>
      cases answered
      rw [deeper _ _ _ down (.inl rfl)]
    case h_3 down =>
      simp only at answered
      split at answered
      case isTrue spent =>
        cases answered
        exact absurd (spare.resolve_left nofun) (not_lt.mpr spent)
      case isFalse left =>
        rw [deeper _ _ _ down (.inr (not_le.mp left))]
        simp only
        rw [if_neg fun spent => left (more.trans spent)]
        exact ih answered

/-- **More budget does not change an answer** that was not given for want of it. -/
lemma walk_budget (more : budget ≤ budget')
    (answered : walk M budget interrupted decisions s = .ok (found, s'))
    (spare : found = true ∨ s'.work < budget) :
    walk M budget' interrupted decisions s = .ok (found, s') := by
  induction decisions generalizing s s' found with
  | nil => exact answered
  | cons decision rest ih =>
    rw [walk] at answered ⊢
    split at answered
    case isTrue spent =>
      cases answered
      exact absurd (spare.resolve_left nofun) (not_lt.mpr spent)
    case isFalse left =>
      rw [if_neg fun spent => left (more.trans spent)]
      split at answered
      case h_1 => cases answered
      case h_2 => exact tryAll_budget more (fun _ _ _ => ih) answered spare

end Budget

end TechStack.Lib.Backtrack
