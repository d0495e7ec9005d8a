import Mathlib

/-!
# Lists as tables of slots

What a slot that is overwritten or added does to the members of a list, and to a count of them; and
that two slots that are counted make a count of two, which is how "at most one" is proved.
-/

namespace TechStack.Lib

open List

variable {α : Type} {p : α → Bool} {l : List α} {i j : ℕ} {a b : α}

/-- A slot leaves the count and another value enters it. -/
lemma countP_set_add (held : l[i]? = some a) (b : α) :
    (l.set i b).countP p + (if p a then 1 else 0) = l.countP p + (if p b then 1 else 0) := by
  obtain ⟨lt, rfl⟩ := List.getElem?_eq_some_iff.mp held
  rw [List.countP_set lt]
  by_cases counted : p l[i] = true
  · have positive : 0 < l.countP p := List.countP_pos_iff.mpr ⟨l[i], List.getElem_mem lt, counted⟩
    simp only [counted, if_true]
    omega
  · simp only [counted]
    simp

/-- What is true of every slot and of the new value is true once a slot is overwritten. -/
lemma forall_mem_set {P : α → Prop} (all : ∀ x ∈ l, P x) (new : P b) : ∀ x ∈ l.set i b, P x := by
  intro x mem
  rcases mem_or_eq_of_mem_set mem with old | rfl
  · exact all x old
  · exact new

/-- What is true of every slot and of one more is true of the lengthened list. -/
lemma forall_mem_snoc {P : α → Prop} (all : ∀ x ∈ l, P x) (new : P b) : ∀ x ∈ l ++ [b], P x :=
  forall_mem_append.mpr ⟨all, forall_mem_singleton.mpr new⟩

/-- A slot of a list that was lengthened is an old one or the new one. -/
lemma getElem?_snoc (held : (l ++ [b])[i]? = some a) : l[i]? = some a ∨ i = l.length ∧ a = b := by
  rcases Nat.lt_or_ge i l.length with old | new
  · rw [getElem?_append_left old] at held
    exact .inl held
  · rw [List.getElem?_append_right new] at held
    obtain ⟨lt, rfl⟩ := List.getElem?_eq_some_iff.mp held
    rw [List.length_singleton] at lt
    exact .inr ⟨by omega, List.getElem_singleton _⟩

/-- Overwriting a slot loses nothing but what it held. -/
lemma mem_set_or_eq {x : α} (mem : x ∈ l) (held : l[i]? = some a) (b : α) :
    x ∈ l.set i b ∨ x = a := by
  obtain ⟨j, at_j⟩ := mem_iff_getElem?.mp mem
  by_cases same : i = j
  · subst same
    exact .inr (Option.some.inj (at_j.symm.trans held))
  · refine .inl (mem_iff_getElem?.mpr ⟨j, ?_⟩)
    rw [getElem?_set_ne same, at_j]

/-- What some slot has, and the new value if the old one had it, some slot still has. -/
lemma exists_mem_set {P : α → Prop} (has : ∃ x ∈ l, P x) (held : l[i]? = some a)
    (still : P a → P b) : ∃ x ∈ l.set i b, P x := by
  obtain ⟨x, mem, holds⟩ := has
  rcases mem_set_or_eq mem held b with old | rfl
  · exact ⟨x, old, holds⟩
  · exact ⟨b, mem_set (List.getElem?_eq_some_iff.mp held).1 b, still holds⟩

/-- A counted value makes a count of one. -/
lemma one_le_countP_of_mem (mem : a ∈ l) (counted : p a = true) : 1 ≤ l.countP p :=
  List.countP_pos_iff.mpr ⟨a, mem, counted⟩

/-- Two counted slots make a count of two. -/
lemma two_le_countP (first : l[i]? = some a) (second : l[j]? = some b) (differ : i ≠ j)
    (counted : p a = true) (counted' : p b = true) : 2 ≤ l.countP p := by
  by_contra few
  -- The second slot is still there once the first is taken out.
  have positive : 1 ≤ (l.eraseIdx i).countP p := by
    rcases Nat.lt_or_gt_of_ne differ with lt | gt
    · have shifted : (l.eraseIdx i)[j - 1]? = some b := by
        rw [List.getElem?_eraseIdx, if_neg (by omega)]
        rw [show j - 1 + 1 = j by omega, second]
      exact one_le_countP_of_mem (List.mem_of_getElem? shifted) counted'
    · have kept : (l.eraseIdx i)[j]? = some b := by
        rw [List.getElem?_eraseIdx, if_pos gt, second]
      exact one_le_countP_of_mem (List.mem_of_getElem? kept) counted'
  obtain ⟨lt, rfl⟩ := List.getElem?_eq_some_iff.mp first
  have split : l.countP p = (l.eraseIdx i).countP p + 1 := by
    have perm := (List.getElem_cons_eraseIdx_perm lt).countP_eq p
    rw [← perm, List.countP_cons, counted]
    rfl
  omega

end TechStack.Lib
