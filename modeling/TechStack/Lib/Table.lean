import Mathlib

/-!
# Keyed tables

A list as a table in which every key stands once: rows are written under their key, looked up,
and changed in place.  What a table holds is read off membership, so no result depends on the
order of the rows.
-/

namespace TechStack.Lib.Table

variable {α κ : Type} [DecidableEq κ] (key : α → κ)

/-- Write a row in place of the one with its key. -/
def put (x : α) (l : List α) : List α := x :: l.filter fun y => decide (key y ≠ key x)

/-- The row under a key. -/
def lookup (k : κ) (l : List α) : Option α := l.find? fun y => decide (key y = k)

variable {key} {l : List α} {x y : α} {k : κ}

lemma mem_put : y ∈ put key x l ↔ y = x ∨ y ∈ l ∧ key y ≠ key x := by
  simp [put]

lemma lookup_put_self : lookup key (key x) (put key x l) = some x := by
  simp [lookup, put]

lemma lookup_put_of_ne (other : k ≠ key x) : lookup key k (put key x l) = lookup key k l := by
  simp only [lookup, put, List.find?_cons, decide_eq_false other.symm, List.find?_filter]
  congr 1
  funext y
  by_cases here : key y = k
  · simp [here, other]
  · simp [here]

/-- A row that is found is in the table, under the key it was looked up with. -/
lemma mem_of_lookup (found : lookup key k l = some x) : x ∈ l ∧ key x = k :=
  ⟨List.mem_of_find?_eq_some found, by simpa using List.find?_some found⟩

/-- A change that keeps the keys commutes with looking up. -/
lemma lookup_map (f : α → α) (keeps : ∀ x, key (f x) = key x) :
    lookup key k (l.map f) = (lookup key k l).map f := by
  simp only [lookup, List.find?_map, Function.comp_def, keeps]

end TechStack.Lib.Table
