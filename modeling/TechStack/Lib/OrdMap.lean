import Mathlib

/-!
# Folding over an ordered map

Programs that rebuild one map from another iterate the first in key order and
insert into the second, or erase from it.  Since a map has each key once, what
such a loop leaves under a key depends only on what the first map held there
(`getElem?_foldl_insert`, `getElem?_foldl_erase`).
-/

namespace TechStack.Lib.OrdMap

open List Std

variable {α β γ : Type} {cmp : α → α → Ordering} [TransCmp cmp] [LawfulEqCmp cmp]

variable (f : α → β → Option γ) (acc : ExtTreeMap α γ cmp)

/-- The loop body: insert what `f` makes of a pair, if anything. -/
def insertWith (a : α) (b : β) : ExtTreeMap α γ cmp :=
  match f a b with
  | some v => acc.insert a v
  | none => acc

private theorem getElem?_foldl_of_notMem (k : α)
    (l : List (α × β)) (absent : ∀ b, (k, b) ∉ l) (acc : ExtTreeMap α γ cmp) :
    (l.foldl (fun acc p => insertWith f acc p.1 p.2) acc)[k]? = acc[k]? := by
  induction l generalizing acc with
  | nil => rfl
  | cons p l ih =>
    have different : p.1 ≠ k := by
      intro same
      exact absent p.2 (by simp [← same])
    rw [foldl_cons, ih (fun b mem => absent b (mem_cons_of_mem _ mem)), insertWith]
    cases f p.1 p.2 <;> simp [different, ExtTreeMap.getElem?_insert]

private theorem getElem?_foldl_of_mem (k : α) (b : β)
    (l : List (α × β)) (distinct : l.Pairwise fun p q => p.1 ≠ q.1) (mem : (k, b) ∈ l)
    (acc : ExtTreeMap α γ cmp) :
    (l.foldl (fun acc p => insertWith f acc p.1 p.2) acc)[k]? = (f k b).or acc[k]? := by
  induction l generalizing acc with
  | nil => cases mem
  | cons p l ih =>
    obtain ⟨fresh, rest⟩ := pairwise_cons.mp distinct
    rw [foldl_cons]
    rcases mem_cons.mp mem with rfl | later
    · rw [getElem?_foldl_of_notMem f k l (fun b' mem' => fresh (k, b') mem' rfl), insertWith]
      cases f k b <;> simp
    · rw [ih rest later, insertWith]
      cases f p.1 p.2 <;> simp [fresh (k, b) later, ExtTreeMap.getElem?_insert]

/-- **What a rebuilding loop leaves under a key.** -/
lemma getElem?_foldl_insert (m : ExtTreeMap α β cmp) (acc : ExtTreeMap α γ cmp) (k : α) :
    (m.foldl (insertWith f) acc)[k]? = (m[k]?.bind (f k)).or acc[k]? := by
  rw [ExtTreeMap.foldl_eq_foldl_toList]
  cases found : m[k]? with
  | none =>
    refine getElem?_foldl_of_notMem f k _ ?_ acc
    intro b mem
    rw [ExtTreeMap.mem_toList_iff_getElem?_eq_some, found] at mem
    cases mem
  | some b =>
    refine getElem?_foldl_of_mem f k b _ ?_ ?_ acc
    · refine m.distinct_keys_toList.imp ?_
      intro p q different same
      exact different (by rw [same]; exact ReflCmp.compare_self)
    · exact ExtTreeMap.mem_toList_iff_getElem?_eq_some.mpr found

/-- Inserting every pair of a map into the empty map copies it. -/
lemma foldl_insert_empty (m : ExtTreeMap α β cmp) :
    m.toList.foldl (fun acc p => acc.insert p.1 p.2) (∅ : ExtTreeMap α β cmp) = m := by
  refine ExtTreeMap.ext_getElem? fun k => ?_
  have copied := getElem?_foldl_insert (fun _ b => some b) m ∅ k
  rw [ExtTreeMap.foldl_eq_foldl_toList] at copied
  refine copied.trans ?_
  cases m[k]? <;> simp

/-- **What an erasing loop leaves under a key.** -/
lemma getElem?_foldl_erase (dead : ExtTreeMap α β cmp) (m : ExtTreeMap α γ cmp) (k : α) :
    (dead.toList.foldl (fun m p => m.erase p.1) m)[k]? =
      if dead[k]?.isSome then none else m[k]? := by
  have onList : ∀ (l : List (α × β)) (m : ExtTreeMap α γ cmp),
      ((∃ b, (k, b) ∈ l) → (l.foldl (fun m p => m.erase p.1) m)[k]? = none) ∧
      ((∀ b, (k, b) ∉ l) → (l.foldl (fun m p => m.erase p.1) m)[k]? = m[k]?) := by
    intro l
    induction l with
    | nil => simp
    | cons p l ih =>
      intro m
      refine ⟨?_, ?_⟩
      · rintro ⟨b, mem⟩
        by_cases later : ∃ b, (k, b) ∈ l
        · exact (ih (m.erase p.1)).1 later
        · rcases mem_cons.mp mem with rfl | late
          · rw [foldl_cons, (ih _).2 (by simpa using later)]
            simp
          · exact absurd ⟨b, late⟩ later
      · intro absent
        have different : p.1 ≠ k := by
          intro same
          exact absent p.2 (by simp [← same])
        rw [foldl_cons, (ih _).2 fun b late => absent b (mem_cons_of_mem _ late)]
        simp [ExtTreeMap.getElem?_erase, different]
  cases found : dead[k]? with
  | none =>
    refine (onList dead.toList m).2 fun b mem => ?_
    rw [ExtTreeMap.mem_toList_iff_getElem?_eq_some, found] at mem
    cases mem
  | some b =>
    exact (onList dead.toList m).1 ⟨b, ExtTreeMap.mem_toList_iff_getElem?_eq_some.mpr found⟩

end TechStack.Lib.OrdMap
