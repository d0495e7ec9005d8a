import TechStack.Lib.Slots

/-!
# The order of placement

`sortByDependencies` takes again and again the first service whose needs are all placed, and
appends the rest as it came once there is none.  A service that needs a name which is not in the
list is never taken, nor is one that needs such a service; these come last, in the order of the
input, and only that order decides whether the result respects their needs.
-/

namespace TechStack.Placement

open List Lib

/-- What `sortByDependencies` reads of a `ServiceSpec`. -/
structure Service where
  name : String
  needs : List String
  deriving DecidableEq

/-- All dependencies are already placed. -/
def allDepsMet (ordered : List Service) (svc : Service) : Bool :=
  svc.needs.all fun dep => ordered.any (·.name == dep)

/-- The loop of `sortByDependencies`; the service found is the first of its equals. -/
def sortFrom (ordered remaining : List Service) : List Service :=
  match found : remaining.find? (allDepsMet ordered) with
  | some svc => sortFrom (ordered ++ [svc]) (remaining.erase svc)
  | none => ordered ++ remaining
termination_by remaining.length
decreasing_by
  have mem := mem_of_find?_eq_some found
  rw [length_erase_of_mem mem]
  exact Nat.sub_one_lt_of_lt (length_pos_of_mem mem)

def sortByDependencies (services : List Service) : List Service := sortFrom [] services

/-- The first service does not need the second. -/
def Free (a b : Service) : Prop := b.name ∉ a.needs

/-- The least set of services that has each one whose needs are in it: those without needs, those
that need only these, and so on. -/
def Placeable (services : List Service) (svc : Service) : Prop :=
  ∀ S : Set Service, (∀ t ∈ services, (∀ dep ∈ t.needs, ∃ u ∈ S, u.name = dep) → t ∈ S) → svc ∈ S

variable {services ordered remaining : List Service} {svc : Service}

lemma allDepsMet_iff :
    allDepsMet ordered svc = true ↔ ∀ dep ∈ svc.needs, ∃ t ∈ ordered, t.name = dep := by
  simp [allDepsMet]

lemma sortFrom_perm (ordered remaining : List Service) :
    (sortFrom ordered remaining).Perm (ordered ++ remaining) := by
  fun_induction sortFrom ordered remaining with
  | case1 ordered remaining svc found ih =>
    rw [append_assoc] at ih
    exact ih.trans ((perm_cons_erase (mem_of_find?_eq_some found)).symm.append_left _)
  | case2 => exact .refl _

/-- What the loop knows of the services it has placed. -/
structure Placing (services ordered : List Service) : Prop where
  inside : ordered ⊆ services
  sorted : ordered.Pairwise Free
  met : ∀ svc ∈ ordered, allDepsMet ordered svc = true
  placeable : ∀ svc ∈ ordered, Placeable services svc

section

variable (distinct : (services.map Service.name).Nodup)
include distinct

/-- A service needs no other that is not placed, once its needs are met. -/
lemma free_of_met {a : Service} (inside : ordered ⊆ services)
    (met : allDepsMet ordered a = true) (mem : svc ∈ services) (new : svc ∉ ordered) :
    Free a svc := by
  intro needed
  obtain ⟨t, there, same⟩ := allDepsMet_iff.mp met svc.name needed
  cases inj_on_of_nodup_map distinct (inside there) mem same
  exact new there

/-- One more service is placed. -/
lemma Placing.snoc (placing : Placing services ordered) (mem : svc ∈ services)
    (new : svc ∉ ordered) (met : allDepsMet ordered svc = true) :
    Placing services (ordered ++ [svc]) where
  inside := append_subset.mpr ⟨placing.inside, by simpa⟩
  sorted := by
    refine pairwise_append.mpr ⟨placing.sorted, pairwise_singleton _ _, fun a there b last => ?_⟩
    rw [mem_singleton.mp last]
    exact free_of_met distinct placing.inside (placing.met a there) mem new
  met := by
    have still {a : Service} (met : allDepsMet ordered a = true) :
        allDepsMet (ordered ++ [svc]) a = true :=
      allDepsMet_iff.mpr fun dep needed =>
        (allDepsMet_iff.mp met dep needed).imp fun _ => .imp_left (mem_append_left _)
    exact forall_mem_snoc (fun a there => still (placing.met a there)) (still met)
  placeable := forall_mem_snoc placing.placeable fun S closed => closed svc mem fun dep needed =>
    (allDepsMet_iff.mp met dep needed).imp fun t =>
      .imp_left fun there => placing.placeable t there S closed

/-- The loop ends with services placed such that no other can be, and the others after them. -/
lemma exists_placing (placing : Placing services ordered)
    (rest : remaining = services.filter (· ∉ ordered)) :
    ∃ done, Placing services done ∧ (∀ svc ∈ services, allDepsMet done svc = true → svc ∈ done) ∧
      sortFrom ordered remaining = done ++ services.filter (· ∉ done) := by
  fun_induction sortFrom ordered remaining with
  | case1 ordered remaining svc found ih =>
    have mem := mem_of_find?_eq_some found
    rw [rest, mem_filter, decide_eq_true_eq] at mem
    refine ih (placing.snoc distinct mem.1 mem.2 (find?_some found)) ?_
    rw [rest, ((distinct.of_map _).filter _).erase_eq_filter, filter_filter]
    exact filter_congr fun t _ => by by_cases t = svc <;> simp [*]
  | case2 ordered remaining none =>
    refine ⟨ordered, placing, fun svc mem met => ?_, by rw [rest]⟩
    by_contra new
    exact find?_eq_none.mp none svc (by simp [rest, mem, new]) met

/-- **The result is a permutation, and respects the needs of every service** exactly if those that
cannot be placed, for want of a name or for a cycle, come in an order that does. -/
theorem sortByDependencies_sorted_iff :
    (sortByDependencies services).Perm services ∧
    ((sortByDependencies services).Pairwise Free ↔ services.Pairwise fun a b =>
      ¬Placeable services a → ¬Placeable services b → Free a b) := by
  refine ⟨sortFrom_perm [] services, ?_⟩
  obtain ⟨done, placing, most, result⟩ := exists_placing distinct
    (⟨nil_subset _, .nil, by simp, by simp⟩ : Placing services []) (by simp : services = _)
  have placed : ∀ svc ∈ services, svc ∉ done ↔ ¬Placeable services svc := by
    refine fun svc mem => not_congr ⟨placing.placeable svc, fun placeable => ?_⟩
    exact placeable {t | t ∈ done} fun t there met => most t there (allDepsMet_iff.mpr met)
  have after : ∀ a ∈ done, ∀ b ∈ services.filter (· ∉ done), Free a b := by
    intro a there b left
    rw [mem_filter, decide_eq_true_eq] at left
    exact free_of_met distinct placing.inside (placing.met a there) left.1 left.2
  rw [sortByDependencies, result, pairwise_append, pairwise_filter]
  simp only [placing.sorted, true_and, and_iff_left after, decide_eq_true_eq]
  exact Pairwise.iff_of_mem fun a b => by rw [placed _ a, placed _ b]

end

/-- Without a missing name the input's order does not matter. -/
theorem sortByDependencies_sorted_pair :
    (sortByDependencies [⟨"b", ["a"]⟩, ⟨"a", []⟩]).Perm [⟨"b", ["a"]⟩, ⟨"a", []⟩] ∧
      (sortByDependencies [⟨"b", ["a"]⟩, ⟨"a", []⟩]).Pairwise Free := by
  obtain ⟨perm, sorted⟩ := sortByDependencies_sorted_iff
    (by decide : (map Service.name [⟨"b", ["a"]⟩, ⟨"a", []⟩]).Nodup)
  refine ⟨perm, sorted.mpr (pairwise_pair.mpr fun _ stuck => absurd ?_ stuck)⟩
  exact fun S closed => closed _ (by simp) (by simp)

/-- There is no cycle, and yet `b` comes before `a`, which it needs: `a` needs a name that is not
in the list. -/
theorem missing_need_unsorted : ∃ services : List Service, (services.map Service.name).Nodup ∧
    (∀ a ∈ services, ∀ b ∈ services, b.name ∈ a.needs → b.name < a.name) ∧
    ¬(sortByDependencies services).Pairwise Free := by
  refine ⟨[⟨"b", ["a"]⟩, ⟨"a", ["c"]⟩], by decide, by decide, ?_⟩
  rw [sortByDependencies, sortFrom]
  split
  case h_1 found => simp [allDepsMet] at found
  case h_2 => simp [Free]

end TechStack.Placement
