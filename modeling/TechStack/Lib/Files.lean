import Mathlib

/-!
# Directories and what they are kept for

A directory maps names to contents.  `Filed` says what it is kept for: each item of a list has
its file, under its own name, and what stands under another name of the same kind is a spare.

* `Filed.removed` — the oldest items go, with their files;
* `Filed.put` — the file of one item is written;
* `Filed.move` — the oldest item takes another form, perhaps under another name;
* `Filed.insert_other` — a file of another kind does not matter.
-/

namespace TechStack.Lib.Files

open Std (ExtTreeMap)
open List

variable {α β : Type} {dir : ExtTreeMap String β} {path old name : String} {data : β}

lemma lookup_erase : (dir.erase path)[name]? = if path = name then none else dir[name]? := by
  rw [ExtTreeMap.getElem?_erase]
  simp only [compare_eq_iff_eq]

lemma lookup_insert :
    (dir.insert path data)[name]? = if path = name then some data else dir[name]? := by
  rw [ExtTreeMap.getElem?_insert]
  simp only [compare_eq_iff_eq]

/-- The directory without some files. -/
def removed (paths : List String) (dir : ExtTreeMap String β) : ExtTreeMap String β :=
  paths.foldl (fun dir path => dir.erase path) dir

@[simp] lemma removed_nil : removed [] dir = dir := rfl

@[simp] lemma removed_cons {paths : List String} :
    removed (path :: paths) dir = removed paths (dir.erase path) := rfl

lemma lookup_removed (paths : List String) :
    (removed paths dir)[name]? = if name ∈ paths then none else dir[name]? := by
  induction paths generalizing dir with
  | nil => simp
  | cons path paths ih =>
    rw [removed_cons, ih, lookup_erase]
    by_cases same : path = name
    · simp [same]
    · simp [same, Ne.symm same]

/-- Contents published under a name, with the old name gone. -/
def moved (path old : String) (data : β) (dir : ExtTreeMap String β) : ExtTreeMap String β :=
  if path = old then dir.insert path data else (dir.insert path data).erase old

lemma lookup_moved : (moved path old data dir)[name]? =
    if path = name then some data else if old = name then none else dir[name]? := by
  unfold moved
  split_ifs with same named freed named freed
  · rw [lookup_insert, if_pos named]
  · exact absurd (same.trans freed) named
  · rw [lookup_insert, if_neg named]
  · rw [lookup_erase, if_neg fun other => same (named.trans other.symm), lookup_insert,
      if_pos named]
  · rw [lookup_erase, if_pos freed]
  · rw [lookup_erase, if_neg freed, lookup_insert, if_neg named]

lemma lookup_moved_of_ne (new : path ≠ name) (other : old ≠ name) :
    (moved path old data dir)[name]? = dir[name]? := by
  rw [lookup_moved, if_neg new, if_neg other]

/-- Each item has its file, under its own name, and the others of the kind are spare. -/
structure Filed (kind : String → Bool) (label : α → String) (file : α → Option β → Prop)
    (spare : String → Option β → Prop) (dir : ExtTreeMap String β) (items : List α) : Prop where
  own : ∀ x ∈ items, file x dir[label x]?
  others : ∀ name, kind name = true → name ∉ items.map label → spare name dir[name]?

namespace Filed

variable {kind : String → Bool} {label : α → String} {file : α → Option β → Prop}
  {spare : String → Option β → Prop} {items items' gone rest : List α} {x x' : α}

lemma removed (filed : Filed kind label file spare dir (gone ++ rest))
    (distinct : ((gone ++ rest).map label).Nodup) (nothing : ∀ name, spare name none) :
    Filed kind label file spare (removed (gone.map label) dir) rest := by
  rw [map_append] at distinct
  refine ⟨fun y mem => ?_, fun name is other => ?_⟩
  · have kept : label y ∉ gone.map label := fun dropped =>
      (nodup_append.mp distinct).2.2 _ dropped _ (mem_map_of_mem mem) rfl
    rw [lookup_removed, if_neg kept]
    exact filed.own y (mem_append_right _ mem)
  · rw [lookup_removed]
    by_cases dropped : name ∈ gone.map label
    · rw [if_pos dropped]
      exact nothing name
    · rw [if_neg dropped]
      refine filed.others name is fun listed => ?_
      rw [map_append] at listed
      exact (mem_append.mp listed).elim dropped other

lemma put (filed : Filed kind label file spare dir items) (x : α)
    (distinct : (items'.map label).Nodup) (mem : x ∈ items')
    (same : ∀ y ∈ items', y ≠ x → y ∈ items)
    (known : ∀ name ∈ items.map label, name ∈ items'.map label) (written : file x (some data)) :
    Filed kind label file spare (dir.insert (label x) data) items' := by
  refine ⟨fun y listed => ?_, fun name is other => ?_⟩
  · rw [lookup_insert]
    by_cases self : y = x
    · rw [self, if_pos rfl]
      exact written
    · rw [if_neg fun named => self (inj_on_of_nodup_map distinct listed mem named.symm)]
      exact filed.own y (same y listed self)
  · have differ : label x ≠ name := fun named => other (named ▸ mem_map_of_mem mem)
    rw [lookup_insert, if_neg differ]
    exact filed.others name is fun old => other (known name old)

lemma move (filed : Filed kind label file spare dir (x :: rest))
    (before : ((x :: rest).map label).Nodup) (after : ((x' :: rest).map label).Nodup)
    (nothing : ∀ name, spare name none) (written : file x' (some data)) :
    Filed kind label file spare (moved (label x') (label x) data dir) (x' :: rest) := by
  have differs : ∀ {z y}, ((z :: rest).map label).Nodup → y ∈ rest → label z ≠ label y :=
    fun distinct later same => (nodup_cons.mp distinct).1 (same ▸ mem_map_of_mem later)
  refine ⟨fun y listed => ?_, fun name is other => ?_⟩
  · rcases mem_cons.mp listed with rfl | later
    · rw [lookup_moved, if_pos rfl]
      exact written
    · rw [lookup_moved_of_ne (differs after later) (differs before later)]
      exact filed.own y (.tail _ later)
  · simp only [map_cons, mem_cons, not_or] at other
    rw [lookup_moved, if_neg (Ne.symm other.1)]
    by_cases freed : label x = name
    · rw [if_pos freed]
      exact nothing name
    · rw [if_neg freed]
      exact filed.others name is (by simp [Ne.symm freed, other.2])

lemma insert_other (filed : Filed kind label file spare dir items)
    (kinds : ∀ x ∈ items, kind (label x) = true) (other : kind path = false) :
    Filed kind label file spare (dir.insert path data) items := by
  have differs : ∀ {name}, kind name = true → path ≠ name := by
    rintro name is rfl
    cases is.symm.trans other
  refine ⟨fun y mem => ?_, fun name is apart => ?_⟩
  · rw [lookup_insert, if_neg (differs (kinds y mem))]
    exact filed.own y mem
  · rw [lookup_insert, if_neg (differs is)]
    exact filed.others name is apart

end Filed

end TechStack.Lib.Files
