import Mathlib

/-!
# Labelled transition systems

States, initial states and labelled steps, with the one induction every safety
proof needs: a property of the initial states that every admitted step keeps
holds of every state a run reaches.

A run is restricted by an *admission* condition on the state before the step
and the label.  Taking it to be constantly true gives all runs; a condition
that rules out some faults gives the runs in which those faults never happen.
-/

namespace TechStack.Lib

/-- Initial states and labelled steps. -/
structure Machine (σ ℓ : Type) where
  init : σ → Prop
  step : σ → ℓ → σ → Prop

namespace Machine

variable {σ ℓ : Type} {M : Machine σ ℓ} {admits admits' : σ → ℓ → Prop}

/-- The states that runs of admitted steps reach. -/
inductive Reaches (M : Machine σ ℓ) (admits : σ → ℓ → Prop) : σ → Prop where
  | init {s : σ} : M.init s → Reaches M admits s
  | step {s s' : σ} {label : ℓ} : Reaches M admits s → admits s label →
      M.step s label s' → Reaches M admits s'

/-- **The invariance rule.** -/
lemma Reaches.invariant (inv : σ → Prop) (initial : ∀ s, M.init s → inv s)
    (kept : ∀ s label s', inv s → admits s label → M.step s label s' → inv s')
    {s : σ} (reached : M.Reaches admits s) : inv s := by
  induction reached with
  | init start => exact initial _ start
  | step _ admitted stepped ih => exact kept _ _ _ ih admitted stepped

/-- Fewer admitted steps reach fewer states. -/
lemma Reaches.mono (weaker : ∀ s label, admits s label → admits' s label)
    {s : σ} (reached : M.Reaches admits s) : M.Reaches admits' s := by
  induction reached with
  | init start => exact .init start
  | step _ admitted stepped ih => exact .step ih (weaker _ _ admitted) stepped

/-- The states that admitted steps lead to from a state. -/
inductive Later (M : Machine σ ℓ) (admits : σ → ℓ → Prop) (s : σ) : σ → Prop where
  | refl : Later M admits s s
  | step {t t' : σ} {label : ℓ} : Later M admits s t → admits t label → M.step t label t' →
      Later M admits s t'

/-- What is later than a state that is reached is reached. -/
lemma Reaches.later {s t : σ} (reached : M.Reaches admits s) (later : M.Later admits s t) :
    M.Reaches admits t := by
  induction later with
  | refl => exact reached
  | step _ admitted stepped ih => exact .step ih admitted stepped

/-- What every admitted step from a reached state keeps is kept later on. -/
lemma Later.keeps (P : σ → Prop)
    (kept : ∀ s label s', M.Reaches admits s → P s → admits s label → M.step s label s' → P s')
    {s t : σ} (reached : M.Reaches admits s) (start : P s) (later : M.Later admits s t) : P t := by
  induction later with
  | refl => exact start
  | step before admitted stepped ih => exact kept _ _ _ (reached.later before) ih admitted stepped

/-- The steps of a list of labels one after the other, as long as a check allows them. -/
def follow (act : σ → ℓ → Option σ) (ok : σ → ℓ → Bool) (s : σ) (labels : List ℓ) : Option σ :=
  labels.foldlM (fun s label => if ok s label then act s label else none) s

/-- Following labels that the check admits leads to a later state. -/
lemma Later.of_follow {act : σ → ℓ → Option σ} {ok : σ → ℓ → Bool} {start s : σ}
    {labels : List ℓ} (steps : ∀ s label s', act s label = some s' → M.step s label s')
    (admitted : ∀ label ∈ labels, ∀ s, ok s label = true → admits s label)
    (followed : follow act ok start labels = some s) : M.Later admits start s := by
  induction labels using List.reverseRecOn generalizing s with
  | nil =>
    cases followed
    exact .refl
  | append_singleton labels label ih =>
    simp only [follow, List.foldlM_append, List.foldlM_cons, List.foldlM_nil, bind_pure,
      Option.bind_eq_bind, Option.bind_eq_some_iff, Option.ite_none_right_eq_some] at followed
    obtain ⟨middle, before, allowed, last⟩ := followed
    exact .step (ih (fun l mem => admitted l (List.mem_append_left _ mem)) before)
      (admitted label (by simp) middle allowed) (steps middle label s last)

/-- Following labels that the check admits reaches a state. -/
lemma Reaches.of_follow {act : σ → ℓ → Option σ} {ok : σ → ℓ → Bool} {start s : σ}
    {labels : List ℓ} (initial : M.init start)
    (steps : ∀ s label s', act s label = some s' → M.step s label s')
    (admitted : ∀ label ∈ labels, ∀ s, ok s label = true → admits s label)
    (followed : follow act ok start labels = some s) : M.Reaches admits s :=
  (Reaches.init initial).later (.of_follow steps admitted followed)

/-- The machine takes the steps of a function, from a state in which it starts. -/
structure Enacts (M : Machine σ ℓ) (act : σ → ℓ → Option σ) (start : σ) : Prop where
  initial : M.init start
  steps : ∀ s label s', act s label = some s' → M.step s label s'

section Enacts

variable {act : σ → ℓ → Option σ} {start : σ} (enacts : M.Enacts act start)
include enacts

/-- Labels that a check allows reach a state that passes a test. -/
lemma Enacts.reaches (ok : σ → ℓ → Bool) (admitted : ∀ s label, ok s label = true → admits s label)
    (labels : List ℓ) (test : σ → Prop) [DecidablePred test]
    (passes : (follow act ok start labels).any (fun s => decide (test s)) = true) :
    ∃ s, M.Reaches admits s ∧ test s := by
  obtain ⟨s, followed, passed⟩ := (Option.any_eq_true _ _).mp passes
  exact ⟨s, .of_follow enacts.initial enacts.steps (fun label _ s => admitted s label) followed,
    of_decide_eq_true passed⟩

lemma Enacts.reaches_any (labels : List ℓ) (test : σ → Prop) [DecidablePred test]
    (passes : (follow act (fun _ _ => true) start labels).any (fun s => decide (test s)) = true) :
    ∃ s, M.Reaches (fun _ _ => True) s ∧ test s :=
  enacts.reaches _ (fun _ _ _ => trivial) labels test passes

/-- Labels that a check allows lead through two states that pass a test. -/
lemma Enacts.reaches_later (ok : σ → ℓ → Bool)
    (admitted : ∀ s label, ok s label = true → admits s label) (first second : List ℓ)
    (test : σ → σ → Prop) [∀ s, DecidablePred (test s)] (passes : (follow act ok start first).any
      (fun s => (follow act ok s second).any (fun s' => decide (test s s'))) = true) :
    ∃ s s', M.Reaches admits s ∧ M.Later admits s s' ∧ test s s' := by
  obtain ⟨s, first, more⟩ := (Option.any_eq_true _ _).mp passes
  obtain ⟨s', second, passed⟩ := (Option.any_eq_true _ _).mp more
  exact ⟨s, s', .of_follow enacts.initial enacts.steps (fun label _ s => admitted s label) first,
    .of_follow enacts.steps (fun label _ s => admitted s label) second, of_decide_eq_true passed⟩

end Enacts

end Machine

end TechStack.Lib
