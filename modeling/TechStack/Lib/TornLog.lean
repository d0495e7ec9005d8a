import Mathlib

/-!
# Append-only logs cut at an arbitrary place

A log is the concatenation of its frames.  A crash, or a failed write, leaves a
prefix of it that need not end between two frames.  This file says what such a
prefix looks like, over frames of any alphabet:

* `whole frames n` — how many frames lie completely inside the first `n`
  symbols;
* `take_flatten` — the first `n` symbols are those frames followed by a *cut*,
  a part of the next frame;
* `Cut tail frame` — a part of a frame that is not the frame itself.

A reader that consumes one whole frame at a time and recognises a cut is then
correct on every prefix by induction over `frames.take (whole frames n)`.
-/

namespace TechStack.Lib.TornLog

open List

variable {α : Type*}

/-- A proper initial part of a frame: what an interrupted append leaves. -/
structure Cut (tail frame : List α) : Prop where
  /-- The part is an initial one. -/
  initial : tail <+: frame
  /-- Some of the frame is missing. -/
  short : tail.length < frame.length

/-- A truncation below the frame's length is a cut. -/
lemma cut_take {frame : List α} {n : ℕ} (short : n < frame.length) :
    Cut (frame.take n) frame where
  initial := take_prefix n frame
  short := by rw [length_take]; omega

/-- A cut is a truncation. -/
lemma Cut.eq_take {tail frame : List α} (cut : Cut tail frame) : tail = frame.take tail.length :=
  prefix_iff_eq_take.mp cut.initial

/-- An initial part of a frame is the frame or a cut of it. -/
lemma eq_or_cut_of_initial {tail frame : List α} (initial : tail <+: frame) :
    tail = frame ∨ Cut tail frame := by
  rcases Nat.lt_or_ge tail.length frame.length with short | long
  · exact Or.inr ⟨initial, short⟩
  · exact Or.inl (initial.eq_of_length (Nat.le_antisymm initial.length_le long))

/-- How many leading frames lie completely inside the first `n` symbols. -/
def whole : List (List α) → ℕ → ℕ
  | [], _ => 0
  | frame :: frames, n =>
    if frame.length ≤ n then whole frames (n - frame.length) + 1 else 0

variable (frames : List (List α))

lemma whole_le_length (n : ℕ) : whole frames n ≤ frames.length := by
  induction frames generalizing n with
  | nil => exact Nat.le_refl 0
  | cons frame frames ih =>
    rw [whole, length_cons]
    split
    · exact Nat.succ_le_succ (ih _)
    · exact Nat.zero_le _

/-- The whole frames fit inside the prefix. -/
lemma length_whole_le (n : ℕ) : ((frames.take (whole frames n)).flatten).length ≤ n := by
  induction frames generalizing n with
  | nil => simp
  | cons frame frames ih =>
    rw [whole]
    split
    · have rest := ih (n - frame.length)
      rw [take_succ_cons, flatten_cons, length_append]
      omega
    · simp

/-- **The shape of a cut log.**  The first `n` symbols are the whole frames and
an initial part of the next one. -/
lemma take_flatten (n : ℕ) : frames.flatten.take n =
      (frames.take (whole frames n)).flatten ++ (frames.getD (whole frames n) []).take
          (n - ((frames.take (whole frames n)).flatten).length) := by
  induction frames generalizing n with
  | nil => simp
  | cons frame frames ih =>
    rw [whole]
    split
    case isTrue fits =>
      rw [flatten_cons, take_append, take_of_length_le fits, ih,
        take_succ_cons, flatten_cons, getD_cons_succ,
        append_assoc, length_append, Nat.sub_add_eq]
    case isFalse short =>
      rw [flatten_cons, take_append_of_le_length (by omega)]
      simp

/-- The part that follows the whole frames is a cut of the next frame, if there
is a next frame at all. -/
lemma cut_next (n : ℕ) (more : whole frames n < frames.length) :
    n - ((frames.take (whole frames n)).flatten).length <
      (frames.getD (whole frames n) []).length := by
  induction frames generalizing n with
  | nil => simp at more
  | cons frame frames ih =>
    rw [whole] at more ⊢
    split at more
    case isTrue fits =>
      have rest := ih (n - frame.length) (by simpa using more)
      rw [if_pos fits, take_succ_cons, flatten_cons,
        length_append, getD_cons_succ, Nat.sub_add_eq]
      exact rest
    case isFalse short =>
      rw [if_neg short]
      simpa using short

end TechStack.Lib.TornLog
