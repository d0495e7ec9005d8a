import TechStack.Lib.Bytes

/-!
# Files of lines

A file to which records are appended one line at a time, and the reader that takes it
apart again.  A write that stops part way leaves a *torn tail*: bytes without a line
end.  The reader stops there, so what it returns are the whole lines
(`scanLines_image`), and how many bytes they take says where to cut the tail off.

The reader passes over lines beyond its bound without counting them; a file whose lines
all keep the bound never gets there.
-/

namespace TechStack.Lib.Lines

open List

/-- The line end. -/
def newline : UInt8 := 10

/-- The lines of a file, each with its line end; the last may lack it. -/
def linesOf : Bytes → List Bytes
  | [] => []
  | b :: rest =>
    if b = newline then [b] :: linesOf rest
    else match linesOf rest with
      | [] => [[b]]
      | line :: lines => (b :: line) :: lines

/-- Read line after line until one is torn or does not decode; answer what was read and
how many bytes it took. -/
def scanLines {α : Type} (bound : ℕ) (decode : Bytes → Option α) : List Bytes → List α × ℕ
  | [] => ([], 0)
  | line :: rest =>
    if line.getLast? = some newline then
      if line.length ≤ bound then
        match decode line with
        | some a =>
          let (as, good) := scanLines bound decode rest
          (a :: as, line.length + good)
        | none => ([], 0)
      else scanLines bound decode rest
    else ([], 0)

/-- A whole line: nothing but its end is a line end. -/
def IsLine (line : Bytes) : Prop := ∃ body, newline ∉ body ∧ line = body ++ [newline]

/-- Bytes without a line end, such as a write that stopped part way leaves. -/
def Torn (tail : Bytes) : Prop := newline ∉ tail

lemma torn_nil : Torn [] := by simp [Torn]

lemma linesOf_line {line rest : Bytes} (whole : IsLine line) :
    linesOf (line ++ rest) = line :: linesOf rest := by
  obtain ⟨body, free, rfl⟩ := whole
  induction body with
  | nil => simp [linesOf]
  | cons b body ih =>
    have other : b ≠ newline := fun same => free (by simp [same])
    have later := ih fun mem => free (mem_cons_of_mem b mem)
    simp only [cons_append] at later ⊢
    rw [linesOf, if_neg other, later]

variable {tail : Bytes}

lemma linesOf_torn (torn : Torn tail) : linesOf tail = if tail = [] then [] else [tail] := by
  induction tail with
  | nil => rfl
  | cons b rest ih =>
    have other : b ≠ newline := fun same => torn (by simp [same])
    have later := ih fun mem => torn (mem_cons_of_mem b mem)
    rw [linesOf, if_neg other, later]
    by_cases last : rest = []
    · simp [last]
    · simp [last]

/-- A line that was cut short is torn. -/
lemma torn_take {line : Bytes} (whole : IsLine line) {n : ℕ} (short : n < line.length) :
    Torn (line.take n) := by
  obtain ⟨body, free, rfl⟩ := whole
  intro mem
  rw [length_append, length_singleton] at short
  rw [take_append_of_le_length (by omega)] at mem
  exact free (mem_of_mem_take mem)

variable {α : Type} {bound : ℕ} {decode : Bytes → Option α} {encode : α → Bytes}

/-- A value that the reader gets back from its line. -/
structure Reads (bound : ℕ) (decode : Bytes → Option α) (encode : α → Bytes) (a : α) : Prop where
  line : IsLine (encode a)
  fits : (encode a).length ≤ bound
  decodes : decode (encode a) = some a

/-- The file of a sequence of values. -/
def image (encode : α → Bytes) (values : List α) : Bytes := values.flatMap encode

@[simp] lemma image_nil : image encode [] = [] := rfl

@[simp] lemma image_cons (a : α) (rest : List α) :
    image encode (a :: rest) = encode a ++ image encode rest := rfl

@[simp] lemma image_append (front back : List α) :
    image encode (front ++ back) = image encode front ++ image encode back :=
  flatMap_append

lemma scanLines_torn (torn : Torn tail) : scanLines bound decode (linesOf tail) = ([], 0) := by
  rw [linesOf_torn torn]
  split
  · rfl
  · rw [scanLines, if_neg]
    intro ends
    exact torn (mem_of_getLast? ends)

/-- **The reader returns the whole lines of a file**, and how many bytes they take. -/
lemma scanLines_image {values : List α} (reads : ∀ a ∈ values, Reads bound decode encode a)
    (torn : Torn tail) :
    scanLines bound decode (linesOf (image encode values ++ tail)) =
      (values, (image encode values).length) := by
  induction values with
  | nil => exact scanLines_torn torn
  | cons a rest ih =>
    have first := reads a mem_cons_self
    have later := ih fun b mem => reads b (mem_cons_of_mem a mem)
    have ends : (encode a).getLast? = some newline := by
      obtain ⟨body, -, same⟩ := first.line
      simp [same]
    rw [image_cons, append_assoc, linesOf_line first.line, scanLines, if_pos ends,
      if_pos first.fits, first.decodes, later]
    simp

end TechStack.Lib.Lines
