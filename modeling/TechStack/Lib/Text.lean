import Mathlib

/-!
# Texts and rounded numbers

What programs do with texts and with numbers they show: white space, rounding half
away from zero, and decimals with at most two places.
-/

namespace TechStack.Lib

open List

/-- Unicode white space. -/
def isSpace (c : Char) : Bool :=
  let n := c.toNat
  (0x09 ≤ n && n ≤ 0x0D) || n == 0x20 || n == 0x85 || n == 0xA0 || n == 0x1680 ||
    (0x2000 ≤ n && n ≤ 0x200A) || n == 0x2028 || n == 0x2029 || n == 0x202F ||
    n == 0x205F || n == 0x3000

/-- Nothing is left of the text once its white space is trimmed. -/
def blank (s : String) : Bool := s.toList.all isSpace

/-- The text without the white space around it. -/
def trimSpace (s : String) : String :=
  String.ofList ((s.toList.dropWhile isSpace).reverse.dropWhile isSpace).reverse

/-- There is nothing to trim where there is no white space. -/
lemma trimSpace_eq_self {s : String} (solid : ∀ c ∈ s.toList, isSpace c = false) :
    trimSpace s = s := by
  have keeps : ∀ {l : List Char}, (∀ c ∈ l, isSpace c = false) → l.dropWhile isSpace = l := by
    intro l solid
    cases l with
    | nil => rfl
    | cons c rest => rw [dropWhile_cons, solid c (.head _)]; rfl
  have back : ∀ c ∈ s.toList.reverse, isSpace c = false :=
    fun c mem => solid c (mem_reverse.mp mem)
  rw [trimSpace, keeps solid, keeps back, reverse_reverse, String.ofList_toList]

/-- What is trimmed is not trimmed again. -/
lemma trimSpace_trimSpace (s : String) : trimSpace (trimSpace s) = trimSpace s := by
  have shape (s : String) :
      (trimSpace s).toList = rdropWhile isSpace (s.toList.dropWhile isSpace) :=
    String.toList_ofList
  -- What is left starts as before the back was taken, with no white space.
  have kept : (trimSpace s).toList.dropWhile isSpace = (trimSpace s).toList := by
    obtain ⟨more, starts⟩ := rdropWhile_prefix isSpace (s.toList.dropWhile isSpace)
    have head := head?_dropWhile_not isSpace s.toList
    rw [← starts, ← shape] at head
    cases left : (trimSpace s).toList with
    | nil => rfl
    | cons c rest =>
      rw [left] at head
      exact dropWhile_cons_of_neg (by simpa using head)
  rw [← String.toList_inj, shape (trimSpace s), kept, shape s, rdropWhile_idempotent]

/-- The nearest integer, halves away from zero. -/
def roundHalfAway (q : ℚ) : ℤ :=
  if q < 0 then -⌊-q + 1 / 2⌋ else ⌊q + 1 / 2⌋

/-- `n / 100` in decimal, without trailing zeros. -/
def hundredths (n : ℕ) : String :=
  let whole := toString (n / 100)
  if n % 100 = 0 then whole
  else if n % 10 = 0 then whole ++ "." ++ toString (n % 100 / 10)
  else whole ++ "." ++ toString (n % 100 / 10) ++ toString (n % 10)

/-- A number rounded to two places, in decimal.  The sign is that of the number, so a
negative one that rounds to nothing reads `-0`. -/
def twoPlaces (value : ℚ) : String :=
  (if value < 0 then "-" else "") ++ hundredths ⌊|value| * 100 + 1 / 2⌋₊

example : (twoPlaces (251 / 2), twoPlaces (-1 / 1000), twoPlaces 3) = ("125.5", "-0", "3") := by
  decide +kernel

/-! ### Numbers of a fixed width -/

/-- The last digit of a number. -/
def digit (n : ℕ) : Char := Char.ofNat (48 + n % 10)

/-- A hexadecimal digit. -/
def hexDigit (n : ℕ) : Char :=
  if n < 10 then Char.ofNat (48 + n) else Char.ofNat (87 + n)

/-- The last digits of a number, as many as asked for, with leading zeros. -/
def padded : ℕ → ℕ → List Char
  | 0, _ => []
  | width + 1, n => digit (n / 10 ^ width) :: padded width n

@[simp] lemma length_padded (width n : ℕ) : (padded width n).length = width := by
  induction width with
  | zero => rfl
  | succ width ih => simp [padded, ih]

lemma digit_lt {a b : ℕ} (less : a % 10 < b % 10) : digit a < digit b := by
  have below : b % 10 < 10 := Nat.mod_lt b (by norm_num)
  unfold digit
  generalize b % 10 = y at less below
  generalize a % 10 = x at less
  interval_cases y <;> interval_cases x <;> decide

lemma digit_congr {a b : ℕ} (same : a % 10 = b % 10) : digit a = digit b := by
  simp [digit, same]

/-- **Padded numbers sort as numbers do**, as far as the digits that are shown. -/
lemma padded_lt {width a b : ℕ} (less : a % 10 ^ width < b % 10 ^ width) :
    padded width a < padded width b := by
  induction width with
  | zero => simp [Nat.mod_one] at less
  | succ width ih =>
    have split (n : ℕ) : n % 10 ^ (width + 1) =
        10 ^ width * (n / 10 ^ width % 10) + n % 10 ^ width := by
      rw [pow_succ, Nat.mod_mul, add_comm]
    have bound (n : ℕ) : n % 10 ^ width < 10 ^ width := Nat.mod_lt _ (by positivity)
    rw [split a, split b] at less
    rw [padded, padded, cons_lt_cons_iff]
    rcases Nat.lt_trichotomy (a / 10 ^ width % 10) (b / 10 ^ width % 10) with first | same | last
    · exact .inl (digit_lt first)
    · refine .inr ⟨digit_congr same, ih ?_⟩
      rw [same] at less
      omega
    · have more : 10 ^ width * (b / 10 ^ width % 10 + 1) ≤ 10 ^ width * (a / 10 ^ width % 10) :=
        Nat.mul_le_mul_left _ last
      have := bound b
      rw [Nat.mul_add, Nat.mul_one] at more
      omega

/-- Texts sort as they do with something in front of them. -/
lemma append_left_lt {a b : List Char} (less : a < b) (front : List Char) :
    front ++ a < front ++ b := by
  induction front with
  | nil => exact less
  | cons c front ih => exact cons_lt_cons_iff.mpr (.inr ⟨rfl, ih⟩)

/-- Texts of one length sort as they do with something behind them. -/
lemma append_lt_append {a b : List Char} (same : a.length = b.length) (less : a < b)
    (rest : List Char) : a ++ rest < b ++ rest := by
  induction a generalizing b with
  | nil =>
    obtain rfl : b = [] := by simpa using same.symm
    exact absurd less (by simp)
  | cons c a ih =>
    cases b with
    | nil => simp at same
    | cons d b =>
      rw [cons_lt_cons_iff] at less
      rw [cons_append, cons_append, cons_lt_cons_iff]
      rcases less with less | ⟨rfl, less⟩
      · exact .inl less
      · exact .inr ⟨rfl, ih (by simpa using same) less⟩

end TechStack.Lib
