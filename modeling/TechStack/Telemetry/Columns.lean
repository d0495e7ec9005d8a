import TechStack.Lib.Json
import TechStack.Telemetry.Segments

/-!
# Two codecs for concrete runs

What the spool asks of JSON can be had: `columns` writes a record in decimal columns, one after
the other, followed by one text for each of its samples, which are all the same.  It can read
back whatever it writes, but its lines are longer than those of `encoding/json`.  Where the length
matters there is `json`, which writes what `encoding/json` does and knows a few records only.
-/

namespace TechStack.Telemetry

open List Lib Lines

namespace Columns

/-! ### Numbers -/

/-- A number in a column of some width. -/
def column (width n : ℕ) : Bytes := (padded width n).map fun c => UInt8.ofNat c.toNat

/-- The number in a column. -/
def number (bytes : Bytes) : ℕ := bytes.foldl (fun n b => n * 10 + (b.toNat - 48)) 0

lemma toNat_digit (n : ℕ) : (UInt8.ofNat (digit n).toNat).toNat = 48 + n % 10 := by
  have below : n % 10 < 10 := Nat.mod_lt n (by norm_num)
  unfold digit
  generalize n % 10 = d at below
  interval_cases d <;> rfl

@[simp] lemma length_column (width n : ℕ) : (column width n).length = width := by
  simp [column]

lemma foldl_column (width n start : ℕ) :
    (column width n).foldl (fun n b => n * 10 + (b.toNat - 48)) start =
      start * 10 ^ width + n % 10 ^ width := by
  induction width generalizing start with
  | zero => simp [column, padded, Nat.mod_one]
  | succ width ih =>
    have step : column (width + 1) n =
        UInt8.ofNat (digit (n / 10 ^ width)).toNat :: column width n := rfl
    rw [step, foldl_cons, ih, toNat_digit, Nat.add_sub_cancel_left, Nat.pow_succ, Nat.mod_mul]
    ring

lemma number_column {width n : ℕ} (fits : n < 10 ^ width) : number (column width n) = n := by
  rw [number, foldl_column, Nat.zero_mul, Nat.zero_add, Nat.mod_eq_of_lt fits]

lemma newline_not_mem_column (width n : ℕ) : newline ∉ column width n := by
  induction width with
  | zero => simp [column, padded]
  | succ width ih =>
    have step : column (width + 1) n =
        UInt8.ofNat (digit (n / 10 ^ width)).toNat :: column width n := rfl
    rw [step, mem_cons, not_or]
    refine ⟨fun same => ?_, ih⟩
    have value := congrArg UInt8.toNat same
    rw [toNat_digit] at value
    have : newline.toNat = 10 := rfl
    omega

/-! ### Records -/

/-- An instant in a column. -/
def instant (t : ℤ) : Bytes := column 24 (t + 100000000000000000).toNat

/-- The instant in a column. -/
def readInstant (bytes : Bytes) : ℤ := number bytes - 100000000000000000

lemma readInstant_instant {t : ℤ} (expressible : Expressible t) :
    readInstant (instant t) = t := by
  unfold Expressible at expressible
  have fits : (t + 100000000000000000).toNat < 10 ^ 24 := by omega
  rw [readInstant, instant, number_column fits]
  omega

@[simp] lemma length_instant (t : ℤ) : (instant t).length = 24 := length_column _ _

/-- The sample that there is. -/
def uptime : Sample := ⟨"node_uptime_seconds", some 1, [("origin", "guard")]⟩

/-- A text as long as its JSON. -/
def sampleText : Bytes := List.replicate 66 0x78

/-- No marker. -/
def blankGap : Gap := ⟨0, 0, 0, 0, .spoolBudget⟩

/-- What the first column says of a marker. -/
def kind : Option Gap → ℕ
  | none => 0
  | some gap => if gap.reason = .spoolBudget then 1 else 2

/-- The records that can be written. -/
def Writable (r : Record) : Prop :=
  r.samples.all (· = uptime) ∧ r.driveHealth = none ∧ r.sequence < 2 ^ 63 ∧ Expressible r.at ∧
    ∀ gap ∈ r.gap, gap.fromSequence < 2 ^ 63 ∧ gap.toSequence < 2 ^ 63 ∧
      Expressible gap.fromTime ∧ Expressible gap.toTime ∧
      (gap.reason = .spoolBudget ∨ gap.reason = .rejected)

instance (t : ℤ) : Decidable (Expressible t) := inferInstanceAs (Decidable (_ ∧ _))

instance (r : Record) : Decidable (Writable r) :=
  match gap : r.gap with
  | none => decidable_of_iff (r.samples.all (· = uptime) ∧ r.driveHealth = none ∧
      r.sequence < 2 ^ 63 ∧ Expressible r.at) (by simp [Writable, gap])
  | some g => decidable_of_iff (r.samples.all (· = uptime) ∧ r.driveHealth = none ∧
      r.sequence < 2 ^ 63 ∧ Expressible r.at ∧ g.fromSequence < 2 ^ 63 ∧ g.toSequence < 2 ^ 63 ∧
      Expressible g.fromTime ∧ Expressible g.toTime ∧
      (g.reason = .spoolBudget ∨ g.reason = .rejected)) (by simp [Writable, gap])

/-- The columns of a record, and its samples. -/
def encode (r : Record) : Bytes :=
  let gap := r.gap.getD blankGap
  column 1 (kind r.gap) ++ (column 20 r.sequence ++ (instant r.at ++
    (column 20 gap.fromSequence ++ (column 20 gap.toSequence ++ (instant gap.fromTime ++
      (instant gap.toTime ++ r.samples.flatMap fun _ => sampleText))))))

/-- Cut a column off. -/
def cut (width : ℕ) (bytes : Bytes) : Bytes × Bytes := (bytes.take width, bytes.drop width)

lemma cut_column (width n : ℕ) (rest : Bytes) :
    cut width (column width n ++ rest) = (column width n, rest) := by
  have length := length_column width n
  rw [cut, take_left' length, drop_left' length]

lemma cut_instant (t : ℤ) (rest : Bytes) : cut 24 (instant t ++ rest) = (instant t, rest) :=
  cut_column 24 _ rest

/-- The record of some columns. -/
def decode (bytes : Bytes) : Record :=
  let (kind, bytes) := cut 1 bytes
  let (sequence, bytes) := cut 20 bytes
  let (time, bytes) := cut 24 bytes
  let (fromSequence, bytes) := cut 20 bytes
  let (toSequence, bytes) := cut 20 bytes
  let (fromTime, bytes) := cut 24 bytes
  let (toTime, bytes) := cut 24 bytes
  { sequence := number sequence
    «at» := readInstant time
    samples := List.replicate (bytes.length / 66) uptime
    gap :=
      if number kind = 0 then none
      else some ⟨readInstant fromTime, readInstant toTime, number fromSequence, number toSequence,
        if number kind = 1 then .spoolBudget else .rejected⟩ }

lemma decode_encode {r : Record} (writable : Writable r) : decode (encode r) = r := by
  obtain ⟨sequence, time, samples, gap, drives⟩ := r
  obtain ⟨all, none, small, expressible, marked⟩ := writable
  simp only at none small expressible marked
  subst none
  have big : (2 : ℕ) ^ 63 < 10 ^ 20 := by norm_num
  have texts : List.replicate ((samples.flatMap fun _ => sampleText).length / 66) uptime =
      samples := by
    have length : (samples.flatMap fun _ => sampleText).length = samples.length * 66 := by
      simp [length_flatMap, sampleText]
    rw [length, Nat.mul_div_cancel _ (by norm_num)]
    exact (eq_replicate_iff.mpr ⟨rfl, by simpa using all⟩).symm
  simp only [decode, encode, cut_column, cut_instant, texts, readInstant_instant expressible,
    number_column (small.trans big)]
  cases gap with
  | none => simp [kind, number_column]
  | some gap =>
    obtain ⟨fromTime, toTime, fromSequence, toSequence, reason⟩ := gap
    obtain ⟨fromSmall, toSmall, starts, ends, reasons⟩ := marked _ rfl
    simp only at fromSmall toSmall starts ends reasons
    simp only [Option.getD_some, readInstant_instant starts, readInstant_instant ends,
      number_column (fromSmall.trans big), number_column (toSmall.trans big)]
    rcases reasons with rfl | rfl <;> simp [kind, number_column]

/-! ### The state -/

/-- The characters of a text, three bytes each. -/
def chars (text : List Char) : Bytes :=
  text.flatMap fun c =>
    [UInt8.ofNat (c.toNat / 65536), UInt8.ofNat (c.toNat / 256), UInt8.ofNat c.toNat]

/-- The characters that bytes stand for. -/
def readChars : Bytes → List Char
  | a :: b :: c :: rest =>
    Char.ofNat (a.toNat * 65536 + b.toNat * 256 + c.toNat) :: readChars rest
  | _ => []

lemma readChars_chars (text : List Char) : readChars (chars text) = text := by
  induction text with
  | nil => rfl
  | cons c rest ih =>
    have valid : c.toNat < 1114112 := by
      have := c.valid
      rcases this with low | high
      · exact low.trans (by norm_num)
      · exact high.2
    have value : (UInt8.ofNat (c.toNat / 65536)).toNat * 65536 +
        (UInt8.ofNat (c.toNat / 256)).toNat * 256 + (UInt8.ofNat c.toNat).toNat = c.toNat := by
      simp only [UInt8.toNat_ofNat']
      omega
    change Char.ofNat _ :: readChars (chars rest) = _
    rw [value, Char.ofNat_toNat, ih]

end Columns

open Columns

/-- The codec in columns. -/
def columns : Codec where
  marshal r := if Writable r then some (encode r) else none
  unmarshal line :=
    let r := decode line.dropLast
    if Writable r ∧ encode r ++ [newline] = line then some r else none
  marshalState state := List.replicate state.lastSeq 1 ++ 0 :: chars state.epoch.toList
  unmarshalState bytes :=
    ⟨String.ofList (readChars (bytes.dropWhile (· = 1)).tail), (bytes.takeWhile (· = 1)).length⟩

lemma marshal_columns {r : Record} {body : Bytes} (marshalled : columns.marshal r = some body) :
    Writable r ∧ body = encode r := by
  simp only [columns, Option.ite_none_right_eq_some] at marshalled
  exact ⟨marshalled.1, (Option.some.inj marshalled.2).symm⟩

lemma newline_not_mem_encode (r : Record) : newline ∉ encode r := by
  have texts : newline ∉ r.samples.flatMap fun _ => sampleText := by
    simp only [mem_flatMap, not_exists, not_and]
    intro _ _
    decide
  simp only [encode, instant, mem_append, not_or]
  exact ⟨newline_not_mem_column _ _, newline_not_mem_column _ _, newline_not_mem_column _ _,
    newline_not_mem_column _ _, newline_not_mem_column _ _, newline_not_mem_column _ _,
    newline_not_mem_column _ _, texts⟩

lemma columns_lawful : columns.Lawful where
  line := by
    intro r body marshalled
    obtain ⟨writable, rfl⟩ := marshal_columns marshalled
    refine ⟨newline_not_mem_encode r, ?_⟩
    simp only [columns, dropLast_concat, decode_encode writable, writable, and_self, if_true]
  times := by
    intro r body marshalled
    obtain ⟨⟨-, -, -, expressible, marked⟩, -⟩ := marshal_columns marshalled
    refine ⟨expressible, fun gap some_gap => ?_⟩
    obtain ⟨-, -, starts, ends, -⟩ := marked gap some_gap
    exact ⟨starts, ends⟩
  marker := by
    intro gap starts ends fromSmall toSmall reasons
    have writable : Writable (marker gap) := by
      refine ⟨rfl, rfl, fromSmall, ends, fun g same => ?_⟩
      obtain rfl : gap = g := Option.some.inj same
      exact ⟨fromSmall, toSmall, starts, ends, reasons⟩
    refine ⟨encode (marker gap), if_pos writable, ?_⟩
    simp [encode, marker, maxRecordLine]
  samples := by
    intro r body marshalled _
    obtain ⟨-, rfl⟩ := marshal_columns marshalled
    have texts : (r.samples.flatMap fun _ => sampleText).length = r.samples.length * 66 := by
      simp [length_flatMap, sampleText]
    simp only [encode, length_append, texts]
    omega
  state := by
    intro state
    have stop : ¬ ((0 : UInt8) = 1) := by decide
    simp only [columns]
    rw [takeWhile_append_of_pos, dropWhile_append_of_pos]
    · simp [stop, readChars_chars]
    · simp
    · simp

/-! ### JSON -/

namespace Json

open Lib.Json

/-- The beginning of a day in the first January of Go's calendar. -/
def date (t : ℤ) : Bytes :=
  quoted ("0001-01-" ++ String.ofList (padded 2 (t / 86400000000000 + 1).toNat) ++ "T00:00:00Z")

/-- A sample with a whole value. -/
def sample (s : Sample) : Bytes :=
  object (member "name" (quoted s.name) ++ member "value" (int (s.value.getD 0).num) ++
    omitEmpty s.labels.isEmpty (member "labels"
      (object (s.labels.flatMap fun label => member label.1 (quoted label.2)))))

def gap (g : Gap) : Bytes :=
  object (member "from" (date g.fromTime) ++ member "to" (date g.toTime) ++
    member "from_sequence" (int g.fromSequence) ++ member "to_sequence" (int g.toSequence) ++
    member "reason" (quoted g.reason.text))

def record (r : Record) : Bytes :=
  object (member "sequence" (int r.sequence) ++ member "at" (date r.at) ++
    omitEmpty r.samples.isEmpty (member "samples" (array (r.samples.map sample))) ++
    optional "gap" gap r.gap ++ optional "drive_health" id r.driveHealth)

end Json

/-- The codec that writes records as JSON and knows some of them; the state is in columns. -/
def json (known : List Record) : Codec :=
  { columns with
    marshal := fun r => if r ∈ known then some (Json.record r) else none
    unmarshal := fun line => known.find? fun r => Json.record r ++ [newline] = line }

end TechStack.Telemetry
