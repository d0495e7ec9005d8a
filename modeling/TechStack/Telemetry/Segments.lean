import TechStack.Lib.Files
import TechStack.Lib.Transition
import TechStack.Telemetry.Spool

/-!
# What the spool's operations do

One specification for each file operation and each loop of the spool, for every pattern
of failures: the outcomes it can have, each with what it leaves in the directory.  What
only a fault explains says which one, so that a run without faults is left with the
outcomes of the code.

A segment file holds the lines of its records and perhaps a torn tail; a `Cell` is a
segment together with both.
-/

namespace TechStack.Telemetry

open Std (ExtTreeMap)
open List Lib Io Lines Files

/-! ### JSON -/

/-- The instants that JSON can express: those of the years 0 to 9999. -/
def Expressible (t : ℤ) : Prop :=
  -31622400000000000 ≤ t ∧ t < 315537897600000000000

/-- What is known of `encoding/json` on the spool's state and on the records that callers are assumed
to append, those that it does not change on the way: it would replace an invalid byte of a text, so
records with such texts have no encoding. -/
structure Codec.Lawful (codec : Codec) : Prop where
  /-- A marshalled record is one line, and reads back as what it was. -/
  line : ∀ record body, codec.marshal record = some body →
    newline ∉ body ∧ codec.unmarshal (body ++ [newline]) = some record
  /-- Its instants can be expressed. -/
  times : ∀ record body, codec.marshal record = some body → Expressible record.at ∧
    ∀ gap, record.gap = some gap → Expressible gap.fromTime ∧ Expressible gap.toTime
  /-- A marker whose instants can be expressed marshals, to a short line; its sequences
  are `int64`. -/
  marker : ∀ gap, Expressible gap.fromTime → Expressible gap.toTime →
    gap.fromSequence < 2 ^ 63 → gap.toSequence < 2 ^ 63 →
    (gap.reason = .spoolBudget ∨ gap.reason = .rejected) →
    ∃ body, codec.marshal (marker gap) = some body ∧ body.length < maxRecordLine
  /-- An admitted sample takes 59 bytes at least, as a load average of zero does. -/
  samples : ∀ record body, codec.marshal record = some body →
    (∀ sample ∈ record.samples, admitSample sample = true) →
    59 * record.samples.length ≤ body.length
  /-- The state reads back as what it was. -/
  state : ∀ state, codec.unmarshalState (codec.marshalState state) = state

variable {codec : Codec} {oracle : Oracle Site String} {dir : Dir} {trace : List Event}

/-- The line of a record on disk. -/
def encodeLine (codec : Codec) (record : Record) : Bytes :=
  (codec.marshal record).getD [] ++ [newline]

/-- A record that a segment can hold. -/
structure Storable (codec : Codec) (record : Record) : Prop where
  marshals : ∃ body, codec.marshal record = some body
  fits : (encodeLine codec record).length ≤ maxRecordLine
  positive : 0 < record.sequence

variable {record : Record}

lemma line_eq_some {data : Bytes} : line codec record = some data ↔
      (∃ body, codec.marshal record = some body) ∧ encodeLine codec record = data := by
  unfold line encodeLine
  cases codec.marshal record <;> simp

lemma Storable.line_eq (storable : Storable codec record) :
    line codec record = some (encodeLine codec record) :=
  line_eq_some.mpr ⟨storable.marshals, rfl⟩

lemma Storable.reads (lawful : codec.Lawful) (storable : Storable codec record) :
    Reads maxRecordLine (decodeLine codec) (encodeLine codec) record := by
  obtain ⟨body, marshalled⟩ := storable.marshals
  obtain ⟨free, back⟩ := lawful.line record body marshalled
  refine ⟨⟨body, free, ?_⟩, storable.fits, ?_⟩
  · simp [encodeLine, marshalled]
  · simp [decodeLine, encodeLine, marshalled, back, storable.positive]

/-- The file of a sequence of records. -/
abbrev fileOf (codec : Codec) (records : List Record) : Bytes := image (encodeLine codec) records

lemma parse_fileOf (lawful : codec.Lawful) {records : List Record} {tail : Bytes}
    (storable : ∀ r ∈ records, Storable codec r) (torn : Torn tail) :
    parse codec (fileOf codec records ++ tail) = (records, (fileOf codec records).length) :=
  scanLines_image (fun r mem => (storable r mem).reads lawful) torn

/-! ### Names -/

@[simp] lemma toList_segmentName (n : ℕ) :
    (segmentName n).toList = "seg-".toList ++ padded 20 n ++ ".jsonl".toList :=
  String.toList_ofList

lemma isSegment_segmentName (n : ℕ) : isSegment (segmentName n) = true := by
  simp only [isSegment, toList_segmentName, Bool.and_eq_true, isPrefixOf_iff_prefix,
    isSuffixOf_iff_suffix]
  exact ⟨⟨padded 20 n ++ ".jsonl".toList, by rw [append_assoc]⟩, suffix_append _ _⟩

lemma segmentName_lt {a b : ℕ} (less : a < b) (bound : b < 10 ^ 20) :
    segmentName a < segmentName b := by
  have digits : padded 20 a < padded 20 b := padded_lt (by
    rwa [Nat.mod_eq_of_lt (less.trans bound), Nat.mod_eq_of_lt bound])
  rw [String.lt_iff_toList_lt, toList_segmentName, toList_segmentName, append_assoc,
    append_assoc]
  exact append_left_lt (append_lt_append (by simp) digits _) _

lemma segmentNames_sorted (dir : Dir) : (segmentNames dir).Pairwise (· < ·) :=
  (dir.ordered_keys.imp fun less => compare_lt_iff_lt.mp less).filter _

/-- Sorted lists with the same members are the same. -/
lemma eq_of_sorted {left right : List String} (sorted : left.Pairwise (· < ·))
    (sorted' : right.Pairwise (· < ·)) (same : ∀ name, name ∈ left ↔ name ∈ right) :
    left = right :=
  List.Perm.eq_of_pairwise (fun _ _ _ _ less more => absurd less more.asymm) sorted sorted'
    ((perm_ext_iff_of_nodup sorted.nodup sorted'.nodup).mpr same)

/-- A directory whose segment files are a sorted list of names lists them in that order. -/
lemma segmentNames_eq {names : List String} (sorted : names.Pairwise (· < ·))
    (segments : ∀ name ∈ names, isSegment name = true)
    (exactly : ∀ name, isSegment name = true → (name ∈ dir ↔ name ∈ names)) :
    segmentNames dir = names := by
  refine eq_of_sorted (segmentNames_sorted dir) sorted fun name => ?_
  simp only [segmentNames, mem_filter, ExtTreeMap.mem_keys]
  exact ⟨fun ⟨present, segment⟩ => (exactly name segment).mp present,
    fun mem => ⟨(exactly name (segments name mem)).mpr mem, segments name mem⟩⟩

/-! ### File operations -/

variable {Q : Option (Option String) → Dir → List Event → Prop} {bytes : Bytes}

section FileOperations

variable {site : Site} {path : String}

lemma always_touch (ok : Q (some none) dir trace)
    (fails : ∀ cause, oracle.FailsAt site → Q (some (some cause)) dir trace)
    (dies : oracle.DiesAt site → Q none dir trace) :
    Always oracle (touch site) dir trace Q := by
  refine always_op fun outcome answer => ?_
  simp only [append_nil]
  cases outcome with
  | ok => exact ok
  | fail cause done => exact fails cause ⟨cause, done, answer⟩
  | crash done => exact dies ⟨done, answer⟩

lemma always_atomically {effect : Dir → Dir} {events : List Event}
    (ok : Q (some none) (effect dir) (trace ++ events))
    (fails : ∀ cause, oracle.FailsAt site → Q (some (some cause)) dir trace)
    (dies : oracle.DiesAt site → Q none dir trace ∧ Q none (effect dir) (trace ++ events)) :
    Always oracle (atomically site effect events) dir trace Q := by
  refine always_op fun outcome answer => ?_
  cases outcome with
  | ok => exact ok
  | fail cause done =>
    simp only [append_nil]
    exact fails cause ⟨cause, done, answer⟩
  | crash done =>
    have both := dies ⟨done, answer⟩
    by_cases none : done = 0
    · simpa [none, Outcome.reply] using both.1
    · simpa [none, Outcome.reply] using both.2

/-- Changing a file that is there. -/
lemma alter_eq_insert (present : dir[path]? = some bytes) (f : Bytes → Bytes)
    : dir.alter path (Option.map f) = dir.insert path (f bytes) := by
  refine ExtTreeMap.ext_getElem? fun name => ?_
  rw [ExtTreeMap.getElem?_alter, ExtTreeMap.getElem?_insert]
  by_cases same : compare path name = .eq
  · obtain rfl := Std.LawfulEqCmp.eq_of_compare same
    simp [present]
  · simp [same]

/-- An operation that may have changed the directory when it fails. -/
lemma always_change {f : Dir → Dir} (ok : Q (some none) (f dir) trace)
    (fails : ∀ cause dir', oracle.FailsAt site → dir' = dir ∨ dir' = f dir →
      Q (some (some cause)) dir' trace)
    (dies : ∀ dir', oracle.DiesAt site → dir' = dir ∨ dir' = f dir → Q none dir' trace) :
    Always oracle (Io.op site (fun outcome dir => match outcome with
      | .ok => f dir
      | .fail _ done => if done = 0 then dir else f dir
      | .crash done => if done = 0 then dir else f dir) fun _ => []) dir trace Q := by
  refine always_op fun outcome answer => ?_
  simp only [append_nil]
  cases outcome with
  | ok => exact ok
  | fail cause done =>
    refine fails cause _ ⟨cause, done, answer⟩ ?_
    by_cases none : done = 0 <;> simp [none]
  | crash done =>
    refine dies _ ⟨done, answer⟩ ?_
    by_cases none : done = 0 <;> simp [none]

end FileOperations

/-! ### Torn tails -/

/-- A segment file with the lines of some records and perhaps a torn tail. -/
structure Holding (codec : Codec) (path : String) (records : List Record) (file : Option Bytes) :
    Prop where
  segment : isSegment path = true
  storable : ∀ r ∈ records, Storable codec r
  file : ∃ tail, Torn tail ∧ file = some (fileOf codec records ++ tail)

/-- The directory has such a file. -/
abbrev Holds (codec : Codec) (dir : Dir) (path : String) (records : List Record) : Prop :=
  Holding codec path records dir[path]?

/-- Torn tails of segment files were cut, and nothing else was changed. -/
def Trimmed (codec : Codec) (dir dir' : Dir) : Prop :=
  ∀ name, dir'[name]? = dir[name]? ∨
    ∃ records, Holds codec dir name records ∧ dir'[name]? = some (fileOf codec records)

/-- Every segment file consists of whole lines. -/
def Whole (codec : Codec) (dir : Dir) : Prop :=
  ∀ name bytes, isSegment name = true → dir[name]? = some bytes →
    ∃ records, (∀ r ∈ records, Storable codec r) ∧ bytes = fileOf codec records

section Trimming

variable {path name : String} {records : List Record} {dir₁ dir₂ : Dir}

/-- A file holds the records of one list only. -/
lemma Holds.unique (lawful : codec.Lawful) {records' : List Record}
    (holds : Holds codec dir path records) (holds' : Holds codec dir path records') :
    records = records' := by
  obtain ⟨tail, torn, file⟩ := holds.file
  obtain ⟨tail', torn', file'⟩ := holds'.file
  have same := Option.some.inj (file.symm.trans file')
  have parsed := parse_fileOf lawful holds.storable torn
  rw [same, parse_fileOf lawful holds'.storable torn'] at parsed
  exact (congrArg Prod.fst parsed).symm

lemma Holding.of_whole (segment : isSegment path = true)
    (storable : ∀ r ∈ records, Storable codec r) :
    Holding codec path records (some (fileOf codec records)) :=
  ⟨segment, storable, [], torn_nil, by rw [append_nil]⟩

lemma Holds.of_whole (segment : isSegment path = true) (storable : ∀ r ∈ records, Storable codec r)
    (file : dir[path]? = some (fileOf codec records)) : Holds codec dir path records := by
  rw [Holds, file]
  exact .of_whole segment storable

lemma Holds.congr (holds : Holds codec dir path records) (same : dir₁[path]? = dir[path]?) :
    Holds codec dir₁ path records :=
  ⟨holds.segment, holds.storable, by rw [same]; exact holds.file⟩

lemma Trimmed.refl : Trimmed codec dir dir := fun _ => .inl rfl

/-- Trimming leaves each file its records. -/
lemma Trimmed.holds (trimmed : Trimmed codec dir dir₁) (lawful : codec.Lawful)
    (holds : Holds codec dir path records) : Holds codec dir₁ path records := by
  rcases trimmed path with same | ⟨others, held, cut⟩
  · exact holds.congr same
  · obtain rfl := holds.unique lawful held
    exact .of_whole holds.segment holds.storable cut

/-- Trimming gives no file other records. -/
lemma Trimmed.holds_back (trimmed : Trimmed codec dir dir₁) (lawful : codec.Lawful)
    (holds : Holds codec dir₁ path records) : Holds codec dir path records := by
  rcases trimmed path with same | ⟨others, held, cut⟩
  · exact holds.congr same.symm
  · rwa [← (Holds.of_whole held.segment held.storable cut).unique lawful holds]

lemma Trimmed.trans (lawful : codec.Lawful) (first : Trimmed codec dir dir₁)
    (second : Trimmed codec dir₁ dir₂) : Trimmed codec dir dir₂ := by
  intro name
  rcases second name with same | ⟨records, held, cut⟩
  · rw [same]
    exact first name
  · exact .inr ⟨records, first.holds_back lawful held, cut⟩

lemma Trimmed.removed (trimmed : Trimmed codec dir dir₁) (paths : List String) :
    Trimmed codec (removed paths dir) (removed paths dir₁) := by
  intro name
  by_cases gone : name ∈ paths
  · exact .inl (by rw [lookup_removed, lookup_removed, if_pos gone, if_pos gone])
  · rcases trimmed name with same | ⟨records, held, cut⟩
    · exact .inl (by rw [lookup_removed, lookup_removed, if_neg gone, if_neg gone, same])
    · refine .inr ⟨records, held.congr ?_, ?_⟩
      · rw [lookup_removed, if_neg gone]
      · rw [lookup_removed, if_neg gone, cut]

/-- Where no tail is torn, there is nothing to trim. -/
lemma Trimmed.eq_of_whole (trimmed : Trimmed codec dir dir₁) (lawful : codec.Lawful)
    (whole : Whole codec dir) : dir₁ = dir := by
  refine ExtTreeMap.ext_getElem? fun name => ?_
  rcases trimmed name with same | ⟨records, held, cut⟩
  · exact same
  · obtain ⟨tail, torn, file⟩ := held.file
    obtain ⟨others, storable, lines⟩ := whole name _ held.segment file
    rw [lines] at file
    obtain rfl := held.unique lawful (.of_whole held.segment storable file)
    rw [cut, file]

lemma Whole.removed (whole : Whole codec dir) (paths : List String) :
    Whole codec (removed paths dir) := by
  intro name bytes segment present
  rw [lookup_removed] at present
  by_cases gone : name ∈ paths
  · simp [gone] at present
  · rw [if_neg gone] at present
    exact whole name bytes segment present

lemma Trimmed.of_insert (holds : Holds codec dir path records) :
    Trimmed codec dir (dir.insert path (fileOf codec records)) := by
  intro name
  rw [lookup_insert]
  by_cases same : path = name
  · subst same
    exact .inr ⟨records, holds, if_pos rfl⟩
  · exact .inl (if_neg same)

end Trimming

/-! ### Scanning -/

/-- How `scan` ends on a segment file, when its read does not fail: it returns all the
records, or fails, or dies, and the tail may be cut. -/
inductive ScanPost (codec : Codec) (oracle : Oracle Site String) (dir : Dir) (path : String)
    (records : List Record) : Option (Except Fault (Segment × List Record)) → Dir → Prop where
  | done {dir' : Dir} (trimmed : Trimmed codec dir dir') :
      ScanPost codec oracle dir path records
        (some (.ok (summary path records (fileOf codec records).length, records))) dir'
  | failed {dir' : Dir} (fault : Fault) (trimmed : Trimmed codec dir dir') (why : oracle.Fails) :
      ScanPost codec oracle dir path records (some (.error fault)) dir'
  | died {dir' : Dir} (trimmed : Trimmed codec dir dir') (why : oracle.Dies) :
      ScanPost codec oracle dir path records none dir'

lemma always_scan (lawful : codec.Lawful) (reads : ¬ oracle.FailsAt .scanRead) {path : String}
    {records : List Record} (holds : Holds codec dir path records) :
    Always oracle (scan codec path) dir trace fun result dir' trace' =>
      ScanPost codec oracle dir path records result dir' ∧ trace' = trace := by
  obtain ⟨tail, torn, present⟩ := holds.file
  have cutAt : (fileOf codec records ++ tail).take (fileOf codec records).length =
      fileOf codec records := by simp
  have trimmed : Trimmed codec dir (dir.insert path (fileOf codec records)) := .of_insert holds
  unfold scan
  refine always_bind (always_touch ?_ ?_ ?_)
  rotate_left
  · intro cause fails
    exact always_pure ⟨.failed _ .refl ⟨_, fails⟩, rfl⟩
  · intro dies
    exact ⟨.died .refl ⟨_, dies⟩, rfl⟩
  simp only
  refine always_bind (always_look ?_)
  simp only [present]
  refine always_bind (always_attempt fun outcome answer => ?_)
  cases outcome with
  | fail cause done => exact absurd ⟨cause, done, answer⟩ reads
  | crash done => exact ⟨.died .refl ⟨_, done, answer⟩, rfl⟩
  | ok =>
    simp only [Outcome.reply, Option.map_some, parse_fileOf lawful holds.storable torn]
    refine always_bind (always_touch ?_ ?_ ?_)
    · -- The size is known: the tail is cut if there is one.
      by_cases whole : tail = []
      · simp only [whole, append_nil, ne_eq, not_true_eq_false, and_false, if_false]
        exact always_bind (always_pure (always_pure ⟨.done .refl, rfl⟩))
      · have longer : (fileOf codec records ++ tail).length ≠ (fileOf codec records).length := by
          simpa using whole
        simp only [Option.isNone_none, longer, ne_eq, not_false_eq_true, and_self, if_true]
        have either : ∀ dir', dir' = dir ∨
            dir' = dir.alter path (Option.map (take (fileOf codec records).length)) →
              Trimmed codec dir dir' := by
          rintro dir' (rfl | rfl)
          · exact .refl
          · rwa [alter_eq_insert present, cutAt]
        refine always_bind (always_change ?_ ?_ ?_)
        · exact always_pure ⟨.done (either _ (.inr rfl)), rfl⟩
        · intro cause dir' fails cut
          exact always_pure ⟨.failed _ (either dir' cut) ⟨_, fails⟩, rfl⟩
        · intro dir' dies cut
          exact ⟨.died (either dir' cut) ⟨_, dies⟩, rfl⟩
    · intro cause fails
      simp only [Option.isNone_some, Bool.false_eq_true, false_and, if_false]
      exact always_bind (always_pure (always_pure ⟨.done .refl, rfl⟩))
    · intro dies
      exact ⟨.died .refl ⟨_, dies⟩, rfl⟩

end TechStack.Telemetry
