import TechStack.Telemetry.Refinement

/-!
# What the control plane accepts

The Guard builds a batch of the oldest records (`Sender.Flush`), and the control plane
checks it (`Batch.Validate`).  Of a spool that was filled as the collector fills it,
everything the check asks for is known but for what age does: a marker keeps the time of
the oldest and of the newest data it stands for, so it is refused once its end, or its
span, passes the age that the check allows.

* `Fit` — what is known of every record of such a spool.
* `validate_fit` — of such records the check asks only `Acceptable`.
* `peeked_batch` — the bounds of `Peek` keep a batch within the bounds of the check.
-/

namespace TechStack.Telemetry

open List Option Lib Lines

variable {codec : Codec} {oracle : Oracle Site String} {dir : Dir} {s : Spool} {now : ℤ}
  {record : Record} {records : List Record}

/-! ### Records as they are collected -/

/-- What is known of a record: data has a time that is not in the future and few samples,
all on the contract; a marker stands for such data. -/
structure Fit (now : ℤ) (record : Record) : Prop where
  time : record.at ≠ 0 ∧ record.at ≤ now
  samples : record.samples.length ≤ maxSamplesPerRecord
  admitted : ∀ sample ∈ record.samples, admitSample sample = true
  marker : ∀ gap, record.gap = some gap → record.samples = [] ∧ record.driveHealth = none ∧
    record.at = gap.toTime ∧ gap.fromTime ≠ 0 ∧ gap.fromTime ≤ gap.toTime ∧
    gapReasonValue gap.reason = true

lemma Fit.part (fit : Fit now record) (reason : GapReason) :
    (record.part reason).fromTime ≠ 0 ∧ (record.part reason).toTime ≠ 0 ∧
      (record.part reason).fromTime ≤ (record.part reason).toTime ∧
      (record.part reason).toTime ≤ now := by
  simp only [Record.part, mergeGap]
  cases marked : record.gap with
  | none => exact ⟨fit.time.1, fit.time.1, le_rfl, fit.time.2⟩
  | some gap =>
    obtain ⟨-, -, ends, starts, ordered, -⟩ := fit.marker gap marked
    exact ⟨starts, ends ▸ fit.time.1, ordered, ends ▸ fit.time.2⟩

/-- A marker for such records is one of them. -/
lemma fit_marker {gap : Gap} {reason : GapReason} (fits : ∀ r ∈ records, Fit now r)
    (some_record : records ≠ []) (known : reason = .spoolBudget ∨ reason = .rejected)
    (widened : widen reason none records = some gap) : Fit now (marker gap) := by
  obtain ⟨_, same, spans, given⟩ := widen_spans reason some_record
  cases widened.symm.trans same
  obtain ⟨p, mem, earliest⟩ := spans.fromTime.1
  obtain ⟨r, listed, rfl⟩ := mem_map.mp mem
  obtain ⟨p', mem', latest⟩ := spans.toTime.1
  obtain ⟨r', listed', rfl⟩ := mem_map.mp mem'
  obtain ⟨starts, -, ordered, -⟩ := (fits r listed).part reason
  obtain ⟨-, ends, -, past⟩ := (fits r' listed').part reason
  rw [latest] at ends past
  refine ⟨⟨ends, past⟩, Nat.zero_le _, by simp [marker], ?_⟩
  intro g marked
  obtain rfl : gap = g := Option.some.inj marked
  refine ⟨rfl, rfl, rfl, earliest ▸ starts, ?_, ?_⟩
  · calc gap.fromTime = (r.part reason).fromTime := earliest.symm
      _ ≤ (r.part reason).toTime := ordered
      _ ≤ gap.toTime := spans.toTime.2 ⟨_, mem, rfl⟩
  · rw [given]
    rcases known with rfl | rfl <;> decide

/-- The steps of a spool that is filled as the collector fills it: no fault, and what is
appended has a time that is neither zero nor after `now`, and at most 600 samples, all
on the contract. -/
def Collects (now : ℤ) (sys : System) (label : Label) : Prop :=
  FaultFree sys label ∧ ∀ atTime samples drives oracle,
    label = .call (.append atTime samples drives) oracle → atTime ≠ 0 ∧ atTime ≤ now ∧
      samples.length ≤ maxSamplesPerRecord ∧ ∀ sample ∈ samples, admitSample sample = true

lemma Effect.fit {budget : ℕ} {q q' : Queue} {op : Op} {answer : Answer}
    (effect : Effect codec budget q op answer q')
    (collected : ∀ atTime samples drives, op = .append atTime samples drives →
      atTime ≠ 0 ∧ atTime ≤ now ∧ samples.length ≤ maxSamplesPerRecord ∧
        ∀ sample ∈ samples, admitSample sample = true)
    (known : ∀ sequence reason, op = .discard sequence reason →
      reason = .spoolBudget ∨ reason = .rejected)
    (fits : ∀ r ∈ q.records, Fit now r) : ∀ r ∈ q'.records, Fit now r := by
  have next : ∀ {atTime samples drives}, op = .append atTime samples drives →
      ∀ r ∈ q.records ++ [q.next atTime samples drives], Fit now r := by
    intro atTime samples drives same
    obtain ⟨time, past, few, admitted⟩ := collected atTime samples drives same
    exact forall_mem_snoc fits ⟨⟨time, past⟩, few, admitted, by simp [Queue.next]⟩
  cases effect with
  | refused fault why => exact fits
  | peeked => exact fits
  | untouched none_up_to => exact fits
  | appended => exact next rfl
  | enforced front back split some_record rest exceeds widened =>
    have all : ∀ r ∈ front ++ back, Fit now r := split ▸ next rfl
    exact forall_mem_cons.mpr
      ⟨fit_marker (fun r mem => all r (mem_append_left _ mem)) some_record (.inl rfl)
        widened, fun r mem => all r (mem_append_right _ mem)⟩
  | acked => exact fun r mem => fits r (mem_filter.mp mem).1
  | discarded some_record widened =>
    exact forall_mem_cons.mpr
      ⟨fit_marker (fun r mem => fits r (mem_filter.mp mem).1) some_record
        (known _ _ rfl) widened, fun r mem => fits r (mem_filter.mp mem).1⟩

/-! ### The check -/

/-- What age can still do to a record, and what is asked of drive observations. -/
structure Acceptable (validDrives : Bytes → ℤ → Bool) (now : ℤ) (record : Record) : Prop where
  young : now - record.at ≤ maxRecordAge
  drives : ∀ drives ∈ record.driveHealth, validDrives drives now = true
  span : ∀ gap ∈ record.gap, gap.toTime - gap.fromTime ≤ maxRecordAge

section Check

variable {validDrives : Bytes → ℤ → Bool}

lemma validateRecord_fit {last : ℕ} (fit : Fit now record) (above : last < record.sequence)
    (range : ∀ gap, record.gap = some gap → gap.fromSequence ≤ gap.toSequence) :
    validateRecord validDrives now last record = .ok () ↔ Acceptable validDrives now record := by
  have skew : (0 : ℤ) ≤ maxClockSkew := by decide
  have past : ¬ record.at > now + maxClockSkew := by have := fit.time.2; omega
  have time : (record.at = 0 ∨ record.at > now + maxClockSkew ∨ now - record.at > maxRecordAge) ↔
      ¬ now - record.at ≤ maxRecordAge := by
    simp only [fit.time.1, past, false_or, not_le]
  have drives : (record.driveHealth.any fun drives => !validDrives drives now) = true ↔
      ¬ ∀ drives ∈ record.driveHealth, validDrives drives now = true := by
    cases record.driveHealth <;> simp
  have gaps : record.gap.any (malformedGap record) = true ↔
      ¬ ∀ gap ∈ record.gap, gap.toTime - gap.fromTime ≤ maxRecordAge := by
    cases marked : record.gap with
    | none => simp
    | some gap =>
      obtain ⟨blank, bare, -, starts, ordered, reason⟩ := fit.marker gap marked
      have wide : maxRecordAge < gap.toTime - gap.fromTime ↔
          ¬ gap.toTime - gap.fromTime ≤ maxRecordAge := not_le.symm
      simp only [any_some, malformedGap, blank, bare, reason, ne_eq, not_true_eq_false,
        decide_false, isSome_none, Bool.not_true, Bool.or_self, Bool.false_or, starts,
        not_lt.mpr ordered, not_lt.mpr (range gap marked), gt_iff_lt, decide_eq_true_eq, wide,
        mem_def, Option.some.injEq, forall_eq']
  simp only [validateRecord, if_neg (not_le.mpr above), time, if_neg (not_lt.mpr fit.samples), drives,
    gaps]
  constructor
  · intro accepted
    split_ifs at accepted with old invalid wide
    exact ⟨old, invalid, wide⟩
  · intro acceptable
    rw [if_neg (not_not.mpr acceptable.young), if_neg (not_not.mpr acceptable.drives),
      if_neg (not_not.mpr acceptable.span)]

/-- The loop of the check over records in order. -/
lemma validateRecords_fit {last : ℕ} (ordered : Ordered records)
    (above : ∀ r ∈ records, last < r.sequence) (fits : ∀ r ∈ records, Fit now r) :
    (∃ total, validateRecords validDrives now last records = .ok total) ↔
      ∀ r ∈ records, Acceptable validDrives now r := by
  induction records generalizing last with
  | nil => simp [validateRecords]
  | cons r rest ih =>
    obtain ⟨before, _⟩ := pairwise_cons.mp ordered.sequences
    have tail : Ordered rest := ordered.sublist (sublist_cons_self r rest)
    have later := ih tail before fun r' mem => fits r' (.tail _ mem)
    have first : validateRecord validDrives now last r = .ok () ↔ Acceptable validDrives now r :=
      validateRecord_fit (fits r (.head _)) (above r (.head _)) fun gap marked => by
        obtain ⟨starts, ends⟩ := ordered.markers r (.head _) gap marked
        omega
    rw [forall_mem_cons, ← later, ← first]
    simp only [validateRecords]
    rcases validateRecord validDrives now last r with err | ⟨⟩
    · simp [bind, Except.bind]
    · rcases validateRecords validDrives now r.sequence rest with err | total
      · simp [bind, Except.bind]
      · simp [bind, Except.bind, pure, Except.pure]

/-- The number of samples that the loop counts. -/
lemma total_of_validateRecords {last total : ℕ}
    (accepted : validateRecords validDrives now last records = .ok total) :
    total = (records.map fun r => r.samples.length).sum := by
  induction records generalizing last total with
  | nil => exact (Except.ok.inj accepted).symm
  | cons r rest ih =>
    simp only [validateRecords] at accepted
    rcases checked : validateRecord validDrives now last r with err | ⟨⟩
    · simp [checked, bind, Except.bind] at accepted
    · rcases counted : validateRecords validDrives now r.sequence rest with err | count
      · simp [checked, counted, bind, Except.bind] at accepted
      · simp only [checked, counted, bind, Except.bind, pure, Except.pure, Except.ok.injEq]
          at accepted
        rw [← accepted, ih counted, map_cons, sum_cons]

end Check

/-! ### The batch -/

/-- What `Peek` may return. -/
def Bounded (codec : Codec) (maxRecords maxBytes : ℕ) (out : List Record) : Prop :=
  out.length ≤ maxRecords ∧ ((fileOf codec out).length ≤ maxBytes ∨ out.length ≤ 1)

/-- `takeRecords` takes the first of the records, within its bounds. -/
lemma takeRecords_bounded (maxRecords maxBytes : ℕ) {out : List Record}
    (storable : ∀ r ∈ records, Storable codec r) (bounded : Bounded codec maxRecords maxBytes out) :
    ∃ full taken, takeRecords codec maxRecords maxBytes records out (fileOf codec out).length =
        .ok (full, out ++ taken, (fileOf codec (out ++ taken)).length) ∧
      taken <+: records ∧ Bounded codec maxRecords maxBytes (out ++ taken) := by
  induction records generalizing out with
  | nil => exact ⟨false, [], by simp [takeRecords], nil_prefix, by simpa using bounded⟩
  | cons r rest ih =>
    obtain ⟨body, marshalled⟩ := (storable r (.head _)).marshals
    have size : (fileOf codec out).length + (body.length + 1) =
        (fileOf codec (out ++ [r])).length := by
      simp [encodeLine, marshalled]
    simp only [takeRecords, marshalled]
    split_ifs with full
    · exact ⟨true, [], by simp, nil_prefix, by simpa using bounded⟩
    · rw [not_or] at full
      have more : Bounded codec maxRecords maxBytes (out ++ [r]) := by
        refine ⟨by simpa using full.1, ?_⟩
        by_cases empty : out = []
        · exact .inr (by simp [empty])
        · exact .inl (by rw [← size]; exact not_lt.mp fun heavy => full.2 ⟨empty, heavy⟩)
      rw [size]
      obtain ⟨full', taken, took, part, bounded'⟩ :=
        ih (fun r' mem => storable r' (.tail _ mem)) more
      refine ⟨full', r :: taken, ?_, cons_prefix_cons.mpr ⟨rfl, part⟩, ?_⟩
      · rw [took, append_assoc, singleton_append]
      · rwa [append_assoc, singleton_append] at bounded'

/-- `Peek` returns the oldest records, within its bounds. -/
lemma peeked_bounded (maxRecords maxBytes : ℕ) (storable : ∀ r ∈ records, Storable codec r) :
    ∃ taken, peeked codec maxRecords maxBytes records [] 0 = .ok taken ∧ taken <+: records ∧
      Bounded codec maxRecords maxBytes taken := by
  obtain ⟨full, taken, took, part, bounded⟩ := takeRecords_bounded maxRecords maxBytes storable
    (show Bounded codec maxRecords maxBytes [] from ⟨Nat.zero_le _, .inr (Nat.zero_le _)⟩)
  refine ⟨taken, ?_, part, bounded⟩
  have answer : takeRecords codec maxRecords maxBytes records [] 0 = .ok (full, taken, _) := took
  rw [peeked, answer]
  rfl

/-- `MaxBatchBytes / 4`. -/
def flushBytes : ℕ := maxBatchBytes / 4

/-- The batch that `Sender.Flush` builds of what it has peeked. -/
def batchOf (s : Spool) (records : List Record) : Batch := ⟨batchSchema, s.epoch, records⟩

lemma sum_samples_le (lawful : codec.Lawful) (storable : ∀ r ∈ records, Storable codec r)
    (fits : ∀ r ∈ records, Fit now r) :
    59 * (records.map fun r => r.samples.length).sum ≤ (fileOf codec records).length := by
  induction records with
  | nil => simp
  | cons r rest ih =>
    obtain ⟨body, marshalled⟩ := (storable r (.head _)).marshals
    have own := lawful.samples r body marshalled (fits r (.head _)).admitted
    have later := ih (fun r' mem => storable r' (.tail _ mem))
      fun r' mem => fits r' (.tail _ mem)
    have length : (fileOf codec (r :: rest)).length =
        body.length + 1 + (fileOf codec rest).length := by
      simp only [image_cons, length_append, encodeLine, marshalled, getD_some,
        length_singleton]
    rw [map_cons, sum_cons, length]
    omega

/-- The samples of a peeked batch are within the bound of the check. -/
lemma Bounded.samples (lawful : codec.Lawful) (storable : ∀ r ∈ records, Storable codec r)
    (fits : ∀ r ∈ records, Fit now r)
    (bounded : Bounded codec maxRecordsPerBatch flushBytes records) :
    (records.map fun r => r.samples.length).sum ≤ maxSamplesPerBatch := by
  rcases bounded.2 with light | single
  · have weight := sum_samples_le lawful storable fits
    simp only [flushBytes, maxBatchBytes] at light
    simp only [maxSamplesPerBatch]
    omega
  · match records, single with
    | [], _ => simp [maxSamplesPerBatch]
    | [r], _ =>
      have few := (fits r (.head _)).samples
      simp only [maxSamplesPerRecord] at few
      simp only [map_cons, map_nil, sum_cons, sum_nil, maxSamplesPerBatch]
      omega

/-- The epoch of a spool is no white space. -/
lemma Represents.trimSpace_epoch {chunks : List (List Record)}
    (represents : Represents codec dir s chunks) : trimSpace s.epoch = s.epoch := by
  obtain ⟨random, drawn⟩ := represents.epoch
  have digits : ∀ n < 16, isSpace (hexDigit n) = false := by decide
  refine trimSpace_eq_self fun c mem => ?_
  rw [drawn, hexEncode, String.toList_ofList, mem_flatMap] at mem
  obtain ⟨b, -, listed⟩ := mem
  have high : b.toNat / 16 < 16 := by
    have := b.toNat_lt
    omega
  rcases mem_cons.mp listed with rfl | low
  · exact digits _ high
  · rw [mem_singleton.mp low]
    exact digits _ (Nat.mod_lt _ (by norm_num))

/-- Of a peeked batch the check asks no more than its loop does. -/
lemma validate_batchOf {chunks : List (List Record)} {validDrives : Bytes → ℤ → Bool}
    (represents : Represents codec dir s chunks) (lawful : codec.Lawful)
    (storable : ∀ r ∈ records, Storable codec r) (fits : ∀ r ∈ records, Fit now r)
    (bounded : Bounded codec maxRecordsPerBatch flushBytes records) (waiting : records ≠ []) :
    (batchOf s records).validate validDrives now = .ok () ↔
      ∃ total, validateRecords validDrives now 0 records = .ok total := by
  have size := represents.epoch_size
  have schema : ¬ (batchOf s records).schemaVersion ≠ batchSchema := fun other => other rfl
  have epoch : ¬ (trimSpace (batchOf s records).sourceEpoch = "" ∨
      (trimSpace (batchOf s records).sourceEpoch).utf8ByteSize > 64) := by
    change ¬ (trimSpace s.epoch = "" ∨ (trimSpace s.epoch).utf8ByteSize > 64)
    rw [represents.trimSpace_epoch]
    rintro (none | long)
    · rw [none] at size
      exact absurd size (by decide)
    · omega
  have count : ¬ ((batchOf s records).records = [] ∨
      (batchOf s records).records.length > maxRecordsPerBatch) := by
    rintro (none | many)
    · exact waiting none
    · exact absurd bounded.1 (not_le.mpr many)
  rw [Batch.validate, if_neg schema, if_neg epoch, if_neg count, batchOf]
  rcases counted : validateRecords validDrives now 0 records with err | total
  · simp
  · have few : ¬ total > maxSamplesPerBatch := by
      rw [total_of_validateRecords counted]
      exact not_lt.mpr (bounded.samples lawful storable fits)
    simp [few]

/-- **What is accepted.**  A batch that is built of a spool filled as the collector fills
it, with all its data younger than the record age, passes the check if and only if no
marker in it ended, or spans, more than the record age, and its drive observations are
valid. -/
theorem batch_accepted_iff (lawful : codec.Lawful) {validDrives : Bytes → ℤ → Bool} {sys : System}
    {out : List Record} (reached : (spoolLife codec).Reaches (Collects now) sys)
    (isOpen : sys.spool = some s) (faultless : oracle.Faultless)
    (peeks : ((peek codec s maxRecordsPerBatch flushBytes).run oracle sys.dir []).1 =
      some (.ok out))
    (waiting : out ≠ []) (young : ∀ r ∈ out, r.gap = none → now - r.at ≤ maxRecordAge) :
    (batchOf s out).validate validDrives now = .ok () ↔
      ∀ r ∈ out, (∀ gap ∈ r.gap, now - gap.toTime ≤ maxRecordAge ∧
          gap.toTime - gap.fromTime ≤ maxRecordAge) ∧
        ∀ drives ∈ r.driveHealth, validDrives drives now = true := by
  have settled : Settled codec (fun q => ∀ r ∈ q.records, Fit now r) sys := by
    refine settled_of_reaches lawful ?_ (by simp) (fun _ _ collects => collects.1) reached
    intro sys s op oracle q answer q' isOpen collects ordered effect fits
    refine effect.fit (fun atTime samples drives same => ?_) (fun sequence reason same => ?_) fits
    · exact collects.2 atTime samples drives oracle (same ▸ rfl)
    · have admissible := collects.1.2 s isOpen
      rwa [same] at admissible
  obtain ⟨chunks, represents, fits⟩ := settled.of_open isOpen
  have ran : Io.Always oracle (peek codec s maxRecordsPerBatch flushBytes) sys.dir [] _ :=
    always_peek_represented lawful faultless represents maxRecordsPerBatch flushBytes
  -- What was peeked are the oldest records.
  obtain ⟨taken, took, part, bounded⟩ :=
    peeked_bounded maxRecordsPerBatch flushBytes represents.chunked.storable
  obtain rfl : out = taken := by
    have answer := peeks.symm.trans ran.run.1
    rw [took] at answer
    exact Except.ok.inj (Option.some.inj answer)
  have ordered : Ordered out := represents.chunked.ordered.sublist part.sublist
  have storable : ∀ r ∈ out, Storable codec r :=
    fun r member => represents.chunked.storable r (part.subset member)
  have fit : ∀ r ∈ out, Fit now r := fun r member => fits r (part.subset member)
  have checked : (∃ total, validateRecords validDrives now 0 out = .ok total) ↔
      ∀ r ∈ out, Acceptable validDrives now r :=
    validateRecords_fit ordered (fun r member => (storable r member).positive) fit
  rw [validate_batchOf represents lawful storable fit bounded waiting, checked]
  refine forall₂_congr fun r member => ?_
  constructor
  · intro acceptable
    refine ⟨fun gap marked => ⟨?_, acceptable.span gap marked⟩, acceptable.drives⟩
    obtain ⟨-, -, ends, -⟩ := (fit r member).marker gap marked
    exact ends ▸ acceptable.young
  · rintro ⟨aged, drives⟩
    refine ⟨?_, drives, fun gap marked => (aged gap marked).2⟩
    cases marked : r.gap with
    | none => exact young r member marked
    | some gap =>
      obtain ⟨-, -, ends, -⟩ := (fit r member).marker gap marked
      exact ends ▸ (aged gap marked).1

/-! ### Runs -/

/-- What `Flush` sends of an open spool, and what the check says of it. -/
def System.flush (codec : Codec) (validDrives : Bytes → ℤ → Bool) (now : ℤ) (sys : System) :
    Option (Spool × List Record × Except Invalid Unit) :=
  sys.spool.bind fun s =>
    match ((peek codec s maxRecordsPerBatch flushBytes).run calm sys.dir []).1 with
    | some (.ok out) => some (s, out, (batchOf s out).validate validDrives now)
    | _ => none

lemma System.flush_eq_some {validDrives : Bytes → ℤ → Bool} {sys : System} {out : List Record}
    {answer : Except Invalid Unit}
    (flushed : sys.flush codec validDrives now = some (s, out, answer)) : sys.spool = some s ∧
      ((peek codec s maxRecordsPerBatch flushBytes).run calm sys.dir []).1 = some (.ok out) ∧
      (batchOf s out).validate validDrives now = answer := by
  obtain ⟨s', isOpen, answered⟩ := bind_eq_some_iff.mp flushed
  split at answered
  · rename_i out' peeks
    obtain ⟨rfl, rfl, checked⟩ := (by simpa using answered : s' = s ∧ out' = out ∧ _)
    exact ⟨isOpen, peeks, checked⟩
  · cases answered

/-- Every collection of drive observations is valid. -/
def anyDrives : Bytes → ℤ → Bool := fun _ _ => true

lemma append_collects {sys : System} {atTime : ℤ} {samples : List Sample}
    (time : atTime ≠ 0 ∧ atTime ≤ now)
    (few : samples.length ≤ maxSamplesPerRecord ∧ ∀ sample ∈ samples, admitSample sample = true)
    (room : hasRoom sys (.call (.append atTime samples none) calm) = true) :
    Collects now sys (.call (.append atTime samples none) calm) := by
  refine ⟨append_faultFree room, ?_⟩
  rintro _ _ _ _ ⟨⟩
  exact ⟨time.1, time.2, few.1, few.2⟩

/-- A day, in nanoseconds. -/
def day : ℤ := 24 * 3600 * 1000000000

/-- A record is collected with a sample. -/
def collect (atTime : ℤ) : Label := .call (.append atTime [Columns.uptime] none) calm

lemma collect_collects {sys : System} {atTime : ℤ} (time : atTime ≠ 0 ∧ atTime ≤ now)
    (room : hasRoom sys (collect atTime) = true) : Collects now sys (collect atTime) := by
  have one : [Columns.uptime].length ≤ maxSamplesPerRecord ∧
      ∀ sample ∈ [Columns.uptime], admitSample sample = true := by decide +kernel
  exact append_collects time one room

lemma late_collects {sys : System} (room : hasRoom sys (collect (17 * day)) = true) :
    Collects (17 * day) sys (collect (17 * day)) :=
  collect_collects (by decide) room

/-- A record is collected, then for fifteen days nothing; what is collected after that
pushes it out, and it is replaced by a marker.  A line of data has 124 bytes. -/
def outage : List Label :=
  .open_ (complete 600 130) (fun _ => 7) calm :: collect day :: .replicate 4 (collect (17 * day))

/-- The refused batch is discarded, and something new is collected. -/
def resumed : List Label :=
  outage ++ [.call (.discard 5 .rejected) calm, collect (17 * day)]

/-- The codec that knows the records of these runs. -/
def outageCodec : Codec :=
  json ([⟨1, day, [Columns.uptime], none, none⟩, marker ⟨day, day, 1, 1, .spoolBudget⟩,
    marker ⟨day, 17 * day, 1, 5, .rejected⟩] ++
    (range 6).map fun n => ⟨n + 1, 17 * day, [Columns.uptime], none, none⟩)

lemma resumed_collects : ∀ label ∈ resumed, ∀ sys, hasRoom sys label = true →
    Collects (17 * day) sys label := by
  simp only [resumed, outage, cons_append, replicate_succ, replicate_zero, nil_append,
    forall_mem_cons, not_mem_nil, false_imp_iff, implies_true, and_true]
  exact ⟨fun _ _ => ⟨calm_faultless, by rintro _ _ _ _ ⟨⟩⟩,
    fun _ => collect_collects (by decide), fun _ => late_collects,
    fun _ => late_collects, fun _ => late_collects, fun _ => late_collects,
    fun _ _ => ⟨⟨calm_faultless, fun _ _ => .inr rfl⟩, by rintro _ _ _ _ ⟨⟩⟩,
    fun _ => late_collects⟩

/-- A state that a run reaches in which a batch of young data is refused. -/
def Refuses (codec : Codec) (now : ℤ) (sys : System) : Prop :=
  (spoolLife codec).Reaches (Collects now) sys ∧ ∃ s out, sys.spool = some s ∧
    ((peek codec s maxRecordsPerBatch flushBytes).run calm sys.dir []).1 = some (.ok out) ∧
    out ≠ [] ∧ (∀ r ∈ out, r.gap = none → now - r.at ≤ maxRecordAge) ∧
    (batchOf s out).validate anyDrives now ≠ .ok ()

/-- The same, evaluated. -/
def System.refuses (codec : Codec) (now : ℤ) (sys : System) : Bool :=
  match sys.flush codec anyDrives now with
  | some (_, out, .error _) => out ≠ [] ∧ ∀ r ∈ out, r.gap.isSome ∨ now - r.at ≤ maxRecordAge
  | _ => false

lemma refuses_of_acts (codec : Codec) {labels : List Label}
    (collects : ∀ label ∈ labels, ∀ sys, hasRoom sys label = true → Collects now sys label)
    (evaluated : (System.start.acts codec hasRoom labels).any (System.refuses codec now) = true) :
    ∃ sys, System.start.acts codec hasRoom labels = some sys ∧ Refuses codec now sys := by
  rcases acted : System.start.acts codec hasRoom labels with _ | sys
  · simp [acted] at evaluated
  refine ⟨sys, rfl, System.reaches_of_acts collects acted, ?_⟩
  simp only [acted, any_some, System.refuses] at evaluated
  rcases flushed : sys.flush codec anyDrives now with _ | ⟨s, out, refusal | accepted⟩
  · simp [flushed] at evaluated
  · simp only [flushed, ne_eq, decide_eq_true_eq] at evaluated
    obtain ⟨isOpen, peeks, refused⟩ := System.flush_eq_some flushed
    refine ⟨s, out, isOpen, peeks, evaluated.1, fun r mem data => ?_, ?_⟩
    · simpa [data] using evaluated.2 r mem
    · rw [refused]
      exact nofun
  · simp [flushed] at evaluated

/-- The batch with the old marker is refused; and when it is discarded for that, so is the
batch with the wider marker that takes its place.  The lines are those of `encoding/json`. -/
theorem old_marker_is_refused : ∃ sys sys',
    System.start.acts outageCodec hasRoom outage = some sys ∧
    System.start.acts outageCodec hasRoom resumed = some sys' ∧
    Refuses outageCodec (17 * day) sys ∧ Refuses outageCodec (17 * day) sys' := by
  have first : ∀ label ∈ outage, ∀ sys, hasRoom sys label = true → Collects (17 * day) sys label :=
    fun label member => resumed_collects label (mem_append_left _ member)
  obtain ⟨sys, acted, refused⟩ := refuses_of_acts outageCodec first (by decide +kernel)
  obtain ⟨sys', acted', refused'⟩ :=
    refuses_of_acts outageCodec resumed_collects (by decide +kernel)
  exact ⟨sys, sys', acted, acted', refused, refused'⟩

/-- A day of collection that fills the spool. -/
def busy : List Label :=
  .open_ (complete 850 210) (fun _ => 7) calm :: collect (16 * day) ::
    .replicate 4 (collect (17 * day))

lemma busy_collects : ∀ label ∈ busy, ∀ sys, hasRoom sys label = true →
    Collects (17 * day) sys label := by
  simp only [busy, replicate_succ, replicate_zero, forall_mem_cons, not_mem_nil, false_imp_iff,
    implies_true, and_true]
  exact ⟨fun _ _ => ⟨calm_faultless, by rintro _ _ _ _ ⟨⟩⟩,
    fun _ => collect_collects (by decide), fun _ => late_collects,
    fun _ => late_collects, fun _ => late_collects, fun _ => late_collects⟩

/-- What is peeked holds a marker, and nothing in it is old. -/
def mild (now : ℤ) (out : List Record) : Bool :=
  (out.any fun r => r.gap.isSome) && out.all fun r =>
    r.driveHealth.isNone && now - r.at ≤ maxRecordAge && r.gap.all fun gap =>
      now - gap.toTime ≤ maxRecordAge && gap.toTime - gap.fromTime ≤ maxRecordAge

/-- The theorem at that run: the batch with the marker is accepted. -/
theorem batch_accepted_iff_busy :
    ∃ sys s out, (spoolLife columns).Reaches (Collects (17 * day)) sys ∧ sys.spool = some s ∧
      ((peek columns s maxRecordsPerBatch flushBytes).run calm sys.dir []).1 = some (.ok out) ∧
      mild (17 * day) out = true ∧ (batchOf s out).validate anyDrives (17 * day) = .ok () := by
  have evaluated : ((System.start.acts columns hasRoom busy).bind fun sys =>
      sys.flush columns anyDrives (17 * day)).any (fun answer => mild (17 * day) answer.2.1) = true := by
    decide +kernel
  rcases acted : System.start.acts columns hasRoom busy with _ | sys
  · simp [acted] at evaluated
  rcases flushed : sys.flush columns anyDrives (17 * day) with _ | ⟨s, out, answer⟩
  · simp [acted, flushed] at evaluated
  simp only [acted, bind_some, flushed, any_some] at evaluated
  obtain ⟨isOpen, peeks, -⟩ := System.flush_eq_some flushed
  have reached := System.reaches_of_acts busy_collects acted
  obtain ⟨marked, all⟩ := Bool.and_eq_true_iff.mp evaluated
  have waiting : out ≠ [] := fun none => by simp [none] at marked
  simp only [List.all_eq_true, Bool.and_eq_true, decide_eq_true_eq, Option.isNone_iff_eq_none]
    at all
  refine ⟨sys, s, out, reached, isOpen, peeks, evaluated,
    (batch_accepted_iff columns_lawful reached isOpen calm_faultless peeks waiting
      fun r member _ => (all r member).1.2).mpr fun r member => ⟨?_, ?_⟩⟩
  · intro gap some_gap
    have old := (all r member).2
    rw [mem_def.mp some_gap] at old
    simpa using old
  · intro drives some_drives
    rw [(all r member).1.1] at some_drives
    cases some_drives

end TechStack.Telemetry
