import TechStack.Journal.Soundness
import TechStack.Journal.Json

/-!
# Crash recovery of the journal format

A log whose records were appended one after the other may be cut anywhere behind
its header.  Opening what is left applies exactly the records that are whole,
cuts off the part of the next one, and takes up the log where the last whole
record ends.
-/

namespace TechStack.Journal

open List Lib Io TornLog

variable {codec : Codec} {o : Options}

/-- Every log file has the header of a journal. -/
lemma headed_image (log : List (Frame codec)) (tail : Bytes) : Headed (image log ++ tail) where
  long := by
    have := headerSize_le_image log
    rw [length_append]
    omega
  magical := by
    rw [image, header, append_assoc, append_assoc, append_assoc,
      take_left' (by rfl)]

/-- A log whose frames fit and whose records apply is replayed by `load`. -/
lemma replays_image {log : List (Frame codec)} (fits : ∀ f ∈ log, f.Fits o) {tail : Bytes}
    (ending : Ending codec o tail) {c : Contents}
    (applied : Contents.applyAll {} (records log) = .ok c) :
    Replays codec o (image log ++ tail) ⟨(image log).length, !tail.isEmpty, c⟩ := by
  have headed := headed_image log tail
  have replayed := replay_image fits ending applied
  have schema : uint32 ((image log ++ tail).drop magic.length) = schemaVersion := by
    rw [image, header, append_assoc, append_assoc, append_assoc,
      drop_left' (by rfl)]
    exact uint32_putUint32_append (by decide) _
  refine { headed with replayed := replayed, recovered := ?_ }
  rw [recovered, if_neg (Nat.not_lt.mpr headed.long), if_neg (not_not.mpr headed.magical), schema,
    if_neg (by decide), replayed]

/-- Opening, without faults, a file that replays. -/
lemma LoadPost.of_faultless {oracle : Oracle Site IoError} (faultless : oracle.Faultless)
    {disk disk' : Disk Name} {inode : ℕ} (named : disk.dir .journalLog = some inode)
    {r : Replayed} (replays : Replays codec o (disk.files inode).data r)
    {trace trace' : List Event} {store : Option Store}
    (post : LoadPost codec o oracle disk trace store disk' trace') :
    ∃ st, store = some st ∧ st.denied = none ∧ st.contents = r.contents ∧
      st.file = some inode ∧ st.size = r.good ∧ st.tornRepaired = r.torn ∧
      (disk'.files inode).data =
        if r.torn then (disk.files inode).data.take r.good else (disk.files inode).data := by
  have notBlank : ∀ {inode' : ℕ}, Started disk disk' inode' → False := by
    intro inode' started
    rcases started.blank with ⟨absent, -⟩ | ⟨named', short⟩
    · rw [named] at absent; cases absent
    · cases named.symm.trans named'
      exact absurd replays.long (Nat.not_le.mpr short)
  cases post with
  | died dies => exact absurd dies (faultless.not_diesAt _)
  | unavailable denied contents fails =>
    exact absurd fails (not_or.mpr ⟨faultless.not_failsAt _, faultless.not_failsAt _⟩)
  | unreadable denied named' refused contents =>
    cases named.symm.trans named'
    cases replays.recovered.symm.trans refused
  | unopened denied named' replays' contents fails =>
    exact absurd fails (faultless.not_failsAt _)
  | starting dies started => exact absurd dies (faultless.not_diesAt _)
  | unstarted denied contents started fails => exact (notBlank started).elim
  | started started file settled => exact (notBlank started).elim
  | repairing denied died named' replays' torn left =>
    cases store with
    | none =>
      obtain ⟨site, dies⟩ := died rfl
      exact absurd dies (faultless.not_diesAt site)
    | some st =>
      exact absurd (denied st rfl).2.2
        (not_or.mpr ⟨faultless.not_failsAt _, faultless.not_failsAt _⟩)
  | @opened inode' schema r' file named' replays' left =>
    cases named.symm.trans named'
    obtain rfl := Except.ok.inj (replays.replayed.symm.trans replays'.replayed)
    refine ⟨_, rfl, rfl, rfl, rfl, rfl, rfl, ?_⟩
    rw [Disk.setFile_files_self]
    rcases left with ⟨whole, rfl⟩ | ⟨torn, rfl⟩
    · rw [whole]; rfl
    · rw [torn]; rfl

/-! ### Cutting a log -/

/-- **The shape of a cut log**: the whole records, and an ending that is empty
exactly if the cut lies between two records. -/
lemma exists_whole {frames : List (Frame codec)} (bounded : ∀ f ∈ frames, f.Bounded o)
    {data : Bytes} (initial : data <+: image frames) (long : headerSize ≤ data.length) :
    ∃ k tail, k ≤ frames.length ∧ data = image (frames.take k) ++ tail ∧ Ending codec o tail ∧
      (k < frames.length → data.length < (image (frames.take (k + 1))).length) := by
  obtain ⟨n, total⟩ : ∃ n, data.length = headerSize + n :=
    ⟨data.length - headerSize, by omega⟩
  obtain ⟨bytes, isBytes⟩ : ∃ bytes, bytes = frames.map Frame.bytes := ⟨_, rfl⟩
  obtain ⟨k, isWhole⟩ : ∃ k, whole bytes n = k := ⟨_, rfl⟩
  have count : bytes.length = frames.length := by rw [isBytes, length_map]
  have bodyTake : (bytes.take k).flatten = body (frames.take k) := by
    rw [isBytes, body, map_take]
  have shape : data = header ++ bytes.flatten.take n := by
    rw [prefix_iff_eq_take.mp initial, image, take_append, length_header,
      take_of_length_le (by rw [length_header]; exact long), total, Nat.add_sub_cancel_left,
      body, isBytes]
  have split := take_flatten bytes n
  have fits := length_whole_le bytes n
  have within := whole_le_length bytes n
  rw [isWhole] at split fits within
  rw [bodyTake] at split fits
  -- Inside the log, what follows the whole records is a part of the next one.
  have next : ∀ more : k < frames.length, bytes.getD k [] = frames[k].bytes ∧
      n - (body (frames.take k)).length < frames[k].bytes.length := by
    intro more
    have here : bytes.getD k [] = frames[k].bytes := by simp [isBytes, more]
    have short := cut_next bytes n (by rw [isWhole, count]; exact more)
    rw [isWhole, bodyTake, here] at short
    exact ⟨here, short⟩
  refine ⟨k, (bytes.getD k []).take (n - (body (frames.take k)).length), by omega, ?_, ?_, ?_⟩
  · rw [shape, image, append_assoc, ← split]
  · rcases Nat.lt_or_ge k frames.length with more | all
    · obtain ⟨here, short⟩ := next more
      rw [here]
      exact Or.inr ⟨frames[k], bounded _ (getElem_mem more), cut_take short⟩
    · have beyond : bytes.getD k [] = [] := by simp [isBytes, all]
      rw [beyond, take_nil]
      exact Or.inl rfl
  · intro more
    obtain ⟨-, short⟩ := next more
    have longer : (image (frames.take (k + 1))).length =
        headerSize + (body (frames.take k)).length + frames[k].bytes.length := by
      rw [take_add_one, getElem?_eq_getElem more, Option.toList_some, image_concat,
        length_append, image, length_append, length_header]
    rw [longer, total]
    omega

/-- **Crash recovery of the journal format.**  Let a log hold any records that
were appended, each within the writer's bound and accepted by `apply`.  Of every
initial part of the file that has the whole header, replay applies exactly the
first `k` records, those that lie inside it; says torn exactly if it ends inside
the next one; and returns the end of the `k`-th as the durable size.  Opening
such a file leaves a store that accepts writes, over a file that ends exactly
where the next record will be written. -/
theorem load_recovers_whole_records (frames : List (Frame codec))
    (bounded : ∀ f ∈ frames, f.Bounded o) {c : Contents}
    (accepted : Contents.applyAll {} (records frames) = .ok c) (data : Bytes)
    (initial : data <+: image frames) (long : headerSize ≤ data.length) :
    ∃ k c', k ≤ frames.length ∧ (image (frames.take k)).length ≤ data.length ∧
      (k < frames.length → data.length < (image (frames.take (k + 1))).length) ∧
      Contents.applyAll {} (records (frames.take k)) = .ok c' ∧
      replay codec o data = .ok
        ⟨(image (frames.take k)).length, decide ((image (frames.take k)).length < data.length), c'⟩ ∧
      ∀ (oracle : Oracle Site IoError) (disk : Disk Name) (inode : ℕ) (trace : List Event),
        oracle.Faultless → disk.dir .journalLog = some inode → (disk.files inode).data = data →
        ∃ st, ((load codec o).run oracle disk trace).1 = some st ∧ st.denied = none ∧
          st.contents = c' ∧ st.file = some inode ∧ st.size = (image (frames.take k)).length ∧
          st.tornRepaired = decide ((image (frames.take k)).length < data.length) ∧
          (((load codec o).run oracle disk trace).2.device.files inode).data =
            image (frames.take k) := by
  obtain ⟨k, tail, within, rfl, ending, more⟩ := exists_whole bounded initial long
  obtain ⟨c', applied⟩ : ∃ c', Contents.applyAll {} (records (frames.take k)) = .ok c' := by
    have := Contents.applyAll_take accepted k
    rwa [records, ← map_take] at this
  have fits : ∀ f ∈ frames.take k, f.Fits o :=
    fun f member => (bounded f (mem_of_mem_take member)).fits
  have torn : (!tail.isEmpty) = decide ((image (frames.take k)).length <
      (image (frames.take k) ++ tail).length) := by
    cases tail <;> simp
  have replays := replays_image fits ending applied
  rw [torn] at replays
  refine ⟨k, c', within, by simp, more, applied, replays.replayed, ?_⟩
  rintro oracle disk inode trace faultless named data
  rw [← data] at replays
  obtain ⟨st, ran, accepts, contents, file, size, repaired, left⟩ :=
    (always_load oracle disk trace).run.of_faultless faultless named replays
  refine ⟨st, ran, accepts, contents, file, size, by rw [repaired, data], left.trans ?_⟩
  rw [data]
  cases tail with
  | nil => simp
  | cons b tail => simp

/-! ### A sample journal

One command in the JSON the source writes, for the witnesses: admitted,
dispatched, completed or refused, and acknowledged on the first of January, and
admitted and dispatched again on the second. -/

namespace Sample

/-- Midnight of 2026-01-01, in nanoseconds since Go's zero time. -/
def jan1 : ℤ := 63902822400 * 10 ^ 9

/-- Midnight of 2026-01-02. -/
def jan2 : ℤ := jan1 + 24 * 3600 * 10 ^ 9

/-- A command whose authority expires after an hour. -/
def command : Intent where
  commandID := "c1"
  tenantID := "t1"
  workerID := "w1"
  operation := "apply"
  mutating := true
  generation := 0
  payloadDigest := "d1"
  authorityExpiresAt := jan1 + 3600 * 10 ^ 9
  contractVersion := "1"
  resourceKey := "r1"
  hint := []

/-- Another command. -/
def other : Intent := { command with commandID := "c2" }

/-- The outcome of a command, terminal or a refusal. -/
def outcome (state : ReportState) : ResultRecord where
  revision := 1
  state := state
  digest := "o1"
  priorDigest := ""
  reason := ""
  resolution := ""
  truncated := false
  sensitiveOmitted := false
  payload := []
  at_ := 0

/-- The instants of the sample, as JSON has them. -/
def time (t : ℤ) : String :=
  if t = jan1 then "2026-01-01T00:00:00Z"
  else if t = jan1 + 3600 * 10 ^ 9 then "2026-01-01T01:00:00Z"
  else if t = jan1 + 4500 * 10 ^ 9 then "2026-01-01T01:15:00Z"
  else if t = jan2 then "2026-01-02T00:00:00Z"
  else "0001-01-01T00:00:00Z"

/-- The records of the sample. -/
def known : List Record :=
  [{ kind := .intent, at_ := jan1, intent := some command },
   { kind := .intent, at_ := jan2, intent := some command },
   { kind := .intent, at_ := 0, intent := some command },
   { kind := .intent, at_ := jan1, intent := some other },
   { kind := .intent, at_ := jan2, intent := some other },
   { kind := .dispatched, id := "c1", at_ := jan1 },
   { kind := .dispatched, id := "c1", at_ := jan2 },
   { kind := .dispatched, id := "c1", at_ := 0 },
   { kind := .result, id := "c1", at_ := jan1, result := some (outcome .terminal) },
   { kind := .result, id := "c1", at_ := jan1, result := some (outcome .rejected) },
   { kind := .ack, id := "c1", at_ := jan1, revision := 1 },
   { kind := .tombstone, id := "c1", at_ := jan1,
     tombstone := some { digest := "d1", expiresAt := jan1 + 4500 * 10 ^ 9 } }]

/-- The codec of the sample. -/
def json : Codec := .ofKnown time known (by decide +kernel)

/-- All bounds are the shipped ones. -/
def options : Options := ⟨0, 0, 0, 0, 0, 0⟩

/-- The frame of the admitted command. -/
def intentFrame : Frame json :=
  .ofPayload { kind := .intent, at_ := jan1, intent := some command } _
    (Codec.ofKnown_marshal (by decide +kernel)) (by decide +kernel)

/-- No fault, and a clock that stands still. -/
def still (t : ℤ) : Oracle Site IoError where
  answer _ _ := .ok
  clock _ := t

/-- Some system calls fail. -/
def faulty (sites : List Site) (t : ℤ) : Oracle Site IoError where
  answer site _ := if site ∈ sites then .fail ⟨false, "input/output error"⟩ 0 else .ok
  clock _ := t

/-- Open the journal and make some calls, each at its time. -/
def script (calls : List (ℤ × Call)) : List Label :=
  .open_ (still 0) :: calls.map fun p => .call p.2 (still p.1)

end Sample

/-- Of the sample's first record, cut in its payload, nothing is applied, and the
next record will be written behind the header. -/
theorem load_recovers_whole_records_cut :
    replay Sample.json Sample.options.withDefaults ((image [Sample.intentFrame]).take 30) =
      .ok ⟨headerSize, true, {}⟩ := by
  have size : (image [Sample.intentFrame]).length = 291 := by decide +kernel
  have length : ((image [Sample.intentFrame]).take 30).length = 30 := by
    rw [length_take, size]
    rfl
  obtain ⟨c, accepted, -⟩ :=
    legal_apply (c := {}) (.intent Sample.jan1 Sample.command (by decide) (by simp))
  rw [← Contents.applyAll_concat_ok (Contents.applyAll_nil {})] at accepted
  obtain ⟨k, c', within, inside, -, applied, replayed, -⟩ :=
    load_recovers_whole_records (o := Sample.options.withDefaults) [Sample.intentFrame]
      (by decide +kernel) accepted ((image [Sample.intentFrame]).take 30)
      ( take_prefix _ _) (by rw [length]; decide)
  obtain rfl : k = 0 := by
    rcases k with _ | k
    · rfl
    · rw [take_of_length_le (by simp), size, length] at inside
      omega
  cases applied
  rw [replayed, length]
  rfl

end TechStack.Journal
