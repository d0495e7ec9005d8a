import TechStack.Telemetry.Columns
import TechStack.Telemetry.Representation

/-!
# The spool in runs without faults

Every call of a represented spool succeeds or is refused before it does anything, leaves
a represented spool, and does to the records what `Effect` says.  From this the summary
of the spool is accurate in every state that a run reaches, and the last sequence never
goes back.

The abstract queue of `Telemetry.Queue` is what a caller may think of: records in order, oldest
first.  `step_post` is the simulation of one step, and a run is one step after the other.
-/

namespace TechStack.Telemetry

open Std (ExtTreeMap)
open List Lib Io Lines Files

variable {codec : Codec} {oracle : Oracle Site String} {dir : Dir} {trace : List Event}
  {s : Spool} {chunk : List Record} {chunks : List (List Record)}

/-! ### Effects -/

/-- The record that an append makes of what it is given. -/
def Queue.next (q : Queue) (atTime : ℤ) (samples : List Sample) (drives : Option Bytes) : Record :=
  { sequence := q.lastSeq + 1, «at» := atTime, samples := samples, driveHealth := drives }

/-- The records up to a sequence. -/
def upTo (sequence : ℕ) (records : List Record) : List Record :=
  records.filter fun r => r.sequence ≤ sequence

/-- The records after a sequence. -/
def after (sequence : ℕ) (records : List Record) : List Record :=
  records.filter fun r => r.sequence > sequence

/-- What a call does to the queue, and what it answers: an append is refused if its record cannot
be stored, and pushes the oldest records out, never all of them, if the queue outgrows the
budget. -/
inductive Effect (codec : Codec) (budget : ℕ) : Queue → Op → Answer → Queue → Prop where
  | refused {q : Queue} {atTime : ℤ} {samples : List Sample} {drives : Option Bytes}
      (fault : Fault) (why : ¬ Storable codec (q.next atTime samples drives)) :
      Effect codec budget q (.append atTime samples drives) (.appended (.error fault)) q
  | appended {q : Queue} {atTime : ℤ} {samples : List Sample} {drives : Option Bytes} :
      Effect codec budget q (.append atTime samples drives)
        (.appended (.ok (q.next atTime samples drives)))
        ⟨q.records ++ [q.next atTime samples drives], q.lastSeq + 1⟩
  | enforced {q : Queue} {atTime : ℤ} {samples : List Sample} {drives : Option Bytes}
      (front back : List Record) {gap : Gap}
      (split : q.records ++ [q.next atTime samples drives] = front ++ back)
      (some_record : front ≠ []) (rest : back ≠ [])
      (exceeds : budget < (fileOf codec (q.records ++ [q.next atTime samples drives])).length)
      (widened : widen .spoolBudget none front = some gap) :
      Effect codec budget q (.append atTime samples drives)
        (.appended (.ok (q.next atTime samples drives))) ⟨marker gap :: back, q.lastSeq + 1⟩
  | peeked {q : Queue} {maxRecords maxBytes : ℕ} :
      Effect codec budget q (.peek maxRecords maxBytes)
        (.peeked (peeked codec maxRecords maxBytes q.records [] 0)) q
  | acked {q : Queue} {sequence : ℕ} :
      Effect codec budget q (.ack sequence) (.acked none) ⟨after sequence q.records, q.lastSeq⟩
  | untouched {q : Queue} {sequence : ℕ} {reason : GapReason}
      (none_up_to : upTo sequence q.records = []) :
      Effect codec budget q (.discard sequence reason) (.acked none) q
  | discarded {q : Queue} {sequence : ℕ} {reason : GapReason} {gap : Gap}
      (some_record : upTo sequence q.records ≠ [])
      (widened : widen reason none (upTo sequence q.records) = some gap) :
      Effect codec budget q (.discard sequence reason) (.acked none)
        ⟨marker gap :: after sequence q.records, q.lastSeq⟩

/-- A call that is followed: an append as long as its sequence is an `int64`, a discard
for one of the two reasons that there are. -/
def Op.Admissible (s : Spool) : Op → Prop
  | .append _ _ _ => s.lastSeq + 1 < 2 ^ 63
  | .discard _ reason => reason = .spoolBudget ∨ reason = .rejected
  | _ => True

/-! ### Sequences of chunks -/

variable {records : List Record}

/-- Records in order are cut in two at a sequence. -/
lemma Ordered.upTo_append_after (ordered : Ordered records) (sequence : ℕ)
    : upTo sequence records ++ after sequence records = records := by
  have sorted := ordered.sequences
  clear ordered
  induction records with
  | nil => rfl
  | cons r rest ih =>
    obtain ⟨above, sorted⟩ := pairwise_cons.mp sorted
    by_cases low : r.sequence ≤ sequence
    · have first : upTo sequence (r :: rest) = r :: upTo sequence rest := by simp [upTo, low]
      have second : after sequence (r :: rest) = after sequence rest := by
        simp [after, not_lt.mpr low]
      rw [first, second, cons_append, ih sorted]
    · -- From here on every record lies above.
      have none_below : upTo sequence (r :: rest) = [] := by
        simp only [upTo, filter_eq_nil_iff, decide_eq_true_eq]
        intro r' mem
        rcases mem_cons.mp mem with rfl | later
        · exact low
        · exact not_le.mpr ((not_le.mp low).trans (above r' later))
      have all_above : after sequence (r :: rest) = r :: rest := by
        simp only [after, filter_eq_self, decide_eq_true_eq]
        intro r' mem
        rcases mem_cons.mp mem with rfl | later
        · exact not_le.mp low
        · exact (not_le.mp low).trans (above r' later)
      rw [none_below, all_above, nil_append]

variable {sequence : ℕ}

lemma after_append {front back : List Record} (below : ∀ r ∈ front, r.sequence ≤ sequence) :
    after sequence (front ++ back) = after sequence back := by
  have none_above : front.filter (fun r => r.sequence > sequence) = [] := by
    simpa using below
  rw [after, filter_append, none_above, nil_append, after]

lemma after_eq_self (above : ∀ r ∈ records, sequence < r.sequence)
    : after sequence records = records := by
  simpa [after] using above

lemma upTo_eq_nil (above : ∀ r ∈ records, sequence < r.sequence) : upTo sequence records = [] := by
  simpa [upTo] using above

/-- What a call does to the queue is a number of its steps. -/
lemma Effect.steps {budget : ℕ} {q q' : Queue} {op : Op} {answer : Answer} (ordered : Ordered q.records)
    (effect : Effect codec budget q op answer q') : Relation.ReflTransGen Queue.Step q q' := by
  cases effect with
  | refused fault => exact .refl
  | peeked => exact .refl
  | untouched none_up_to => exact .refl
  | appended => exact .single (.append _ rfl rfl)
  | enforced front back split some_record rest exceeds widened =>
    exact .tail (.single (.append _ rfl rfl)) (.collapse front back _ split some_record widened)
  | acked => exact .single (.release (upTo _ _) _ (ordered.upTo_append_after _).symm)
  | discarded some_record widened =>
    exact .single (.collapse _ _ _ (ordered.upTo_append_after _).symm some_record widened)

lemma Effect.lastSeq_le {budget : ℕ} {q q' : Queue} {op : Op} {answer : Answer} (ordered : Ordered q.records)
    (effect : Effect codec budget q op answer q') : q.lastSeq ≤ q'.lastSeq := by
  refine Relation.ReflTransGen.head_induction_on (effect.steps ordered) le_rfl ?_
  intro a b step _ later
  exact step.lastSeq_le.trans later

variable {lastSeq : ℕ}

/-- The summary of a chunk bounds its records. -/
lemma Chunked.bounds (chunked : Chunked codec chunks lastSeq) (mem : chunk ∈ chunks)
    {r : Record} (listed : r ∈ chunk) :
    (cellOf codec chunk).seg.first ≤ r.sequence ∧ r.sequence ≤ (cellOf codec chunk).seg.last := by
  have sorted := (pairwise_flatten.mp chunked.ordered.sequences).1 chunk mem
  constructor
  · obtain ⟨head, rest, rfl⟩ := exists_cons_of_ne_nil (ne_nil_of_mem listed)
    rcases mem_cons.mp listed with rfl | later
    · exact le_rfl
    · exact ((pairwise_cons.mp sorted).1 r later).le
  · obtain ⟨front, last, rfl⟩ :=
      (eq_nil_or_concat' chunk).resolve_left (ne_nil_of_mem listed)
    have ends : (cellOf codec (front ++ [last])).seg.last = last.sequence := by
      simp [cellOf, summary]
    rw [ends]
    rcases mem_append.mp listed with older | same
    · exact ((pairwise_append.mp sorted).2.2 r older last (by simp)).le
    · exact (congrArg Record.sequence (mem_singleton.mp same)).le

/-- The first sequence of the oldest chunk bounds all records. -/
lemma Chunked.head_le {rest : List (List Record)}
    (chunked : Chunked codec (chunk :: rest) lastSeq) {r : Record}
    (mem : r ∈ (chunk :: rest).flatten) : (cellOf codec chunk).seg.first ≤ r.sequence := by
  rcases mem_append.mp (flatten_cons ▸ mem) with inside | later
  · exact (chunked.bounds (.head _) inside).1
  · obtain ⟨head, listed, first⟩ := firstOf_mem (chunked.nonempty chunk (.head _))
    have less := (pairwise_append.mp (flatten_cons ▸ chunked.ordered.sequences)).2.2
      head listed r later
    exact first.le.trans less.le

lemma last_mem (codec : Codec) (some_record : chunk ≠ []) :
    ∃ r ∈ chunk, (cellOf codec chunk).seg.last = r.sequence := by
  obtain ⟨front, newest, rfl⟩ := (eq_nil_or_concat' chunk).resolve_left some_record
  exact ⟨newest, by simp, by simp [cellOf, summary]⟩

/-- `Discard` merges exactly the records up to its sequence. -/
lemma Chunked.refusedOf (chunked : Chunked codec chunks lastSeq) (sequence : ℕ) :
    refusedOf sequence (cellsOf codec chunks) = upTo sequence chunks.flatten := by
  induction chunks with
  | nil => rfl
  | cons chunk rest ih =>
    by_cases low : (cellOf codec chunk).seg.first ≤ sequence
    · have tail : Chunked codec ([chunk] ++ rest) lastSeq := chunked
      have later := ih tail.right
      simp only [Telemetry.refusedOf, reached, cellsOf] at later
      simp only [Telemetry.refusedOf, reached, cellsOf, upTo, map_cons,
        takeWhile_cons, low, decide_true, if_true, recordsOf_cons, filter_append,
        flatten_cons]
      rw [later]
      rfl
    · rw [upTo_eq_nil fun r mem => (not_le.mp low).trans_le (chunked.head_le mem)]
      simp [Telemetry.refusedOf, reached, cellsOf, low]

/-! ### Calls without faults -/

lemma cellsOf_eq_append {gone rest : List Cell} (split : cellsOf codec chunks = gone ++ rest) :
    ∃ old new, chunks = old ++ new ∧ gone = cellsOf codec old ∧ rest = cellsOf codec new := by
  obtain ⟨old, new, parts, front, back⟩ := map_eq_append_iff.mp split
  exact ⟨old, new, parts, front.symm, back.symm⟩

/-- The instants of a storable record can be expressed, and so can its part of a marker. -/
lemma Storable.expressible_part (lawful : codec.Lawful) {record : Record}
    (storable : Storable codec record) (reason : GapReason) :
    Expressible (record.part reason).fromTime ∧ Expressible (record.part reason).toTime := by
  obtain ⟨body, marshalled⟩ := storable.marshals
  obtain ⟨own, inner⟩ := lawful.times record body marshalled
  simp only [Record.part, mergeGap]
  cases marked : record.gap with
  | none => exact ⟨own, own⟩
  | some gap => exact inner gap marked

/-- The marker of storable records is storable. -/
lemma storable_marker (lawful : codec.Lawful) {front : List Record} {reason : GapReason}
    {gap : Gap} (known : reason = .spoolBudget ∨ reason = .rejected) (ordered : Ordered front)
    (storable : ∀ r ∈ front, Storable codec r) (bound : ∀ r ∈ front, r.upper < 2 ^ 63)
    (some_record : front ≠ []) (widened : widen reason none front = some gap) :
    Storable codec (marker gap) := by
  obtain ⟨_, same, rfl, spans, ⟨first, older, starts⟩, ⟨last, newer, ends⟩, -⟩ :=
    ordered.gap some_record reason
  cases widened.symm.trans same
  obtain ⟨p, mem, earliest⟩ := spans.fromTime.1
  obtain ⟨r, listed, rfl⟩ := mem_map.mp mem
  obtain ⟨p', mem', latest⟩ := spans.toTime.1
  obtain ⟨r', listed', rfl⟩ := mem_map.mp mem'
  have from_small : gap.fromSequence < 2 ^ 63 :=
    starts ▸ (ordered.sequence_le_upper older).trans_lt (bound first older)
  obtain ⟨body, marshalled, short⟩ := lawful.marker gap
    (earliest ▸ ((storable r listed).expressible_part lawful _).1)
    (latest ▸ ((storable r' listed').expressible_part lawful _).2)
    from_small (ends ▸ bound last newer) known
  refine ⟨⟨body, marshalled⟩, ?_, ?_⟩
  · simpa [encodeLine, marshalled] using short
  · have positive := (storable first older).positive
    rwa [← starts] at positive

section Faultless

variable (lawful : codec.Lawful) (faultless : oracle.Faultless)

include lawful faultless

section

variable (represents : Represents codec dir s chunks)
include represents

lemma always_ack_represented (sequence : ℕ) :
    Always oracle (ackSegments codec sequence s.segs s) dir trace fun result dir' _ =>
      ∃ s' chunks', result = some (s', none) ∧ Represents codec dir' s' chunks' ∧
        chunks'.flatten = after sequence chunks.flatten ∧ s'.lastSeq = s.lastSeq ∧
        s'.epoch = s.epoch := by
  rw [represents.segs]
  refine (always_ackSegments lawful (faultless.not_failsAt _) represents.segs represents.held
    represents.distinct).mono fun result dir' trace' post => ?_
  -- A chunk that went had its last record acknowledged.
  have acked : ∀ {old new : List (List Record)}, chunks = old ++ new →
      Below sequence (cellsOf codec old) →
      after sequence chunks.flatten = after sequence new.flatten := by
    rintro old new rfl below
    rw [flatten_append, after_append]
    intro r mem
    obtain ⟨chunk, inside, listed⟩ := mem_flatten.mp mem
    exact (represents.chunked.bounds (mem_append_left _ inside) listed).2.trans
      (below _ (mem_map_of_mem inside)).2
  cases post with
  | failed gone rest fault split below trimmed why => exact absurd why faultless.never_fails
  | died gone rest split below trimmed why => exact absurd why faultless.never_dies
  | done gone rest split below stops =>
    obtain ⟨old, new, rfl, rfl, rfl⟩ := cellsOf_eq_append split
    rw [paths_cellsOf]
    refine ⟨_, new, rfl, represents.drop, ?_, rfl, rfl⟩
    rw [acked rfl below]
    refine (after_eq_self fun r mem => ?_).symm
    cases new with
    | nil => simp at mem
    | cons chunk rest =>
      exact (stops _ rfl).trans_le (represents.chunked.right.head_le mem)
  | cut gone c rest split below first last trimmed move =>
    obtain ⟨old, new, rfl, rfl, rest'⟩ := cellsOf_eq_append split
    obtain ⟨chunk, new, rfl, rfl, rfl⟩ := map_eq_cons_iff.mp rest'.symm
    rw [paths_cellsOf] at trimmed
    obtain rfl := trimmed.eq_of_whole lawful (represents.whole.removed _)
    have shape := Represents.after_cellOf (represents.chunked.nonempty chunk (by simp)) last
    rw [shape.1] at move ⊢
    have kept := represents.drop.cut last
    cases move with
    | failed cause why => exact absurd why faultless.never_fails
    | lingers other why => exact absurd why (faultless.not_failsAt _)
    | died why | diedBetween other why | diedAfter why => exact absurd why faultless.never_dies
    | moved =>
      refine ⟨_, chunk.filter (fun r => r.sequence > sequence) :: new, rfl, ?_, ?_, rfl, rfl⟩
      · have same : ((s.without (cellsOf codec old) (cellsOf codec (chunk :: new))).cut []
            (cellOf codec chunk)
            (cellOf codec (chunk.filter fun r => r.sequence > sequence))
            (cellsOf codec new) none).1 = (s.cut (cellsOf codec old) (cellOf codec chunk)
            (cellOf codec (chunk.filter fun r => r.sequence > sequence))
            (new.map (cellOf codec)) none).1 := by
          simp [Spool.cut, Spool.without, cellsOf]
        rw [same] at kept
        exact kept
      · rw [acked rfl below, flatten_cons, flatten_cons, after, filter_append]
        congr 1
        refine (after_eq_self fun r mem => ?_).symm
        obtain ⟨newest, listed, ends⟩ :=
          last_mem codec (represents.chunked.nonempty chunk (by simp))
        have sorted := represents.chunked.right.ordered.sequences
        rw [flatten_cons] at sorted
        exact (ends ▸ last).trans ((pairwise_append.mp sorted).2.2 newest listed r mem)

lemma always_place_represented {front : List Record} {reason : GapReason} {gap : Gap}
    (known : reason = .spoolBudget ∨ reason = .rejected)
    (ordered : Ordered (front ++ chunks.flatten)) (storable : ∀ r ∈ front, Storable codec r)
    (below : ∀ r ∈ front, r.upper ≤ s.lastSeq) (some_record : front ≠ [])
    (widened : widen reason none front = some gap) :
    Always oracle (placeGapLocked codec s gap) dir trace fun result dir' _ =>
      ∃ s' chunks', result = some (s', none) ∧ Represents codec dir' s' chunks' ∧
        chunks'.flatten = marker gap :: chunks.flatten ∧ s'.lastSeq = s.lastSeq ∧
        s'.epoch = s.epoch := by
  have storable : Storable codec (marker gap) := storable_marker lawful known ordered.left storable
    (fun r mem => (below r mem).trans_lt represents.chunked.bound) some_record widened
  have below : gap.toSequence ≤ s.lastSeq := by
    obtain ⟨_, same, -, -, -, ⟨last, newer, ends⟩, -⟩ := ordered.left.gap some_record reason
    cases widened.symm.trans same
    exact ends ▸ below last newer
  have ordered := ordered.collapse some_record widened
  refine (always_placeGap storable represents.segs represents.held).mono
    fun result dir' trace' post => ?_
  cases post with
  | failed fault why => exact absurd why faultless.never_fails
  | died why | diedAlone empty why => exact absurd why faultless.never_dies
  | alone empty =>
    obtain rfl := map_eq_nil_iff.mp empty
    exact ⟨_, _, rfl, represents.mark_alone ordered storable below,
      Represents.flatten_marked, rfl, rfl⟩
  | headed c rest tail split torn file move =>
    obtain ⟨chunk, others, rfl, rfl, rfl⟩ := map_eq_cons_iff.mp split
    -- The file of a chunk has no torn tail.
    rw [show (cellOf codec chunk).seg.path = chunkName chunk from rfl,
      represents.stored.file (.head _)] at file
    have clean : tail = [] := by simpa [cellOf] using file
    rw [clean, append_nil] at move
    cases move with
    | failed cause why => exact absurd why faultless.never_fails
    | lingers other why => exact absurd why (faultless.not_failsAt _)
    | died why | diedBetween other why | diedAfter why => exact absurd why faultless.never_dies
    | moved =>
      exact ⟨_, _, rfl, represents.mark_head ordered storable below,
        Represents.flatten_marked, rfl, rfl⟩

lemma always_enforce_represented :
    Always oracle (enforceBudgetLocked codec s) dir trace fun result dir' _ =>
      ∃ s' chunks', result = some (s', none) ∧ Represents codec dir' s' chunks' ∧
        s'.lastSeq = s.lastSeq ∧ s'.epoch = s.epoch ∧ (chunks'.flatten = chunks.flatten ∨
          ∃ front back gap, chunks.flatten = front ++ back ∧ front ≠ [] ∧ back ≠ [] ∧
            s.cfg.maxBytes < (fileOf codec chunks.flatten).length ∧
            widen .spoolBudget none front = some gap ∧
            chunks'.flatten = marker gap :: back) := by
  unfold enforceBudgetLocked
  split_ifs with small
  · exact always_pure ⟨s, chunks, rfl, represents, rfl, rfl, .inl rfl⟩
  rw [represents.segs]
  refine always_bind ((always_dropOldest lawful (faultless.not_failsAt _) represents.segs
    represents.held represents.distinct).mono fun result dir₁ trace₁ post => ?_)
  cases post with
  | failed gone rest fault split trimmed why => exact absurd why faultless.never_fails
  | died gone rest split trimmed why => exact absurd why faultless.never_dies
  | done gone rest split trimmed left =>
    obtain ⟨old, new, rfl, rfl, rfl⟩ := cellsOf_eq_append split
    have exceeds : s.cfg.maxBytes < (fileOf codec (old ++ new).flatten).length := by
      have total := represents.total
      rw [sizes_cellsOf] at total
      omega
    have some_left : new.flatten ≠ [] := fun none => by
      cases new with
      | nil =>
        refine left (fun nothing => small (.inr ?_)) rfl
        rw [represents.segs, nothing]
        exact Nat.two_pos
      | cons chunk rest =>
        exact represents.chunked.nonempty chunk (by simp) (append_eq_nil_iff.mp none).1
    rw [paths_cellsOf] at trimmed
    obtain rfl := trimmed.eq_of_whole lawful (represents.whole.removed _)
    simp only [recordsOf_cellsOf]
    by_cases nothing : old.flatten = []
    · rw [nothing]
      refine always_pure ⟨_, new, rfl, represents.drop, rfl, rfl, .inl ?_⟩
      rw [flatten_append, nothing, nil_append]
    · have split : (old ++ new).flatten = old.flatten ++ new.flatten := flatten_append
      have ordered : Ordered (old.flatten ++ new.flatten) :=
        split ▸ represents.chunked.ordered
      have inside : ∀ r ∈ old.flatten, r ∈ (old ++ new).flatten := fun r mem =>
        split ▸ mem_append_left _ mem
      obtain ⟨gap, widened, -⟩ := ordered.left.gap nothing .spoolBudget
      rw [widened]
      refine (always_place_represented lawful faultless represents.drop (.inl rfl) ordered
        (fun r mem => represents.chunked.storable r (inside r mem))
        (fun r mem => represents.chunked.below r (inside r mem)) nothing widened).mono ?_
      rintro result dir' trace' ⟨s', chunks', rfl, kept, flat, same, epoch⟩
      exact ⟨s', chunks', rfl, kept, same, epoch,
        .inr ⟨old.flatten, new.flatten, gap, split, nothing, some_left, exceeds, widened, flat⟩⟩

lemma always_append_represented (room : s.lastSeq + 1 < 2 ^ 63) (atTime : ℤ)
    (samples : List Sample) (drives : Option Bytes) :
    Always oracle (appendDrives codec s atTime samples drives) dir trace fun result dir' _ =>
      ∃ s' answer chunks', result = some (s', answer) ∧ Represents codec dir' s' chunks' ∧
        s'.epoch = s.epoch ∧ Effect codec s.cfg.maxBytes ⟨chunks.flatten, s.lastSeq⟩
          (.append atTime samples drives) (.appended answer) ⟨chunks'.flatten, s'.lastSeq⟩ := by
  unfold appendDrives
  refine always_bind (always_append.mono ?_)
  rintro result dir₁ trace₁ ⟨post, rfl⟩
  cases post with
  | refused fault why =>
    exact always_pure ⟨s, .error fault, chunks, rfl, represents, rfl, .refused fault why⟩
  | unopened cause storable made why => exact absurd why (faultless.not_failsAt _)
  | broken cause n storable why | unsaved cause storable why =>
    exact absurd why faultless.never_fails
  | diedOpening made why | diedWriting n storable why | diedSaving storable why =>
    exact absurd why faultless.never_dies
  | done storable =>
    obtain ⟨more, flat, grown⟩ := represents.append rfl storable room
    refine always_bind ((always_enforce_represented lawful faultless grown).mono ?_)
    rintro result dir' trace' ⟨s', chunks', rfl, kept, same, epoch, enforced⟩
    refine always_pure ⟨s', _, chunks', rfl, kept, epoch, ?_⟩
    rw [same]
    rcases enforced with unchanged | ⟨front, back, gap, split, some_record, rest, exceeds, widened, marked⟩
    · rw [unchanged, flat]
      exact .appended
    · rw [marked]
      exact .enforced front back (flat ▸ split) some_record rest (flat ▸ exceeds) widened

lemma always_peek_represented (maxRecords maxBytes : ℕ) :
    Always oracle (peek codec s maxRecords maxBytes) dir trace fun result dir' _ =>
      result = some (peeked codec maxRecords maxBytes chunks.flatten [] 0) ∧ dir' = dir := by
  unfold peek
  rw [represents.segs]
  refine (always_peekSegments lawful (faultless.not_failsAt _) represents.held).mono ?_
  rintro result dir' trace' ⟨post, -⟩
  rw [recordsOf_cellsOf] at post
  cases post with
  | done trimmed => exact ⟨rfl, trimmed.eq_of_whole lawful represents.whole⟩
  | failed fault trimmed why => exact absurd why faultless.never_fails
  | died trimmed why => exact absurd why faultless.never_dies

lemma always_discard_represented (sequence : ℕ) {reason : GapReason}
    (known : reason = .spoolBudget ∨ reason = .rejected) :
    Always oracle (discard codec s sequence reason) dir trace fun result dir' _ =>
      ∃ s' chunks', result = some (s', none) ∧ Represents codec dir' s' chunks' ∧
        s'.epoch = s.epoch ∧ Effect codec s.cfg.maxBytes ⟨chunks.flatten, s.lastSeq⟩
          (.discard sequence reason) (.acked none) ⟨chunks'.flatten, s'.lastSeq⟩ := by
  unfold discard
  refine always_bind ?_
  nth_rewrite 1 [represents.segs]
  refine (always_gatherGap lawful (faultless.not_failsAt _) represents.held).mono ?_
  rintro result dir₁ trace₁ ⟨post, -⟩
  rw [represents.chunked.refusedOf] at post
  cases post with
  | failed fault trimmed why => exact absurd why faultless.never_fails
  | died trimmed why => exact absurd why faultless.never_dies
  | done trimmed =>
    obtain rfl := trimmed.eq_of_whole lawful represents.whole
    refine always_bind ((always_ack_represented lawful faultless represents sequence).mono ?_)
    rintro result dir₂ trace₂ ⟨s₂, chunks₂, rfl, kept, flat, same, epoch⟩
    have split := (represents.chunked.ordered.upTo_append_after sequence)
    by_cases nothing : upTo sequence chunks.flatten = []
    · rw [nothing]
      refine always_pure ⟨s₂, chunks₂, rfl, kept, epoch, ?_⟩
      rw [nothing, nil_append] at split
      rw [flat, split, same]
      exact .untouched nothing
    · have ordered : Ordered (upTo sequence chunks.flatten ++ after sequence chunks.flatten) :=
        split.symm ▸ represents.chunked.ordered
      have inside : ∀ r ∈ upTo sequence chunks.flatten, r ∈ chunks.flatten :=
        fun r mem => (mem_filter.mp mem).1
      obtain ⟨gap, widened, -⟩ := ordered.left.gap nothing reason
      rw [widened]
      refine (always_place_represented lawful faultless kept known (flat ▸ ordered)
        (fun r mem => represents.chunked.storable r (inside r mem))
        (fun r mem => same ▸ represents.chunked.below r (inside r mem)) nothing widened).mono ?_
      rintro result dir' trace' ⟨s', chunks', rfl, final, marked, same', epoch'⟩
      refine ⟨s', chunks', rfl, final, epoch'.trans epoch, ?_⟩
      rw [marked, flat, same', same]
      exact .discarded nothing widened

/-- Every call of a represented spool. -/
lemma always_call {op : Op} (admissible : op.Admissible s) :
    Always oracle (call codec s op) dir trace fun result dir' _ =>
      ∃ s' answer chunks', result = some (s', answer) ∧ Represents codec dir' s' chunks' ∧
        s'.epoch = s.epoch ∧
        Effect codec s.cfg.maxBytes ⟨chunks.flatten, s.lastSeq⟩ op answer
          ⟨chunks'.flatten, s'.lastSeq⟩ := by
  cases op with
  | append atTime samples drives =>
    refine always_bind ((always_append_represented lawful faultless represents admissible atTime
      samples drives).mono ?_)
    rintro result dir' trace' ⟨s', answer, chunks', rfl, kept, epoch, effect⟩
    exact always_pure ⟨s', _, chunks', rfl, kept, epoch, effect⟩
  | peek maxRecords maxBytes =>
    refine always_bind ((always_peek_represented lawful faultless represents maxRecords
      maxBytes).mono ?_)
    rintro result dir' trace' ⟨rfl, rfl⟩
    exact always_pure ⟨s, _, chunks, rfl, represents, rfl, .peeked⟩
  | ack sequence =>
    refine always_bind ((always_ack_represented lawful faultless represents sequence).mono ?_)
    rintro result dir' trace' ⟨s', chunks', rfl, kept, flat, same, epoch⟩
    refine always_pure ⟨s', _, chunks', rfl, kept, epoch, ?_⟩
    rw [flat, same]
    exact .acked
  | discard sequence reason =>
    refine always_bind ((always_discard_represented lawful faultless represents sequence
      admissible).mono ?_)
    rintro result dir' trace' ⟨s', chunks', rfl, kept, epoch, effect⟩
    exact always_pure ⟨s', _, chunks', rfl, kept, epoch, effect⟩

/-- Reopening a directory that a spool has left. -/
lemma always_reopen (cfg : Config) (random : Fin 12 → UInt8) :
    Always oracle (openSpool codec cfg random) dir trace fun result dir' _ =>
      result = some (.ok { s with cfg := cfg }) ∧ dir' = saved codec { s with cfg := cfg } dir := by
  refine (always_openSpool lawful (faultless.not_failsAt _) represents.contents_names ?_).mono ?_
  · intro file mem
    obtain ⟨chunk, inside, rfl⟩ := mem_map.mp mem
    exact represents.held (cellOf codec chunk) (mem_map_of_mem inside)
  · rintro result dir' trace' ⟨post, -⟩
    rw [represents.reopened_eq lawful] at post
    cases post with
    | failed fault emptied why => exact absurd why faultless.never_fails
    | died emptied left why => exact absurd why faultless.never_dies
    | done emptied =>
      have trimmed := emptied.trimmed (forall_mem_map.mpr represents.chunked.nonempty)
      exact ⟨rfl, by rw [trimmed.eq_of_whole lawful represents.whole]⟩

end

end Faultless

/-! ### Runs -/

/-- The spool that is made of an empty directory. -/
def fresh (cfg : Config) (random : Fin 12 → UInt8) : Spool :=
  ⟨cfg, hexEncode (List.ofFn random), 0, [], 0⟩

lemma represents_fresh (cfg : Config) (random : Fin 12 → UInt8) :
    Represents codec (saved codec (fresh cfg random) ∅) (fresh cfg random) [] where
  segs := rfl
  total := rfl
  chunked := ⟨by simp, by simp, .nil, by simp, by norm_num [fresh]⟩
  stored := Represents.stored_saved ⟨by simp, by simp⟩ _
  state := Represents.state_saved _
  epoch := ⟨random, rfl⟩

/-- Opening an empty directory. -/
lemma always_open_empty (lawful : codec.Lawful) (faultless : oracle.Faultless) (cfg : Config)
    (random : Fin 12 → UInt8) :
    Always oracle (openSpool codec cfg random) ∅ trace fun result dir' _ =>
      result = some (.ok (fresh cfg random)) ∧ dir' = saved codec (fresh cfg random) ∅ := by
  have none_there : ([] : List Content).map Content.name = segmentNames ∅ := by
    simp [segmentNames]
  refine (always_openSpool lawful (faultless.not_failsAt _) none_there (by simp)).mono ?_
  rintro result dir' trace' ⟨post, -⟩
  have same : reopened codec cfg random ∅ [] = fresh cfg random := by
    simp [reopened, readState, Spool.load, fresh]
  rw [same] at post
  cases post with
  | failed fault emptied why => exact absurd why faultless.never_fails
  | died emptied left why => exact absurd why faultless.never_dies
  | done emptied =>
    have whole : Whole codec ∅ := fun name bytes _ present => by simp at present
    exact ⟨rfl, by rw [(emptied.trimmed (by simp)).eq_of_whole lawful whole]⟩

/-- The steps without faults. -/
def FaultFree (sys : System) : Label → Prop
  | .open_ _ _ oracle => oracle.Faultless
  | .call op oracle => oracle.Faultless ∧ ∀ s, sys.spool = some s → op.Admissible s
  | .exit => True

/-- What one step without faults does to a represented spool. -/
inductive StepPost (codec : Codec) (s : Spool) (chunks : List (List Record)) (sys : System) :
    Label → System → Prop where
  | reopened {cfg : Config} {random : Fin 12 → UInt8} {oracle : Oracle Site String}
      {sys' : System} (represents : Represents codec sys'.dir { s with cfg := cfg } chunks)
      (isOpen : sys'.spool = some { s with cfg := cfg }) :
      StepPost codec s chunks sys (.open_ cfg random oracle) sys'
  | called {op : Op} {oracle : Oracle Site String} {sys' : System} (s' : Spool)
      (answer : Answer) (chunks' : List (List Record)) (wasOpen : sys.spool = some s)
      (represents : Represents codec sys'.dir s' chunks') (isOpen : sys'.spool = some s')
      (effect : Effect codec s.cfg.maxBytes ⟨chunks.flatten, s.lastSeq⟩ op answer
        ⟨chunks'.flatten, s'.lastSeq⟩) :
      StepPost codec s chunks sys (.call op oracle) sys'
  | left {sys' : System} (dir : sys'.dir = sys.dir) (closed : sys'.spool = none) :
      StepPost codec s chunks sys .exit sys'

variable {sys sys' : System}

lemma step_post (lawful : codec.Lawful) {label : Label}
    (represents : Represents codec sys.dir s chunks) (same : ∀ s', sys.spool = some s' → s' = s)
    (faultFree : FaultFree sys label) (step : Step codec sys label sys') :
    StepPost codec s chunks sys label sys' := by
  cases step with
  | open_ cfg random oracle closed =>
    have opened : Always oracle (openSpool codec cfg random) sys.dir [] _ :=
      always_reopen lawful faultFree represents cfg random
    obtain ⟨ran, left⟩ := opened.run
    rw [System.openDir_ok ran]
    refine .reopened ?_ rfl
    rw [left]
    exact represents.reopen cfg
  | call op oracle isOpen =>
    obtain rfl := same _ isOpen
    have called : Always oracle (call codec _ op) sys.dir [] _ :=
      always_call lawful faultFree.1 represents (faultFree.2 _ isOpen)
    obtain ⟨s', answer, chunks', ran, kept, -, effect⟩ := called.run
    rw [System.callSpool_some ran]
    exact .called s' answer chunks' isOpen kept rfl effect
  | exit => exact .left rfl rfl

/-- The directory is empty, or the picture of a spool whose queue has a property; that
spool is the open one if there is one. -/
inductive Settled (codec : Codec) (P : Queue → Prop) (sys : System) : Prop where
  | empty (dir : sys.dir = ∅) (closed : sys.spool = none) (holds : P ⟨[], 0⟩)
  | settled (s : Spool) (chunks : List (List Record))
      (represents : Represents codec sys.dir s chunks)
      (same : ∀ s', sys.spool = some s' → s' = s) (holds : P ⟨chunks.flatten, s.lastSeq⟩)

lemma Settled.of_open {P : Queue → Prop} (settled : Settled codec P sys)
    (isOpen : sys.spool = some s) :
    ∃ chunks, Represents codec sys.dir s chunks ∧ P ⟨chunks.flatten, s.lastSeq⟩ := by
  cases settled with
  | empty dir closed _ => cases closed.symm.trans isOpen
  | settled s₀ chunks represents same holds =>
    obtain rfl := same s isOpen
    exact ⟨chunks, represents, holds⟩

lemma Settled.of_represents {P : Queue → Prop} (represents : Represents codec sys.dir s chunks)
    (isOpen : sys.spool = some s) (holds : P ⟨chunks.flatten, s.lastSeq⟩) : Settled codec P sys := by
  refine .settled s chunks represents (fun s' also => ?_) holds
  rw [isOpen] at also
  exact (Option.some.inj also).symm

section Invariants

variable {P : Queue → Prop} {admits : System → Label → Prop} (lawful : codec.Lawful)
  (kept : ∀ sys s op oracle q answer q', sys.spool = some s → admits sys (.call op oracle) →
    Ordered q.records → Effect codec s.cfg.maxBytes q op answer q' → P q → P q')
include lawful kept

/-- An invariant of the queue is one of the system. -/
lemma Settled.step {label : Label} (settled : Settled codec P sys) (admitted : admits sys label)
    (faultFree : FaultFree sys label) (step : Step codec sys label sys')
    : Settled codec P sys' := by
  cases settled with
  | settled s chunks represents same holds =>
    cases step_post lawful represents same faultFree step with
    | reopened after isOpen => exact .of_represents after isOpen holds
    | called s' answer chunks' wasOpen after isOpen effect =>
      exact .of_represents after isOpen
        (kept _ _ _ _ _ _ _ wasOpen admitted represents.chunked.ordered effect holds)
    | left dir closed => exact .settled s chunks (dir ▸ represents) (by simp [closed]) holds
  | empty dir closed start =>
    -- Nothing happens in an empty directory until it is opened.
    cases step with
    | open_ cfg random oracle _ =>
      have opened : Always oracle (openSpool codec cfg random) sys.dir [] _ :=
        dir ▸ always_open_empty lawful faultFree cfg random
      obtain ⟨ran, left⟩ := opened.run
      rw [System.openDir_ok ran]
      refine .of_represents (?_ : Represents codec _ _ []) rfl start
      dsimp only
      rw [left, dir]
      exact represents_fresh cfg random
    | call op oracle isOpen =>
      cases closed.symm.trans isOpen
    | exit => exact .empty dir rfl start

lemma settled_of_reaches (start : P ⟨[], 0⟩)
    (faultFree : ∀ sys label, admits sys label → FaultFree sys label)
    {sys : System} (reached : (spoolLife codec).Reaches admits sys) : Settled codec P sys := by
  refine reached.invariant (Settled codec P) ?_ ?_
  · rintro sys rfl
    exact .empty rfl rfl start
  · intro sys label sys' settled admitted step
    exact settled.step lawful kept admitted (faultFree sys label admitted) step

end Invariants

lemma represents_of_reaches (lawful : codec.Lawful)
    (reached : (spoolLife codec).Reaches FaultFree sys) (isOpen : sys.spool = some s) :
    ∃ chunks, Represents codec sys.dir s chunks := by
  have settled : Settled codec (fun _ => True) sys :=
    settled_of_reaches lawful (fun _ _ _ _ _ _ _ _ _ _ _ _ => trivial) trivial (fun _ _ free => free)
      reached
  obtain ⟨chunks, represents, -⟩ := settled.of_open isOpen
  exact ⟨chunks, represents⟩

/-! ### Accuracy -/

/-- What the spool says of itself is accurate. -/
structure Accurate (codec : Codec) (dir : Dir) (s : Spool) : Prop where
  /-- The records on disk are in the order of their sequences. -/
  increasing : (onDisk codec dir s).Pairwise fun a b => a.sequence < b.sequence
  below : ∀ r ∈ onDisk codec dir s, r.sequence ≤ s.lastSeq
  /-- A segment's file is its records and nothing else, and the summary is theirs. -/
  summaries : ∀ seg ∈ s.segs, ∃ bytes records, dir[seg.path]? = some bytes ∧
    parse codec bytes = (records, bytes.length) ∧
    records.head?.map Record.sequence = some seg.first ∧
    records.getLast?.map Record.sequence = some seg.last ∧ bytes.length = seg.size
  /-- The names sort as the sequences do, and are the segment files there are. -/
  sequences : (s.segs.map Segment.first).Pairwise (· < ·)
  names : (s.segs.map Segment.path).Pairwise (· < ·)
  listed : segmentNames dir = s.segs.map Segment.path
  total : s.total = (s.segs.map fun seg => (seg.size : ℤ)).sum
  /-- A marker stands for the sequences from its own to before the next record's. -/
  markers : ∀ r ∈ onDisk codec dir s, ∀ gap, r.gap = some gap →
    gap.fromSequence = r.sequence ∧ r.sequence ≤ gap.toSequence
  ranges : (onDisk codec dir s).Pairwise fun a b => a.upper < b.sequence
  /-- Opening the directory rebuilds the same spool. -/
  reopens : ∀ (oracle : Oracle Site String) (random : Fin 12 → UInt8), oracle.Faultless →
    ((openSpool codec s.cfg random).run oracle dir []).1 = some (.ok s)

lemma Represents.onDisk (represents : Represents codec dir s chunks) (lawful : codec.Lawful) :
    onDisk codec dir s = chunks.flatten := by
  have parsed : ∀ chunk ∈ chunks, (parse codec ((dir[chunkName chunk]?).getD [])).1 = chunk := by
    intro chunk mem
    have whole := parse_fileOf lawful (fun r listed => represents.chunked.storable r
      (mem_flatten_of_mem mem listed)) torn_nil
    rw [append_nil] at whole
    rw [represents.stored.file mem, Option.getD_some, whole]
  rw [Telemetry.onDisk, represents.segs, flatten_eq_flatMap]
  simp only [cellsOf, map_map, flatMap_map]
  exact flatMap_congr parsed

lemma Represents.accurate (represents : Represents codec dir s chunks) (lawful : codec.Lawful) :
    Accurate codec dir s where
  increasing := represents.onDisk lawful ▸ represents.chunked.ordered.sequences
  below := fun r mem => by
    rw [represents.onDisk lawful] at mem
    exact (represents.chunked.ordered.sequence_le_upper mem).trans
      (represents.chunked.below r mem)
  summaries := fun seg mem => by
    rw [represents.segs] at mem
    obtain ⟨c, cell, rfl⟩ := mem_map.mp mem
    obtain ⟨chunk, inside, rfl⟩ := mem_map.mp cell
    obtain ⟨front, newest, rfl⟩ :=
      (eq_nil_or_concat' chunk).resolve_left (represents.chunked.nonempty chunk inside)
    have whole := parse_fileOf lawful (fun r listed => represents.chunked.storable r
      (mem_flatten_of_mem inside listed)) torn_nil
    rw [append_nil] at whole
    refine ⟨_, _, represents.stored.file inside, whole, ?_, by simp [cellOf, summary], rfl⟩
    cases front <;> simp [cellOf, summary]
  sequences := by
    have firsts := represents.chunked.firsts
    rw [represents.segs, cellsOf, map_map, map_map]
    exact firsts
  names := by
    have names := represents.chunked.names
    rw [represents.segs, cellsOf, map_map, map_map]
    exact names
  listed := by
    rw [← represents.contents_names, represents.segs]
    simp [Represents.contents, cellsOf, cellOf, summary]
  total := by
    rw [represents.total, represents.segs, map_map]
    rfl
  markers := represents.onDisk lawful ▸ represents.chunked.ordered.markers
  ranges := represents.onDisk lawful ▸ represents.chunked.ordered.increasing
  reopens := fun oracle random faultless =>
    (Always.run (always_reopen lawful faultless represents s.cfg random)).1

/-- From a state on, the last sequence does not go back. -/
lemma lastSeq_le_of_reaches (lawful : codec.Lawful) {s' : Spool}
    (represents : Represents codec sys.dir s chunks) (isOpen : sys.spool = some s)
    (later : (spoolLifeFrom codec sys).Reaches FaultFree sys') (isOpen' : sys'.spool = some s') :
    s.lastSeq ≤ s'.lastSeq := by
  have settled : Settled codec (fun q => s.lastSeq ≤ q.lastSeq) sys' := by
    refine later.invariant (Settled codec fun q => s.lastSeq ≤ q.lastSeq) ?_ ?_
    · rintro sys' rfl
      exact .of_represents represents isOpen le_rfl
    · intro sys₁ label sys₂ settled faultFree step
      exact settled.step lawful (fun _ _ _ _ _ _ _ _ _ ordered effect reached =>
        reached.trans (effect.lastSeq_le ordered)) faultFree faultFree step
  obtain ⟨chunks', -, reached⟩ := settled.of_open isOpen'
  exact reached

/-- **The spool is accurate.**  In every state that a run without faults reaches, the open
spool describes its directory exactly, and its last sequence is at least that of any
spool of an earlier state. -/
theorem spool_is_accurate (lawful : codec.Lawful) {sys : System} {s : Spool}
    (reached : (spoolLife codec).Reaches FaultFree sys) (isOpen : sys.spool = some s) :
    Accurate codec sys.dir s ∧
      ∀ sys' s', (spoolLifeFrom codec sys).Reaches FaultFree sys' → sys'.spool = some s' →
        s.lastSeq ≤ s'.lastSeq := by
  obtain ⟨chunks, represents⟩ := represents_of_reaches lawful reached isOpen
  exact ⟨represents.accurate lawful, fun sys' s' later isOpen' =>
    lastSeq_le_of_reaches lawful represents isOpen later isOpen'⟩

/-! ### A run -/

/-- There is room for another sequence. -/
def hasRoom (sys : System) : Label → Bool
  | .call (.append _ _ _) _ => sys.spool.all fun s => s.lastSeq + 1 < 2 ^ 63
  | _ => true

/-- A small spool: three records, of which two are acknowledged, and one that is refused. -/
def smallLife : List Label :=
  let cfg : Config := ⟨600, 150⟩
  let random : Fin 12 → UInt8 := fun _ => 7
  [.open_ cfg random calm,
    .call (.append 1000 [] none) calm,
    .call (.append 2000 [Columns.uptime] none) calm,
    .call (.append 3000 [] none) calm,
    .call (.ack 2) calm,
    .exit,
    .open_ cfg random calm,
    .call (.discard 3 .rejected) calm,
    .call (.append 4000 [] none) calm]

lemma append_faultFree {sys : System} {atTime : ℤ} {samples : List Sample} {drives : Option Bytes}
    (room : hasRoom sys (.call (.append atTime samples drives) calm) = true) :
    FaultFree sys (.call (.append atTime samples drives) calm) :=
  ⟨calm_faultless, fun s isOpen => by simpa [hasRoom, isOpen, Op.Admissible] using room⟩

lemma smallLife_faultFree : ∀ label ∈ smallLife, ∀ sys, hasRoom sys label = true →
    FaultFree sys label := by
  simp only [smallLife, forall_mem_cons, not_mem_nil, false_imp_iff, implies_true,
    and_true]
  exact ⟨fun _ _ => calm_faultless, fun _ => append_faultFree, fun _ => append_faultFree,
    fun _ => append_faultFree, fun _ _ => ⟨calm_faultless, fun _ _ => trivial⟩,
    fun _ _ => trivial, fun _ _ => calm_faultless,
    fun _ _ => ⟨calm_faultless, fun _ _ => .inr rfl⟩, fun _ => append_faultFree⟩

/-- The theorem at that run. -/
theorem spool_is_accurate_small :
    ∃ sys s, (spoolLife columns).Reaches FaultFree sys ∧ sys.spool = some s ∧ s.lastSeq = 4 ∧
      Accurate columns sys.dir s ∧
      ∀ sys' s', (spoolLifeFrom columns sys).Reaches FaultFree sys' → sys'.spool = some s' →
        4 ≤ s'.lastSeq := by
  have ends : ((System.start.acts columns hasRoom smallLife).bind System.spool).map Spool.lastSeq =
      some 4 := by decide +kernel
  simp only [Option.map_eq_some_iff, Option.bind_eq_some_iff] at ends
  obtain ⟨s, ⟨sys, acted, isOpen⟩, four⟩ := ends
  have reached := System.reaches_of_acts smallLife_faultFree acted
  have accurate := spool_is_accurate columns_lawful reached isOpen
  exact ⟨sys, s, reached, isOpen, four, accurate.1, four ▸ accurate.2⟩

/-- **The spool refines the queue.**  In every state that a run without faults reaches, a call
answers, and does to the records in the files, what the operation does on a queue. -/
theorem call_refines_queue (lawful : codec.Lawful) {sys : System} {s : Spool}
    (reached : (spoolLife codec).Reaches FaultFree sys) (isOpen : sys.spool = some s)
    (faultless : oracle.Faultless) (op : Op) (admissible : op.Admissible s) :
    let ran := (call codec s op).run oracle sys.dir []
    ∃ s' answer, ran.1 = some (s', answer) ∧
      Effect codec s.cfg.maxBytes ⟨onDisk codec sys.dir s, s.lastSeq⟩ op answer
        ⟨onDisk codec ran.2.device s', s'.lastSeq⟩ := by
  obtain ⟨chunks, represents⟩ := represents_of_reaches lawful reached isOpen
  have called : Always oracle (call codec s op) sys.dir [] _ :=
    always_call lawful faultless represents admissible
  obtain ⟨s', answer, chunks', answered, kept, -, effect⟩ := called.run
  rw [← represents.onDisk lawful, ← kept.onDisk lawful] at effect
  exact ⟨s', answer, answered, effect⟩

theorem call_refines_queue_small : ∃ (sys : System) (s : Spool) (answer : Answer) (q : Queue),
    (spoolLife columns).Reaches FaultFree sys ∧ sys.spool = some s ∧
      Effect columns s.cfg.maxBytes ⟨onDisk columns sys.dir s, s.lastSeq⟩ (.ack 3) answer q := by
  have ends : ((System.start.acts columns hasRoom smallLife).bind System.spool).isSome = true := by
    decide +kernel
  simp only [Option.isSome_iff_exists, Option.bind_eq_some_iff] at ends
  obtain ⟨s, sys, acted, isOpen⟩ := ends
  have reached := System.reaches_of_acts smallLife_faultFree acted
  obtain ⟨s', answer, -, effect⟩ :=
    call_refines_queue columns_lawful reached isOpen calm_faultless (.ack 3) trivial
  exact ⟨sys, s, answer, _, reached, isOpen, effect⟩

end TechStack.Telemetry
