import TechStack.Telemetry.Ingest

/-!
# Nothing is lost on the way

A sequence that has left the spool has been passed to the sinks, as a record or within a
marker, as long as every record has something to pass and no marker is put for both what the
control plane has already taken and what it has not: the control plane skips everything up to
its cursor, and a marker is placed under the lowest sequence that it covers.

`Sound` is the invariant, stated of a queue, a cursor, the sequences that are accounted
for and the batches on their way:

* what the control plane will skip is accounted for (`skipped`);
* once a batch is ingested, all up to its last sequence is (`covered`).

`Link.Sound.append`, `.collapse`, `.release`, `.send` and `.finish` say what has to be shown
of each thing that can happen.
-/

namespace TechStack.Telemetry

open List Lib

/-- The sequences that a record stands for: its own, or those in the range of a marker. -/
def Stands (record : Record) (n : ℕ) : Prop :=
  match record.gap with
  | none => record.sequence = n
  | some gap => gap.fromSequence ≤ n ∧ n ≤ gap.toSequence

variable {records : List Record}

lemma Ordered.stands {record : Record} {n : ℕ} (ordered : Ordered records)
    (mem : record ∈ records) :
    Stands record n ↔ record.sequence ≤ n ∧ n ≤ record.upper := by
  unfold Stands Record.upper
  cases marked : record.gap with
  | none =>
    dsimp only
    omega
  | some gap =>
    dsimp only
    rw [(ordered.markers record mem gap marked).1]

open Link (lastOf)

/-- Two records in order. -/
lemma Ordered.compare {a b : Record} (ordered : Ordered records) (first : a ∈ records)
    (second : b ∈ records) :
    b.sequence ≤ a.sequence ∨ a.upper < b.sequence := by
  obtain ⟨front, back, rfl⟩ := append_of_mem first
  rcases mem_append.mp second with older | later
  · have := ordered.across older (.head _)
    have := ordered.left.sequence_le_upper older
    exact .inl (by omega)
  rcases mem_cons.mp later with rfl | newer
  · exact .inl le_rfl
  · have after : Ordered ([a] ++ back) := ordered.right
    exact .inr (after.across (mem_singleton_self a) newer)

/-- The oldest records are those up to the last of them. -/
lemma mem_iff_le_lastOf {batch newer : List Record} {r : Record}
    (ordered : Ordered (batch ++ newer)) (waiting : batch ≠ []) (mem : r ∈ batch ++ newer) :
    r ∈ batch ↔ r.sequence ≤ lastOf batch := by
  obtain ⟨front, last, rfl⟩ := (eq_nil_or_concat' batch).resolve_left waiting
  have ends : lastOf (front ++ [last]) = last.sequence := by simp [lastOf]
  rw [ends]
  constructor
  · intro sent
    rcases mem_append.mp sent with older | same
    · have := ordered.left.across older (mem_singleton_self last)
      have := ordered.left.left.sequence_le_upper older
      omega
    · rw [mem_singleton.mp same]
  · intro low
    refine (mem_append.mp mem).resolve_right fun later => ?_
    have last_mem : last ∈ front ++ [last] := by simp
    have := ordered.across last_mem later
    have := ordered.left.sequence_le_upper last_mem
    omega

/-- Where a record may be: in the queue, or in a batch on its way. -/
def Around (q : Queue) (way : List Record → Prop) (record : Record) : Prop :=
  record ∈ q.records ∨ ∃ batch, way batch ∧ record ∈ batch

/-- The invariant. -/
structure Sound (q : Queue) (cursor : ℕ) (acc : ℕ → Prop) (way : List Record → Prop) : Prop where
  /-- Every assigned sequence is in the queue or accounted for. -/
  kept : ∀ n, 0 < n → n ≤ q.lastSeq → (∃ r ∈ q.records, Stands r n) ∨ acc n
  cursor_le : cursor ≤ q.lastSeq
  skipped : ∀ r, Around q way r → r.sequence ≤ cursor → ∀ n, Stands r n → acc n
  covered : ∀ batch, way batch → ∀ r, Around q way r → r.sequence ≤ lastOf batch →
    ∀ n, Stands r n → acc n ∨ ∃ r' ∈ batch, Stands r' n
  /-- No record of the queue starts within what a sent record stands for. -/
  apart : ∀ batch, way batch → ∀ r ∈ batch, ∀ x ∈ q.records,
    x.sequence ≤ r.sequence ∨ ∀ n, Stands r n → n < x.sequence
  below : ∀ batch, way batch → batch ≠ [] ∧ ∀ r ∈ batch,
    r.sequence ≤ lastOf batch ∧ r.sequence ≤ q.lastSeq ∧ ∀ n, Stands r n → 0 < n ∧ n ≤ q.lastSeq
  passes : ∀ r, Around q way r → r.passes = true

variable {batch : List Record}

namespace Sound

variable {q : Queue} {cursor : ℕ} {acc acc' : ℕ → Prop} {way way' : List Record → Prop}

lemma lastOf_le (sound : Sound q cursor acc way) (sent : way batch) :
    lastOf batch ≤ q.lastSeq := by
  obtain ⟨waiting, inside⟩ := sound.below batch sent
  obtain ⟨front, last, rfl⟩ := (eq_nil_or_concat' batch).resolve_left waiting
  have ends : lastOf (front ++ [last]) = last.sequence := by simp [lastOf]
  rw [ends]
  exact (inside last (by simp)).2.1

/-- More may be accounted for, and less on its way. -/
lemma mono (sound : Sound q cursor acc way) (more : ∀ n, acc n → acc' n)
    (fewer : ∀ batch, way' batch → way batch) : Sound q cursor acc' way' := by
  have around : ∀ {r}, Around q way' r → Around q way r := by
    rintro r (inside | ⟨batch, sent, mem⟩)
    · exact .inl inside
    · exact .inr ⟨batch, fewer batch sent, mem⟩
  refine ⟨fun n positive le => (sound.kept n positive le).imp_right (more n), sound.cursor_le,
    fun r somewhere low n stands => more n (sound.skipped r (around somewhere) low n stands),
    fun batch sent r somewhere low n stands => ?_,
    fun batch sent => sound.apart batch (fewer batch sent),
    fun batch sent => sound.below batch (fewer batch sent),
    fun r somewhere => sound.passes r (around somewhere)⟩
  exact (sound.covered batch (fewer batch sent) r (around somewhere) low n stands).imp_left (more n)

/-- Data is appended. -/
lemma append (sound : Sound q cursor acc way) {record : Record}
    (next : record.sequence = q.lastSeq + 1) (data : record.gap = none)
    (passes : record.passes = true) :
    Sound ⟨q.records ++ [record], q.lastSeq + 1⟩ cursor acc way := by
  have own : ∀ n, Stands record n ↔ record.sequence = n := fun n => by simp [Stands, data]
  have cases_around : ∀ {r}, Around ⟨q.records ++ [record], q.lastSeq + 1⟩ way r →
      Around q way r ∨ r = record := by
    rintro r (inside | sent)
    · rcases mem_append.mp inside with older | same
      · exact .inl (.inl older)
      · exact .inr (mem_singleton.mp same)
    · exact .inl (.inr sent)
  refine ⟨fun n positive le => ?_, sound.cursor_le.trans (Nat.le_succ _),
    fun r somewhere low n stands => ?_, fun batch sent r somewhere low n stands => ?_,
    fun batch sent r mem x inside => ?_, fun batch sent => ⟨(sound.below batch sent).1, ?_⟩,
    fun r somewhere => (cases_around somewhere).elim (sound.passes r) fun same => same ▸ passes⟩
  · by_cases new : n = q.lastSeq + 1
    · exact .inl ⟨record, by simp, (own n).mpr (next.trans new.symm)⟩
    · have old : n ≤ q.lastSeq := by
        dsimp only at le
        omega
      refine (sound.kept n positive old).imp_left ?_
      rintro ⟨r, inside, stands⟩
      exact ⟨r, mem_append_left _ inside, stands⟩
  · rcases cases_around somewhere with before | rfl
    · exact sound.skipped r before low n stands
    · have := sound.cursor_le
      omega
  · rcases cases_around somewhere with before | rfl
    · exact sound.covered batch sent r before low n stands
    · have := sound.lastOf_le sent
      omega
  · rcases mem_append.mp inside with older | same
    · exact sound.apart batch sent r mem x older
    · refine .inr fun n stands => ?_
      rw [mem_singleton.mp same, next]
      exact Nat.lt_succ_of_le (((sound.below batch sent).2 r mem).2.2 n stands).2
  · intro r mem
    obtain ⟨first, second, third⟩ := (sound.below batch sent).2 r mem
    exact ⟨first, second.trans (Nat.le_succ _),
      fun n stands => ⟨(third n stands).1, (third n stands).2.trans (Nat.le_succ _)⟩⟩

/-- The oldest records are replaced by a marker.  It has to be known to the control plane,
where it would be skipped. -/
lemma collapse {front back : List Record} {gap : Gap}
    (sound : Sound ⟨front ++ back, q.lastSeq⟩ cursor acc way)
    (starts : ∃ r ∈ front, gap.fromSequence = r.sequence)
    (replaces : ∀ r ∈ front, ∀ n, Stands r n → Stands (marker gap) n)
    (skip : gap.fromSequence ≤ cursor → ∀ n, Stands (marker gap) n → acc n)
    (sent : ∀ batch, way batch → gap.fromSequence ≤ lastOf batch →
      ∀ n, Stands (marker gap) n → acc n ∨ ∃ r ∈ batch, Stands r n) :
    Sound ⟨marker gap :: back, q.lastSeq⟩ cursor acc way := by
  have cases_around : ∀ {r}, Around ⟨marker gap :: back, q.lastSeq⟩ way r →
      Around ⟨front ++ back, q.lastSeq⟩ way r ∨ r = marker gap := by
    rintro r (inside | elsewhere)
    · rcases mem_cons.mp inside with same | later
      · exact .inr same
      · exact .inl (.inl (mem_append_right _ later))
    · exact .inl (.inr elsewhere)
  refine ⟨fun n positive le => ?_, sound.cursor_le, fun r somewhere low n stands => ?_,
    fun batch on r somewhere low n stands => ?_, fun batch on r mem x inside => ?_,
    fun batch on => sound.below batch on,
    fun r somewhere => (cases_around somewhere).elim (sound.passes r) fun same => same ▸ rfl⟩
  · refine (sound.kept n positive le).imp_left ?_
    rintro ⟨r, inside, stands⟩
    rcases mem_append.mp inside with older | newer
    · exact ⟨marker gap, .head _, replaces r older n stands⟩
    · exact ⟨r, .tail _ newer, stands⟩
  · rcases cases_around somewhere with before | rfl
    · exact sound.skipped r before low n stands
    · exact skip low n stands
  · rcases cases_around somewhere with before | rfl
    · exact sound.covered batch on r before low n stands
    · exact sent batch on low n stands
  · rcases mem_cons.mp inside with rfl | later
    · obtain ⟨first, older, same⟩ := starts
      have sequence : (marker gap).sequence = first.sequence := same
      rw [sequence]
      exact sound.apart batch on r mem first (mem_append_left _ older)
    · exact sound.apart batch on r mem x (mem_append_right _ later)

/-- The oldest records are released.  They have to be accounted for. -/
lemma release (sound : Sound q cursor acc way) (fewer : ∀ r ∈ records, r ∈ q.records)
    (gone : ∀ r ∈ q.records, r ∉ records → ∀ n, Stands r n → acc n) :
    Sound ⟨records, q.lastSeq⟩ cursor acc way := by
  have around : ∀ {r}, Around ⟨records, q.lastSeq⟩ way r → Around q way r := by
    rintro r (inside | elsewhere)
    · exact .inl (fewer r inside)
    · exact .inr elsewhere
  refine ⟨fun n positive le => ?_, sound.cursor_le,
    fun r somewhere => sound.skipped r (around somewhere),
    fun batch sent r somewhere => sound.covered batch sent r (around somewhere),
    fun batch sent r mem x inside => sound.apart batch sent r mem x (fewer x inside),
    sound.below, fun r somewhere => sound.passes r (around somewhere)⟩
  rcases sound.kept n positive le with ⟨r, inside, stands⟩ | known
  · by_cases stays : r ∈ records
    · exact .inl ⟨r, stays, stands⟩
    · exact .inr (gone r inside stays n stands)
  · exact .inr known

/-- The oldest records are sent. -/
lemma send (sound : Sound q cursor acc way) (valid : q.Valid) (oldest : batch <+: q.records)
    (waiting : batch ≠ []) :
    Sound q cursor acc fun b => way b ∨ b = batch := by
  obtain ⟨newer, split⟩ := oldest
  have ordered : Ordered (batch ++ newer) := split ▸ valid.ordered
  have inside : ∀ {r}, r ∈ batch → r ∈ q.records := fun mem =>
    split ▸ mem_append_left newer mem
  have around : ∀ {r}, Around q (fun b => way b ∨ b = batch) r → Around q way r := by
    rintro r (queued | ⟨b, sent | rfl, mem⟩)
    · exact .inl queued
    · exact .inr ⟨b, sent, mem⟩
    · exact .inl (inside mem)
  have reach : ∀ {x}, x ∈ q.records → (x ∈ batch ↔ x.sequence ≤ lastOf batch) :=
    fun mem => mem_iff_le_lastOf ordered waiting (split ▸ mem)
  refine ⟨sound.kept, sound.cursor_le, fun r somewhere => sound.skipped r (around somewhere),
    ?_, ?_, ?_, fun r somewhere => sound.passes r (around somewhere)⟩
  · rintro b (sent | rfl) r somewhere low n stands
    · exact sound.covered b sent r (around somewhere) low n stands
    rcases around somewhere with queued | ⟨b', sent, mem⟩
    · exact .inr ⟨r, (reach queued).mpr low, stands⟩
    -- A record sent earlier: what it stands for is accounted for, or is still in the queue
    -- and there below the end of the batch.
    obtain ⟨positive, le⟩ := ((sound.below b' sent).2 r mem).2.2 n stands
    rcases sound.kept n positive le with ⟨x, queued, same⟩ | known
    · have starts := ((valid.ordered.stands queued).mp same).1
      rcases sound.apart b' sent r mem x queued with before | after
      · exact .inr ⟨x, (reach queued).mpr (before.trans low), same⟩
      · exact absurd starts (not_le.mpr (after n stands))
    · exact .inl known
  · rintro b (sent | rfl) r mem x queued
    · exact sound.apart b sent r mem x queued
    rcases valid.ordered.compare (inside mem) queued with same | later
    · exact .inl same
    · refine .inr fun n stands => ?_
      exact (((valid.ordered.stands (inside mem)).mp stands).2).trans_lt later
  · rintro b (sent | rfl)
    · exact sound.below b sent
    refine ⟨waiting, fun r mem => ⟨(reach (inside mem)).mp mem, ?_, fun n stands => ?_⟩⟩
    · exact (valid.ordered.sequence_le_upper (inside mem)).trans (valid.below r (inside mem))
    · obtain ⟨first, last⟩ := (valid.ordered.stands (inside mem)).mp stands
      exact ⟨(valid.positive r (inside mem)).trans_le first,
        last.trans (valid.below r (inside mem))⟩

/-- A batch is ingested. -/
lemma finish {cursor' : ℕ} (sound : Sound q cursor acc way) (sent : way batch)
    (handled : ∀ r ∈ batch, ∀ n, Stands r n → acc n) (moved : cursor' ≤ max cursor (lastOf batch))
    : Sound q cursor' acc way := by
  have reached : ∀ {r : Record}, r.sequence ≤ cursor' → r.sequence ≤ cursor ∨ r.sequence ≤ lastOf batch :=
    fun low => le_max_iff.mp (low.trans moved)
  refine ⟨sound.kept, moved.trans (max_le sound.cursor_le (sound.lastOf_le sent)),
    fun r somewhere low n stands => ?_, sound.covered, sound.apart, sound.below, sound.passes⟩
  rcases reached low with before | within
  · exact sound.skipped r somewhere before n stands
  · rcases sound.covered batch sent r somewhere within n stands with known | ⟨r', mem, stands'⟩
    · exact known
    · exact handled r' mem n stands'

end Sound

/-! ### Calls of the spool -/

variable {codec : Codec} {validDrives : Bytes → ℤ → Bool}

lemma Represents.valid {dir : Dir} {s : Spool} {chunks : List (List Record)}
    (represents : Represents codec dir s chunks) : Queue.Valid ⟨chunks.flatten, s.lastSeq⟩ :=
  ⟨represents.chunked.ordered, represents.chunked.below,
    fun r mem => (represents.chunked.storable r mem).positive⟩

/-- Up to a bound there is nothing of the records, or all of them. -/
def Clear (records : List Record) (bound : ℕ) : Prop :=
  (∀ r ∈ records, bound < r.sequence) ∨ ∀ r ∈ records, r.upper ≤ bound

/-- The control plane has all of the records or none, now and after any batch on its way. -/
def Parted (cursor : ℕ) (way : List Record → Prop) (records : List Record) : Prop :=
  Clear records cursor ∧ ∀ batch, way batch → Clear records (lastOf batch)

section Calls

variable {q q' : Queue} {cursor : ℕ} {acc : ℕ → Prop} {way : List Record → Prop}

/-- A marker that is merged from the oldest records, of which the control plane has all or none. -/
lemma Sound.collapse_widen {front back : List Record} {reason : GapReason} {gap : Gap}
    (sound : Sound q cursor acc way) (valid : q.Valid) (split : q.records = front ++ back)
    (some_record : front ≠ []) (widened : widen reason none front = some gap)
    (parted : Parted cursor way front) :
    Sound ⟨marker gap :: back, q.lastSeq⟩ cursor acc way := by
  have ordered : Ordered (front ++ back) := split ▸ valid.ordered
  obtain ⟨_, same, -, -, ⟨first, first_mem, starts⟩, ⟨last, last_mem, ends⟩, covers⟩ :=
    ordered.left.gap some_record reason
  cases widened.symm.trans same
  have inside : ∀ r ∈ front, r ∈ q.records := fun r mem => split ▸ mem_append_left _ mem
  -- What the marker stands for is in the queue, where it is below the bound, or accounted for.
  have within : ∀ {bound n}, Clear front bound → gap.fromSequence ≤ bound →
      Stands (marker gap) n → (∃ r ∈ q.records, Stands r n ∧ r.sequence ≤ bound) ∨ acc n := by
    intro bound n clear low stands
    have all := clear.resolve_left fun above => not_lt.mpr (starts ▸ low) (above first first_mem)
    have high : n ≤ bound := stands.2.trans (ends ▸ all last last_mem)
    refine (sound.kept n ?_ ?_).imp_left ?_
    · exact (valid.positive first (inside first first_mem)).trans_le (starts ▸ stands.1)
    · exact stands.2.trans (ends ▸ valid.below last (inside last last_mem))
    · rintro ⟨r, queued, own⟩
      exact ⟨r, queued, own, (((valid.ordered.stands queued).mp own).1).trans high⟩
  have whole : Sound ⟨front ++ back, q.lastSeq⟩ cursor acc way := split ▸ sound
  refine whole.collapse ⟨first, first_mem, starts⟩ (fun r older n stands => ?_)
    (fun low n stands => ?_) (fun batch sent low n stands => ?_)
  · obtain ⟨low, high⟩ := covers r older
    obtain ⟨above, below⟩ := (ordered.left.stands older).mp stands
    exact ⟨low.trans above, below.trans high⟩
  · rcases within parted.1 low stands with ⟨r, queued, own, below⟩ | known
    · exact sound.skipped r (.inl queued) below n own
    · exact known
  · rcases within (parted.2 batch sent) low stands with ⟨r, queued, own, below⟩ | known
    · exact sound.covered batch sent r (.inl queued) below n own
    · exact .inl known

/-- A call of the spool keeps the invariant, if it acknowledges no more than the control plane
has, what it appends has something to pass, and what it puts a marker for the control plane has
as a whole or not at all. -/
lemma Effect.sound {budget : ℕ} {op : Op} {answer : Answer}
    (effect : Effect codec budget q op answer q') (valid : q.Valid)
    (sound : Sound q cursor acc way) (acks : ∀ sequence, op = .ack sequence → sequence ≤ cursor)
    (appends : ∀ atTime samples drives, op = .append atTime samples drives →
      (q.next atTime samples drives).passes = true ∧
      (budget < (fileOf codec (q.records ++ [q.next atTime samples drives])).length →
        Parted cursor way q.records))
    (discards : ∀ sequence reason, op = .discard sequence reason →
      Parted cursor way (upTo sequence q.records)) :
    Sound q' cursor acc way := by
  cases effect with
  | refused fault why => exact sound
  | appended => exact sound.append rfl rfl (appends _ _ _ rfl).1
  | peeked => exact sound
  | untouched none_up_to => exact sound
  | enforced front back split some_record rest exceeds widened =>
    rename_i atTime samples drives gap
    obtain ⟨passes, parted⟩ := appends _ _ _ rfl
    have step : Queue.Step q ⟨q.records ++ [q.next atTime samples drives], q.lastSeq + 1⟩ :=
      .append _ rfl rfl
    -- The new record is not among the oldest, since something is left.
    have older : ∀ r ∈ front, r ∈ q.records := by
      obtain ⟨back', last, rfl⟩ := (eq_nil_or_concat' back).resolve_left rest
      rw [← append_assoc] at split
      exact fun r mem => (append_inj_left' split rfl) ▸ mem_append_left _ mem
    have clear : ∀ {bound}, Clear q.records bound → Clear front bound := fun clear =>
      clear.imp (fun above r mem => above r (older r mem)) fun below r mem => below r (older r mem)
    exact (sound.append rfl rfl passes).collapse_widen (step.valid valid) split some_record widened
      ⟨clear (parted exceeds).1, fun batch sent => clear ((parted exceeds).2 batch sent)⟩
  | acked =>
    rename_i sequence
    refine sound.release (fun r kept => (mem_filter.mp kept).1) ?_
    intro r queued gone n stands
    have low : r.sequence ≤ sequence := by
      simpa [after, queued] using gone
    exact sound.skipped r (.inl queued) (low.trans (acks sequence rfl)) n stands
  | discarded some_record widened =>
    exact sound.collapse_widen valid (valid.ordered.upTo_append_after _).symm some_record widened
      (discards _ _ rfl)

lemma Effect.peek_inv {budget maxRecords maxBytes : ℕ} {answer : Answer}
    (effect : Effect codec budget q (.peek maxRecords maxBytes) answer q') :
    answer = .peeked (Telemetry.peeked codec maxRecords maxBytes q.records [] 0) ∧ q' = q := by
  cases effect
  exact ⟨rfl, rfl⟩

end Calls

/-! ### The link -/

/-- A record that stands for the sequence was passed to the sinks. -/
def Link.Accounted (link : Link) (n : ℕ) : Prop := ∃ r ∈ link.passed, Stands r n

/-- A batch that was sent and is not yet ingested. -/
def Link.OnItsWay (link : Link) (batch : List Record) : Prop :=
  batch ∈ link.requests ∨ ∃ run ∈ link.ingests, run.records = batch

/-- The control plane has all of the records or none. -/
abbrev Link.Parts (link : Link) (records : List Record) : Prop :=
  Parted link.cursorAt link.OnItsWay records

/-- What is asked of a call of the spool.  An append has a sequence left and something to pass;
where it outgrows the budget, or a batch is discarded, the control plane has all that a marker may
be put for, or none of it. -/
def Op.Careful (codec : Codec) (link : Link) : Op → Prop
  | .append atTime samples drives =>
    let records := onDisk codec link.dir link.spool
    let next := Queue.next ⟨records, link.spool.lastSeq⟩ atTime samples drives
    link.spool.lastSeq + 1 < 2 ^ 63 ∧ next.passes = true ∧
      (link.spool.cfg.maxBytes < (fileOf codec (records ++ [next])).length → link.Parts records)
  | .discard sequence _ => link.Parts (upTo sequence (onDisk codec link.dir link.spool))
  | _ => True

/-- The calls of the spool that a move makes are careful. -/
def Careful (codec : Codec) (link : Link) : Move → Prop
  | .append atTime samples drives => (Op.append atTime samples drives).Careful codec link
  | .answer i => ∀ response, link.responses[i]? = some response → response.acked = none →
    (Op.discard (lastOf response.records) .rejected).Careful codec link
  | _ => True

/-- What is known of a run of `Ingest`. -/
structure IngestRun.Tracks (run : IngestRun) (cursor : ℕ) (acc : ℕ → Prop) : Prop where
  last : run.last ≤ cursor
  acked : run.acked ≤ max cursor (lastOf run.records)
  handled : ∃ handled, run.records = handled ++ run.rest ∧ ∀ r ∈ handled, ∀ n, Stands r n → acc n

lemma IngestRun.Tracks.mono {run : IngestRun} {cursor cursor' : ℕ} {acc acc' : ℕ → Prop}
    (tracks : run.Tracks cursor acc) (further : cursor ≤ cursor') (more : ∀ n, acc n → acc' n) :
    run.Tracks cursor' acc' := by
  obtain ⟨handled, split, known⟩ := tracks.handled
  exact ⟨tracks.last.trans further, tracks.acked.trans (max_le_max_right _ further), handled, split,
    fun r mem n stands => more n (known r mem n stands)⟩

/-- The invariant of the link. -/
structure Link.Consistent (codec : Codec) (link : Link) (chunks : List (List Record)) : Prop where
  represents : Represents codec link.dir link.spool chunks
  sound : Sound ⟨chunks.flatten, link.spool.lastSeq⟩ link.cursorAt link.Accounted link.OnItsWay
  runs : ∀ run ∈ link.ingests, run.Tracks link.cursorAt link.Accounted
  answers : ∀ response ∈ link.responses, ∀ acked ∈ response.acked, acked ≤ link.cursorAt

/-- The cursor of the epoch after a batch is ingested. -/
lemma Link.cursorAt_finished (link : Link) (rest : List IngestRun) (answers : List Response)
    (acked : ℕ) :
    Link.cursorAt { link with
      ingests := rest
      cursor := link.cursor.advance ⟨trimSpace link.spool.epoch, acked⟩
      responses := answers } = max link.cursorAt acked := by
  by_cases same : link.cursor.epoch = trimSpace link.spool.epoch
  · simp [Link.cursorAt, Cursor.advance, same]
  · simp [Link.cursorAt, Cursor.advance, same]

namespace Link.Consistent

variable {link link' : Link} {chunks : List (List Record)}

section

variable (consistent : link.Consistent codec chunks)
include consistent

/-- A careful call of the spool. -/
lemma callSpool (lawful : codec.Lawful) (op : Op) {answer : Answer}
    (admissible : op.Admissible link.spool) (careful : op.Careful codec link)
    (called : link.callSpool codec op = some (answer, link'))
    (acks : ∀ sequence, op = .ack sequence → sequence ≤ link.cursorAt) :
    ∃ chunks', link'.Consistent codec chunks' ∧
      Effect codec link.spool.cfg.maxBytes ⟨chunks.flatten, link.spool.lastSeq⟩ op answer
        ⟨chunks'.flatten, link'.spool.lastSeq⟩ := by
  have ran : Io.Always calm (call codec link.spool op) link.dir [] _ :=
    always_call lawful calm_faultless consistent.represents admissible
  obtain ⟨s', answer', chunks', result, represents, epoch, effect⟩ := ran.run
  simp only [Link.callSpool] at called
  rcases outcome : (TechStack.Telemetry.call codec link.spool op).run calm link.dir [] with
    ⟨returned, world⟩
  rw [outcome] at called result represents
  obtain rfl : returned = some (s', answer') := result
  cases called
  have cursor : ({ link with dir := world.device, spool := s' } : Link).cursorAt =
      link.cursorAt := by
    simp only [Link.cursorAt, epoch]
  have records := consistent.represents.onDisk lawful
  refine ⟨chunks', ⟨represents, ?_, ?_, ?_⟩, effect⟩
  · rw [cursor]
    refine effect.sound consistent.represents.valid consistent.sound acks ?_ ?_
    · rintro atTime samples drives rfl
      simp only [Op.Careful, records] at careful
      exact careful.2
    · rintro sequence reason rfl
      simp only [Op.Careful, records] at careful
      exact careful
  · rw [cursor]
    exact consistent.runs
  · rw [cursor]
    exact consistent.answers

lemma called (lawful : codec.Lawful) (op : Op) (admissible : op.Admissible link.spool)
    (careful : op.Careful codec link) (called : (link.callSpool codec op).map Prod.snd = some link')
    (acks : ∀ sequence, op = .ack sequence → sequence ≤ link.cursorAt) :
    ∃ chunks', link'.Consistent codec chunks' := by
  obtain ⟨⟨answer, _⟩, ran, rfl⟩ := Option.map_eq_some_iff.mp called
  obtain ⟨chunks', kept, -⟩ := consistent.callSpool lawful op admissible careful ran acks
  exact ⟨chunks', kept⟩

/-- Something on its way goes, or more is accounted for. -/
lemma weaken (same : link'.dir = link.dir ∧ link'.spool = link.spool ∧ link'.cursor = link.cursor)
    (passed : ∀ r ∈ link.passed, r ∈ link'.passed)
    (ways : ∀ batch, link'.OnItsWay batch → link.OnItsWay batch)
    (runs : ∀ run ∈ link'.ingests, run ∈ link.ingests ∨ run.Tracks link.cursorAt link'.Accounted)
    (answers : ∀ response ∈ link'.responses, response ∈ link.responses ∨ response.acked = none) :
    link'.Consistent codec chunks := by
  obtain ⟨dir, spool, cursor⟩ := same
  have position : link'.cursorAt = link.cursorAt := by simp only [Link.cursorAt, spool, cursor]
  have more : ∀ n, link.Accounted n → link'.Accounted n := by
    rintro n ⟨r, mem, stands⟩
    exact ⟨r, passed r mem, stands⟩
  refine ⟨by rw [dir, spool]; exact consistent.represents, ?_, fun run mem => ?_,
    fun response mem acked known => ?_⟩
  · rw [spool, position]
    exact consistent.sound.mono more ways
  · rw [position]
    exact (runs run mem).elim (fun old => (consistent.runs run old).mono le_rfl more) id
  · rw [position]
    rcases answers response mem with old | refused
    · exact consistent.answers response old acked known
    · cases refused.symm.trans known

lemma flush (lawful : codec.Lawful) (flushed : link.flush codec = some link')
    : ∃ chunks', link'.Consistent codec chunks' := by
  obtain ⟨⟨answer, between⟩, called, sent⟩ := Option.bind_eq_some_iff.mp flushed
  obtain ⟨chunks', kept, effect⟩ :=
    consistent.callSpool lawful (.peek _ _) trivial trivial called (by rintro _ ⟨⟩)
  obtain ⟨rfl, same⟩ := effect.peek_inv
  have flat : chunks'.flatten = chunks.flatten := congrArg Queue.records same
  obtain ⟨taken, took, oldest, -⟩ := peeked_bounded maxRecordsPerBatch flushBytes
    consistent.represents.chunked.storable
  simp only [took] at sent
  split_ifs at sent with nothing
  · cases sent
    exact ⟨chunks', kept⟩
  · cases sent
    refine ⟨chunks', kept.represents, ?_, kept.runs, kept.answers⟩
    refine (kept.sound.send kept.represents.valid (flat ▸ oldest) nothing).mono (fun _ => id) ?_
    rintro batch (waiting | ingested)
    · exact (mem_append.mp waiting).imp .inl mem_singleton.mp
    · exact .inl (.inr ingested)

lemma loseRequest (i : ℕ) :
    { link with requests := link.requests.eraseIdx i }.Consistent codec chunks := by
  refine consistent.weaken ⟨rfl, rfl, rfl⟩ (fun _ => id) ?_ (fun _ => .inl) (fun _ => .inl)
  rintro batch (waiting | ingested)
  · exact .inl (mem_of_mem_eraseIdx waiting)
  · exact .inr ingested

lemma loseResponse (i : ℕ) :
    { link with responses := link.responses.eraseIdx i }.Consistent codec chunks :=
  consistent.weaken ⟨rfl, rfl, rfl⟩ (fun _ => id) (fun _ => id) (fun _ => .inl)
    fun _ mem => .inl (mem_of_mem_eraseIdx mem)

lemma receive {i : ℕ} {now : ℤ} {fits : Bool}
    (received : link.receive validDrives i now fits = some link') :
    link'.Consistent codec chunks := by
  obtain ⟨records, waiting, taken⟩ := Option.bind_eq_some_iff.mp received
  have sent : records ∈ link.requests := mem_of_getElem? waiting
  dsimp only at taken
  split at taken
  · cases taken
    refine consistent.weaken ⟨rfl, rfl, rfl⟩ (fun _ => id) ?_ ?_ (fun _ => .inl)
    · rintro batch (waiting | ⟨run, mem, rfl⟩)
      · exact .inl (mem_of_mem_eraseIdx waiting)
      rcases mem_append.mp mem with old | new
      · exact .inr ⟨run, old, rfl⟩
      · rw [mem_singleton.mp new]
        exact .inl sent
    · exact forall_mem_snoc (fun _ => .inl) (.inr ⟨le_rfl, le_max_left _ _, [], rfl, by simp⟩)
  · cases taken
    refine (consistent.loseRequest i).weaken ⟨rfl, rfl, rfl⟩ (fun _ => id) (fun _ => id)
      (fun _ => .inl) ?_
    exact forall_mem_snoc (fun _ => .inl) (.inr rfl)

lemma handle {i : ℕ} (handled : link.handle i = some link') : link'.Consistent codec chunks := by
  obtain ⟨run, running, turned⟩ := Option.bind_eq_some_iff.mp handled
  have mem : run ∈ link.ingests := mem_of_getElem? running
  obtain ⟨last, acked, before, split, known⟩ := consistent.runs run mem
  rcases waiting : run.rest with _ | ⟨record, rest⟩
  · simp [waiting] at turned
  simp only [waiting] at turned
  -- The batch of the run stays what it is.
  have ways : ∀ {run' : IngestRun}, run'.records = run.records → ∀ batch,
      (batch ∈ link.requests ∨ ∃ r ∈ link.ingests.set i run', r.records = batch) →
      link.OnItsWay batch := by
    rintro run' same batch (waiting | ⟨r, listed, rfl⟩)
    · exact .inl waiting
    rcases mem_or_eq_of_mem_set listed with old | rfl
    · exact .inr ⟨r, old, rfl⟩
    · exact .inr ⟨run, mem, same.symm⟩
  have split' : run.records = (before ++ [record]) ++ rest := by rw [split, waiting]; simp
  have around : Around ⟨chunks.flatten, link.spool.lastSeq⟩ link.OnItsWay record :=
    .inr ⟨run.records, .inr ⟨run, mem, rfl⟩, split' ▸ by simp⟩
  rw [consistent.sound.passes record around, if_pos rfl] at turned
  split_ifs at turned with low
  · cases turned
    refine consistent.weaken ⟨rfl, rfl, rfl⟩ (fun _ => id) (ways rfl) ?_ (fun _ => .inl)
    intro r listed
    refine (mem_or_eq_of_mem_set listed).imp_right ?_
    rintro rfl
    refine ⟨last, acked, before ++ [record], split', ?_⟩
    intro x handled n stands
    rcases mem_append.mp handled with older | same
    · exact known x older n stands
    · rw [mem_singleton.mp same] at stands
      exact consistent.sound.skipped record around (low.trans last) n stands
  · cases turned
    refine consistent.weaken ⟨rfl, rfl, rfl⟩ (fun _ => mem_append_left _) (ways rfl) ?_
      (fun _ => .inl)
    intro r listed
    refine (mem_or_eq_of_mem_set listed).imp_right ?_
    rintro rfl
    have within := ((consistent.sound.below run.records (.inr ⟨run, mem, rfl⟩)).2 record
      (split' ▸ by simp)).1
    refine ⟨last, within.trans (le_max_right _ _), before ++ [record], split', ?_⟩
    intro x handled n stands
    rcases mem_append.mp handled with older | same
    · obtain ⟨y, passed, stands'⟩ := known x older n stands
      exact ⟨y, mem_append_left _ passed, stands'⟩
    · exact ⟨x, mem_append_right _ same, stands⟩

lemma finish {i : ℕ} (finished : link.finish i = some link') : link'.Consistent codec chunks := by
  obtain ⟨run, running, done⟩ := Option.bind_eq_some_iff.mp finished
  have mem : run ∈ link.ingests := mem_of_getElem? running
  obtain ⟨-, acked, before, split, known⟩ := consistent.runs run mem
  split_ifs at done with ended
  cases done
  have whole : run.records = before := by rw [split, ended, append_nil]
  have sent : link.OnItsWay run.records := .inr ⟨run, mem, rfl⟩
  have moved := consistent.sound.finish sent (whole ▸ known) (max_le (le_max_left _ _) acked)
  have cursor := link.cursorAt_finished (link.ingests.eraseIdx i)
    (link.responses ++ [⟨run.records, some run.acked⟩]) run.acked
  refine ⟨consistent.represents, ?_, fun r listed => ?_, fun response listed n answered => ?_⟩
  · rw [cursor]
    refine moved.mono (fun _ => id) ?_
    rintro batch (waiting | ⟨r, listed, same⟩)
    · exact .inl waiting
    · exact .inr ⟨r, mem_of_mem_eraseIdx listed, same⟩
  · rw [cursor]
    exact (consistent.runs r (mem_of_mem_eraseIdx listed)).mono (le_max_left _ _) fun _ => id
  · rw [cursor]
    rcases mem_append.mp listed with old | new
    · exact (consistent.answers response old n answered).trans (le_max_left _ _)
    · rw [mem_singleton.mp new] at answered
      cases answered
      exact le_max_right _ _

lemma answer (lawful : codec.Lawful) {i : ℕ} (answered : link.answer codec i = some link')
    (careful : Careful codec link (.answer i)) : ∃ chunks', link'.Consistent codec chunks' := by
  obtain ⟨response, waiting, taken⟩ := Option.bind_eq_some_iff.mp answered
  have known := consistent.answers response (mem_of_getElem? waiting)
  have gone := consistent.loseResponse i
  dsimp only at taken
  rcases reply : response.acked with _ | acked
  · simp only [reply] at taken
    split_ifs at taken with drives
    · cases taken
      exact ⟨chunks, gone⟩
    · exact gone.called lawful (.discard _ .rejected) (.inr rfl) (careful response waiting reply)
        taken (by rintro _ ⟨⟩)
  · simp only [reply] at taken
    split_ifs at taken with nothing
    · cases taken
      exact ⟨chunks, gone⟩
    · refine gone.called lawful (.ack _) trivial trivial taken ?_
      rintro sequence ⟨⟩
      exact (min_le_left _ _).trans (known acked reply)

/-- Every careful move keeps the invariant. -/
lemma act (lawful : codec.Lawful) {move : Move} (careful : Careful codec link move)
    (acted : link.act codec validDrives move = some link') :
    ∃ chunks', link'.Consistent codec chunks' := by
  cases move with
  | append atTime samples drives =>
    exact consistent.called lawful (.append _ _ _) careful.1 careful acted (by rintro _ ⟨⟩)
  | flush => exact consistent.flush lawful acted
  | loseRequest i =>
    simp only [Link.act] at acted
    split_ifs at acted
    cases acted
    exact ⟨chunks, consistent.loseRequest i⟩
  | receive i now fits => exact ⟨chunks, consistent.receive acted⟩
  | handle i => exact ⟨chunks, consistent.handle acted⟩
  | finish i => exact ⟨chunks, consistent.finish acted⟩
  | loseResponse i =>
    simp only [Link.act] at acted
    split_ifs at acted
    cases acted
    exact ⟨chunks, consistent.loseResponse i⟩
  | answer i => exact consistent.answer lawful acted careful

end

lemma start (cfg : Config) (random : Fin 12 → UInt8) {cursor : Cursor}
    (other : cursor.epoch ≠ (fresh cfg random).epoch) :
    (Link.start codec cfg random cursor).Consistent codec [] := by
  have represents : Represents codec (saved codec (fresh cfg random) ∅) (fresh cfg random) [] :=
    represents_fresh cfg random
  have zero : (Link.start codec cfg random cursor).cursorAt = 0 := by
    have trimmed : trimSpace (fresh cfg random).epoch = (fresh cfg random).epoch :=
      represents.trimSpace_epoch
    rw [Link.cursorAt, Link.start, trimmed, if_neg other]
  have nothing : ∀ {batch}, ¬ (Link.start codec cfg random cursor).OnItsWay batch := by
    rintro batch (waiting | ⟨run, running, -⟩)
    · cases waiting
    · cases running
  refine ⟨represents, ⟨fun n positive le => ?_, zero.le.trans (Nat.zero_le _), ?_, ?_, ?_, ?_, ?_⟩,
    by rintro run ⟨⟩, by rintro response ⟨⟩⟩
  case refine_1 => exact absurd le (not_le.mpr positive)
  case refine_2 | refine_6 =>
    rintro r (queued | ⟨batch, sent, -⟩)
    · cases queued
    · exact (nothing sent).elim
  all_goals exact fun batch sent => (nothing sent).elim

end Link.Consistent

/-- **No silent loss.**  In every state that careful moves reach, every sequence that the
spool has assigned is still in it, or was passed to the sinks, as a record or within the
range of a marker. -/
theorem no_silent_loss (lawful : codec.Lawful) {link : Link} {n : ℕ}
    (reached : (delivery codec validDrives).Reaches (Careful codec) link)
    (assigned : 0 < n ∧ n ≤ link.spool.lastSeq) :
    (∃ r ∈ onDisk codec link.dir link.spool, Stands r n) ∨ link.Accounted n := by
  have consistent : ∃ chunks, link.Consistent codec chunks := by
    refine reached.invariant (fun link => ∃ chunks, link.Consistent codec chunks) ?_ ?_
    · rintro link ⟨cfg, random, cursor, rfl, other⟩
      exact ⟨[], .start cfg random other⟩
    · rintro link move link' ⟨chunks, consistent⟩ careful acted
      exact consistent.act lawful careful acted
  obtain ⟨chunks, consistent⟩ := consistent
  rw [consistent.represents.onDisk lawful]
  exact consistent.sound.kept n assigned.1 assigned.2

/-! ### Runs -/

instance (record : Record) (n : ℕ) : Decidable (Stands record n) := by
  unfold Stands
  split <;> infer_instance

/-- A spool of four records, and a control plane that has not heard of it. -/
def newLink (codec : Codec) (maxBytes segmentBytes : ℤ) : Link :=
  .start codec (complete maxBytes segmentBytes) (fun _ => 7) ⟨"", 0⟩

lemma newLink_enacted (codec : Codec) (maxBytes segmentBytes : ℤ) :
    (delivery codec anyDrives).Enacts (Link.act codec anyDrives)
      (newLink codec maxBytes segmentBytes) :=
  ⟨⟨_, _, _, rfl, (by decide +kernel : "" ≠ hexEncode (List.ofFn fun _ : Fin 12 => (7 : UInt8)))⟩,
    fun _ _ _ => id⟩

/-- A number of records. -/
def Move.appends (records : ℕ) : List Move :=
  .replicate records (.append (17 * day) [Columns.uptime] none)

/-- A batch of a number of records is received and ingested. -/
def Move.ingest (records : ℕ) : List Move :=
  [.receive 0 (17 * day) true] ++ .replicate records (.handle 0) ++ [.finish 0]

/-- Two records are ingested, but the answer is lost.  The spool fills up, and a marker for
the first three takes the place of the first.  The control plane has the first, so it skips
the marker, and the answer to the rest of the batch removes it. -/
def lossyMoves : List Move :=
  Move.appends 2 ++ [.flush] ++ Move.ingest 2 ++ [.loseResponse 0] ++
    Move.appends 5 ++ [.flush] ++ Move.ingest 5 ++ [.answer 0]

/-- The codec that knows the records of that run. -/
def lossyCodec : Codec :=
  json ((range 7).map (fun n => ⟨n + 1, 17 * day, [Columns.uptime], none, none⟩) ++
    (range 3).map fun n => marker ⟨17 * day, 17 * day, 1, n + 1, .spoolBudget⟩)

/-- The third record is lost without a trace.  The lines are those of `encoding/json`. -/
theorem third_record_is_lost : ∃ link,
    (delivery lossyCodec anyDrives).Reaches (fun _ _ => True) link ∧
      3 ≤ link.spool.lastSeq ∧ ¬ (∃ r ∈ onDisk lossyCodec link.dir link.spool, Stands r 3) ∧
      ¬ link.Accounted 3 := by
  obtain ⟨link, reached, assigned, gone, unseen⟩ :=
    (newLink_enacted lossyCodec 600 130).reaches_any lossyMoves
    (fun link => 3 ≤ link.spool.lastSeq ∧
      (¬ ∃ r ∈ onDisk lossyCodec link.dir link.spool, Stands r 3) ∧
      ¬ ∃ r ∈ link.passed, Stands r 3)
    (by decide +kernel)
  exact ⟨link, reached, assigned, gone, unseen⟩

/-- The append has something to pass, and nothing of the spool was ever sent; or no batch is
refused. -/
def Link.ahead (link : Link) : Move → Bool
  | .append atTime samples drives =>
    link.spool.lastSeq + 1 < 2 ^ 63 ∧
    (Queue.next ⟨[], link.spool.lastSeq⟩ atTime samples drives).passes = true ∧
      link.requests = [] ∧ link.ingests = [] ∧
      ∀ r ∈ onDisk columns link.dir link.spool, link.cursorAt < r.sequence
  | .answer i => (link.responses[i]?).all (·.acked.isSome)
  | _ => true

lemma Link.ahead.careful {link : Link} {move : Move} (ahead : link.ahead move = true) :
    Careful columns link move := by
  cases move with
  | append =>
    obtain ⟨room, passes, asked, ingested, above⟩ := of_decide_eq_true ahead
    refine ⟨room, passes, fun _ => ⟨.inl above, ?_⟩⟩
    rintro batch (waiting | ⟨run, running, -⟩)
    · rw [asked] at waiting
      cases waiting
    · rw [ingested] at running
      cases running
  | answer =>
    intro response waiting refused
    simp [Link.ahead, waiting, refused] at ahead
  | _ => trivial

/-- The spool fills up before anything is sent, and what it holds is then delivered. -/
def deliveredMoves : List Move :=
  Move.appends 6 ++ [.flush] ++ Move.ingest 5 ++ [.answer 0] ++ Move.appends 1

/-- The theorem at that run: the second record was delivered within a marker. -/
theorem no_silent_loss_delivered :
    ∃ link, (delivery columns anyDrives).Reaches (Careful columns) link ∧
      link.spool.lastSeq = 7 ∧ (∀ r ∈ link.passed, r.sequence ≠ 2) ∧
      ∀ n, 0 < n ∧ n ≤ 7 →
        (∃ r ∈ onDisk columns link.dir link.spool, Stands r n) ∨ link.Accounted n := by
  obtain ⟨link, reached, seven, passed⟩ := (newLink_enacted columns 850 210).reaches Link.ahead
    (fun _ _ => Link.ahead.careful) deliveredMoves
    (fun link => link.spool.lastSeq = 7 ∧ ∀ r ∈ link.passed, r.sequence ≠ 2) (by decide +kernel)
  exact ⟨link, reached, seven, passed, fun n assigned =>
    no_silent_loss columns_lawful reached (seven.symm ▸ assigned)⟩

end TechStack.Telemetry
