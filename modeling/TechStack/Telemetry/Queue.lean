import TechStack.Lib.Slots
import TechStack.Telemetry.Spool

/-!
# The spool as a queue

What the spool is for, without its files: a queue of records in the order of their
sequences, to which data is appended at the end and from which it goes at the front,
either released for good or collapsed into one marker that stands for everything it
replaces.

* `Ordered` — each record lies above everything the one before it stands for, and a
  marker stands for the sequences from its own on.
* `Queue.Step` — what can happen to the queue; `Queue.Step.valid` says that it stays
  ordered.
* `Gap.Spans` — a marker reaches exactly as far as what was merged into it.
-/

namespace TechStack.Telemetry

open List Lib

/-! ### Markers -/

/-- The last sequence that a record stands for. -/
def Record.upper (record : Record) : ℕ :=
  match record.gap with
  | some gap => gap.toSequence
  | none => record.sequence

/-- What a record contributes to a marker. -/
def Record.part (reason : GapReason) (record : Record) : Gap := mergeGap none record reason

/-- The marker that a loop over dropped records builds. -/
def widen (reason : GapReason) (gap : Option Gap) (records : List Record) : Option Gap :=
  records.foldl (fun gap record => some (mergeGap gap record reason)) gap

lemma widen_append {reason : GapReason} {gap : Option Gap} {front back : List Record} :
    widen reason gap (front ++ back) = widen reason (widen reason gap front) back :=
  foldl_append

/-- A marker reaches as far as its parts, and no further. -/
structure Gap.Spans (gap : Gap) (parts : List Gap) : Prop where
  fromTime : IsLeast {t | ∃ p ∈ parts, p.fromTime = t} gap.fromTime
  toTime : IsGreatest {t | ∃ p ∈ parts, p.toTime = t} gap.toTime
  fromSequence : IsLeast {n | ∃ p ∈ parts, p.fromSequence = n} gap.fromSequence
  toSequence : IsGreatest {n | ∃ p ∈ parts, p.toSequence = n} gap.toSequence

section Markers

variable {reason : GapReason} {gap : Gap} {parts : List Gap} {record : Record}

lemma Gap.Spans.single : gap.Spans [gap] := by
  constructor <;> simp

/-- The values that a list with one part more takes. -/
lemma setOf_concat {α : Type} (f : Gap → α) (p : Gap) :
    {a | ∃ q ∈ parts ++ [p], f q = a} = {a | ∃ q ∈ parts, f q = a} ∪ {f p} := by
  ext a
  simp only [mem_append, mem_singleton, Set.mem_ofPred_eq, Set.mem_union,
    Set.mem_singleton_iff]
  constructor
  · rintro ⟨q, mem | rfl, rfl⟩
    · exact .inl ⟨q, mem, rfl⟩
    · exact .inr rfl
  · rintro (⟨q, mem, rfl⟩ | rfl)
    · exact ⟨q, .inl mem, rfl⟩
    · exact ⟨p, .inr rfl, rfl⟩

lemma Gap.Spans.merge (spans : gap.Spans parts) (record : Record) :
    (mergeGap (some gap) record reason).Spans (parts ++ [record.part reason]) := by
  have least : (mergeGap (some gap) record reason).fromTime =
      min gap.fromTime (record.part reason).fromTime := by
    change (if _ < _ then _ else _) = _
    split_ifs with less
    · exact (min_eq_right less.le).symm
    · exact (min_eq_left (not_lt.mp less)).symm
  have greatest : (mergeGap (some gap) record reason).toTime =
      max gap.toTime (record.part reason).toTime := by
    change (if _ > _ then _ else _) = _
    split_ifs with more
    · exact (max_eq_right more.le).symm
    · exact (max_eq_left (not_lt.mp more)).symm
  constructor
  · rw [setOf_concat, least]
    exact spans.fromTime.union isLeast_singleton
  · rw [setOf_concat, greatest]
    exact spans.toTime.union isGreatest_singleton
  · rw [setOf_concat]
    exact spans.fromSequence.union isLeast_singleton
  · rw [setOf_concat]
    exact spans.toSequence.union isGreatest_singleton

/-- The marker of a number of records spans them all and gives the reason. -/
lemma widen_spans (reason : GapReason) {records : List Record} (some_record : records ≠ []) :
    ∃ gap, widen reason none records = some gap ∧ gap.Spans (records.map (Record.part reason)) ∧
      gap.reason = reason := by
  induction records using List.reverseRecOn with
  | nil => exact absurd rfl some_record
  | append_singleton front record ih =>
    rw [widen_append, map_append]
    by_cases first : front = []
    · subst first
      refine ⟨record.part reason, rfl, Gap.Spans.single, ?_⟩
      simp only [Record.part, mergeGap]
      cases record.gap <;> rfl
    · obtain ⟨gap, widened, spans, given⟩ := ih first
      rw [widened]
      exact ⟨_, rfl, spans.merge record, given⟩

end Markers

/-! ### Order -/

/-- Records in order: each lies above what the one before it stands for, and a marker
stands for the sequences from its own on. -/
structure Ordered (records : List Record) : Prop where
  increasing : records.Pairwise fun a b => a.upper < b.sequence
  markers : ∀ r ∈ records, ∀ gap, r.gap = some gap →
    gap.fromSequence = r.sequence ∧ r.sequence ≤ gap.toSequence

section Order

variable {records front back : List Record} {record : Record}

lemma Ordered.nil : Ordered [] := ⟨.nil, by simp⟩

lemma Ordered.sublist (ordered : Ordered records) {fewer : List Record}
    (part : fewer.Sublist records) : Ordered fewer :=
  ⟨ordered.increasing.sublist part, fun r mem => ordered.markers r (part.subset mem)⟩

section

variable (ordered : Ordered (front ++ back))
include ordered

lemma Ordered.left : Ordered front :=
  ordered.sublist (sublist_append_left front back)

lemma Ordered.right : Ordered back :=
  ordered.sublist (sublist_append_right front back)

lemma Ordered.across {a b : Record} (older : a ∈ front) (newer : b ∈ back) : a.upper < b.sequence :=
  (pairwise_append.mp ordered.increasing).2.2 a older b newer

end

section

variable (ordered : Ordered records)
include ordered

lemma Ordered.sequence_le_upper (mem : record ∈ records) :
    record.sequence ≤ record.upper := by
  unfold Record.upper
  cases marked : record.gap with
  | none => exact le_rfl
  | some gap => exact (ordered.markers record mem gap marked).2

lemma Ordered.sequences :
    records.Pairwise fun a b => a.sequence < b.sequence := by
  refine ordered.increasing.imp_of_mem fun {a b} older _ less => ?_
  exact (ordered.sequence_le_upper older).trans_lt less

/-- A data record above all. -/
lemma Ordered.concat {last : ℕ} (below : ∀ r ∈ records, r.upper ≤ last)
    (next : last < record.sequence) (data : record.gap = none) : Ordered (records ++ [record]) := by
  refine ⟨pairwise_append.mpr ⟨ordered.increasing, pairwise_singleton _ _, ?_⟩, ?_⟩
  · intro a older b same
    rw [mem_singleton.mp same]
    exact (below a older).trans_lt next
  · refine forall_mem_snoc ordered.markers fun gap marked => ?_
    cases data.symm.trans marked

/-- What a record in order contributes to a marker. -/
lemma Ordered.part (mem : record ∈ records) (reason : GapReason) :
    (record.part reason).fromSequence = record.sequence ∧
      (record.part reason).toSequence = record.upper := by
  simp only [Record.part, mergeGap, Record.upper]
  cases marked : record.gap with
  | none => exact ⟨rfl, rfl⟩
  | some gap => exact ⟨(ordered.markers record mem gap marked).1, rfl⟩

/-- The marker of a number of records in order: it starts at one of them, ends at one of
them, and covers what they all stand for. -/
lemma Ordered.gap (some_record : records ≠ []) (reason : GapReason) :
    ∃ gap, widen reason none records = some gap ∧ gap.reason = reason ∧
      gap.Spans (records.map (Record.part reason)) ∧
      (∃ r ∈ records, gap.fromSequence = r.sequence) ∧ (∃ r ∈ records, gap.toSequence = r.upper) ∧
      ∀ r ∈ records, gap.fromSequence ≤ r.sequence ∧ r.upper ≤ gap.toSequence := by
  obtain ⟨gap, widened, spans, given⟩ := widen_spans reason some_record
  refine ⟨gap, widened, given, spans, ?_, ?_, ?_⟩
  · obtain ⟨p, mem, least⟩ := spans.fromSequence.1
    obtain ⟨r, older, rfl⟩ := mem_map.mp mem
    exact ⟨r, older, by rw [← least, (ordered.part older reason).1]⟩
  · obtain ⟨p, mem, greatest⟩ := spans.toSequence.1
    obtain ⟨r, older, rfl⟩ := mem_map.mp mem
    exact ⟨r, older, by rw [← greatest, (ordered.part older reason).2]⟩
  · intro r mem
    have part := ordered.part mem reason
    have listed : r.part reason ∈ records.map (Record.part reason) :=
      mem_map_of_mem mem
    exact ⟨part.1 ▸ spans.fromSequence.2 ⟨_, listed, rfl⟩,
      part.2 ▸ spans.toSequence.2 ⟨_, listed, rfl⟩⟩

end

end Order

/-! ### The queue -/

/-- The spool without its files. -/
structure Queue where
  records : List Record
  lastSeq : ℕ

/-- What can happen to the queue. -/
inductive Queue.Step : Queue → Queue → Prop where
  /-- Data is appended under the next sequence. -/
  | append {q : Queue} (record : Record) (next : record.sequence = q.lastSeq + 1)
      (data : record.gap = none) : Step q ⟨q.records ++ [record], q.lastSeq + 1⟩
  /-- The oldest records are replaced by a marker. -/
  | collapse {q : Queue} (front back : List Record) (reason : GapReason) {gap : Gap}
      (split : q.records = front ++ back) (some_record : front ≠ [])
      (widened : widen reason none front = some gap) : Step q ⟨marker gap :: back, q.lastSeq⟩
  /-- The oldest records are released. -/
  | release {q : Queue} (front back : List Record) (split : q.records = front ++ back) :
      Step q ⟨back, q.lastSeq⟩

/-- The queue is in order and nothing lies above its last sequence. -/
structure Queue.Valid (q : Queue) : Prop where
  ordered : Ordered q.records
  below : ∀ r ∈ q.records, r.upper ≤ q.lastSeq
  positive : ∀ r ∈ q.records, 0 < r.sequence

/-- A marker in the place of the records it was merged from. -/
lemma Ordered.collapse {front back : List Record} {reason : GapReason} {gap : Gap}
    (ordered : Ordered (front ++ back)) (some_record : front ≠ [])
    (widened : widen reason none front = some gap) : Ordered (marker gap :: back) := by
  obtain ⟨_, same, given, spans, ⟨first, older, starts⟩, ⟨last, newer, ends⟩, covers⟩ :=
    ordered.left.gap some_record reason
  cases widened.symm.trans same
  have upper : (marker gap).upper = gap.toSequence := rfl
  refine ⟨pairwise_cons.mpr ⟨fun b mem => ?_, ordered.right.increasing⟩, ?_⟩
  · rw [upper, ends]
    exact ordered.across newer mem
  · intro r mem g marked
    rcases mem_cons.mp mem with rfl | later
    · cases marked
      refine ⟨rfl, ?_⟩
      calc gap.fromSequence = first.sequence := starts
        _ ≤ first.upper := ordered.left.sequence_le_upper older
        _ ≤ gap.toSequence := (covers first older).2
    · exact ordered.right.markers r later g marked

lemma Queue.Step.valid {q q' : Queue} (step : Queue.Step q q') (valid : q.Valid) : q'.Valid := by
  cases step with
  | append record next data =>
    refine ⟨valid.ordered.concat valid.below (by omega) data, ?_, ?_⟩
    · refine forall_mem_snoc (fun r older => (valid.below r older).trans (Nat.le_succ _)) ?_
      rw [Record.upper, data]
      exact next.le
    · refine forall_mem_snoc valid.positive ?_
      rw [next]
      exact Nat.succ_pos _
  | collapse front back reason split some_record widened =>
    rename_i gap
    have ordered : Ordered (front ++ back) := split ▸ valid.ordered
    obtain ⟨_, same, given, spans, ⟨first, older, starts⟩, ⟨last, newer, ends⟩, covers⟩ :=
      ordered.left.gap some_record reason
    cases widened.symm.trans same
    refine ⟨ordered.collapse some_record widened, ?_, ?_⟩
    · intro r mem
      rcases mem_cons.mp mem with rfl | later
      · have ended : (marker gap).upper = last.upper := ends
        rw [ended]
        exact valid.below last (split ▸ mem_append_left back newer)
      · exact valid.below r (split ▸ mem_append_right front later)
    · intro r mem
      rcases mem_cons.mp mem with rfl | later
      · have started : (marker gap).sequence = first.sequence := starts
        rw [started]
        exact valid.positive first (split ▸ mem_append_left back older)
      · exact valid.positive r (split ▸ mem_append_right front later)
  | release front back split =>
    have inside : ∀ r ∈ back, r ∈ q.records := fun r mem =>
      split ▸ mem_append_right front mem
    have ordered : Ordered (front ++ back) := split ▸ valid.ordered
    exact ⟨ordered.right, fun r mem => valid.below r (inside r mem),
      fun r mem => valid.positive r (inside r mem)⟩

lemma Queue.Step.lastSeq_le {q q' : Queue} (step : Queue.Step q q') : q.lastSeq ≤ q'.lastSeq := by
  cases step with
  | append record next data => exact Nat.le_succ _
  | collapse front back reason split some_record widened => exact le_rfl
  | release front back split => exact le_rfl

end TechStack.Telemetry
