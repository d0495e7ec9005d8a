import TechStack.Telemetry.Operations
import TechStack.Telemetry.System

/-!
# The spool refines the queue

In a run without faults the directory is at every moment the picture of a list of
chunks: a segment file holds the lines of one chunk and nothing else, is named after its
first sequence, and the spool's summary of it is exact.  `Represents` says so; every
call keeps it, and what a call does to the concatenation of the chunks is one of the
steps of the queue (`Effect`).

Sequences are `int64`: a run is followed as long as the counter does not overflow.
-/

namespace TechStack.Telemetry

open Std (ExtTreeMap)
open List Lib Lines Files Spool

variable {codec : Codec} {oracle : Oracle Site String} {dir : Dir} {trace : List Event}
  {s : Spool} {chunk : List Record} {chunks : List (List Record)} {lastSeq : ℕ}

/-! ### Chunks -/

/-- The sequence that a chunk is named after. -/
def firstOf (chunk : List Record) : ℕ := (chunk.head?.map Record.sequence).getD 0

/-- The name of its file. -/
def chunkName (chunk : List Record) : String := segmentName (firstOf chunk)

/-- The exact summary of a chunk. -/
def cellOf (codec : Codec) (chunk : List Record) : Cell :=
  ⟨summary (chunkName chunk) chunk (fileOf codec chunk).length, chunk⟩

/-- The segments of a list of chunks. -/
def cellsOf (codec : Codec) (chunks : List (List Record)) : List Cell :=
  chunks.map (cellOf codec)

/-- Chunks of storable records in order, up to a last sequence. -/
structure Chunked (codec : Codec) (chunks : List (List Record)) (lastSeq : ℕ) : Prop where
  nonempty : ∀ chunk ∈ chunks, chunk ≠ []
  storable : ∀ r ∈ chunks.flatten, Storable codec r
  ordered : Ordered chunks.flatten
  below : ∀ r ∈ chunks.flatten, r.upper ≤ lastSeq
  bound : lastSeq < 2 ^ 63

/-- The segment files are those of the chunks. -/
abbrev Stored (codec : Codec) (dir : Dir) (chunks : List (List Record)) : Prop :=
  Filed isSegment chunkName (fun chunk file => file = some (fileOf codec chunk))
    (fun _ file => file = none) dir chunks

/-- The directory and the spool are the picture of a list of chunks. -/
structure Represents (codec : Codec) (dir : Dir) (s : Spool) (chunks : List (List Record)) :
    Prop where
  segs : s.segs = (cellsOf codec chunks).map Cell.seg
  total : s.total = sizes (cellsOf codec chunks)
  chunked : Chunked codec chunks s.lastSeq
  stored : Stored codec dir chunks
  state : dir[stateFile]? = some (codec.marshalState ⟨s.epoch, s.lastSeq⟩)
  epoch : ∃ random : Fin 12 → UInt8, s.epoch = hexEncode (List.ofFn random)

section Chunks

lemma firstOf_mem (some_record : chunk ≠ []) : ∃ r ∈ chunk, firstOf chunk = r.sequence := by
  obtain ⟨r, rest, rfl⟩ := exists_cons_of_ne_nil some_record
  exact ⟨r, .head _, rfl⟩

@[simp] lemma paths_cellsOf : paths (cellsOf codec chunks) = chunks.map chunkName := by
  simp [paths, cellsOf, cellOf, summary]

@[simp] lemma recordsOf_cellsOf : recordsOf (cellsOf codec chunks) = chunks.flatten := by
  simp [recordsOf, cellsOf, cellOf, flatMap_map, flatMap_id']

lemma sizes_cellsOf : sizes (cellsOf codec chunks) = (fileOf codec chunks.flatten).length := by
  simp only [sizes, cellsOf, map_map]
  induction chunks with
  | nil => rfl
  | cons chunk rest ih =>
    rw [map_cons, sum_cons, ih, flatten_cons]
    simp only [image_append, length_append, Nat.cast_add]
    rfl

@[simp] lemma cellsOf_append {front back : List (List Record)} :
    cellsOf codec (front ++ back) = cellsOf codec front ++ cellsOf codec back :=
  map_append

lemma isSegment_chunkName : isSegment (chunkName chunk) = true := isSegment_segmentName _

section

variable (chunked : Chunked codec chunks lastSeq)
include chunked

/-- Chunks start at increasing sequences. -/
lemma Chunked.firsts :
    (chunks.map firstOf).Pairwise (· < ·) := by
  rw [pairwise_map]
  refine (pairwise_flatten.mp chunked.ordered.sequences).2.imp_of_mem ?_
  intro a b older newer less
  obtain ⟨r, inside, first⟩ := firstOf_mem (chunked.nonempty a older)
  obtain ⟨r', inside', first'⟩ := firstOf_mem (chunked.nonempty b newer)
  rw [first, first']
  exact less r inside r' inside'

/-- Files are named in the order of their sequences. -/
lemma Chunked.names :
    (chunks.map chunkName).Pairwise (· < ·) := by
  have firsts := pairwise_map.mp chunked.firsts
  refine pairwise_map.mpr (firsts.imp_of_mem fun {a b} _ newer less => ?_)
  obtain ⟨r, inside, first⟩ := firstOf_mem (chunked.nonempty b newer)
  have listed : r ∈ chunks.flatten := mem_flatten_of_mem newer inside
  have small : firstOf b < 10 ^ 20 :=
    calc firstOf b = r.sequence := first
      _ ≤ r.upper := chunked.ordered.sequence_le_upper listed
      _ ≤ lastSeq := chunked.below r listed
      _ < 2 ^ 63 := chunked.bound
      _ < 10 ^ 20 := by norm_num
  exact segmentName_lt less small

lemma Chunked.distinct : (chunks.map chunkName).Nodup :=
  chunked.names.imp fun less => less.ne

end

lemma Chunked.right {gone rest : List (List Record)}
    (chunked : Chunked codec (gone ++ rest) lastSeq) : Chunked codec rest lastSeq := by
  have inside : ∀ r ∈ rest.flatten, r ∈ (gone ++ rest).flatten := fun r mem => by
    rw [flatten_append]
    exact mem_append_right _ mem
  refine ⟨fun chunk mem => chunked.nonempty chunk (mem_append_right _ mem),
    fun r mem => chunked.storable r (inside r mem), ?_,
    fun r mem => chunked.below r (inside r mem), chunked.bound⟩
  exact Ordered.right (flatten_append ▸ chunked.ordered)

/-! ### Files -/

lemma Stored.file (stored : Stored codec dir chunks) (mem : chunk ∈ chunks) :
    dir[chunkName chunk]? = some (fileOf codec chunk) := stored.own chunk mem

lemma Stored.of_present (stored : Stored codec dir chunks) {name : String} {bytes : Bytes}
    (segment : isSegment name = true) (present : dir[name]? = some bytes) :
    ∃ chunk ∈ chunks, chunkName chunk = name ∧ fileOf codec chunk = bytes := by
  have used : name ∈ chunks.map chunkName := by
    by_contra unused
    cases present.symm.trans (stored.others name segment unused)
  obtain ⟨chunk, mem, rfl⟩ := mem_map.mp used
  exact ⟨chunk, mem, rfl, Option.some.inj ((stored.file mem).symm.trans present)⟩

end Chunks

/-! ### The epoch -/

lemma utf8ByteSize_hexEncode (bytes : List UInt8) :
    (hexEncode bytes).utf8ByteSize = 2 * bytes.length := by
  have one : ∀ n < 16, (hexDigit n).utf8Size = 1 := by decide
  induction bytes with
  | nil => rfl
  | cons b rest ih =>
    have high : b.toNat / 16 < 16 := by
      have := b.toNat_lt
      omega
    simp only [hexEncode, String.utf8ByteSize_ofList] at ih ⊢
    simp only [flatMap_cons, cons_append, nil_append, String.utf8Len_cons,
      one _ high, one _ (Nat.mod_lt _ (by norm_num)), ih, length_cons]
    omega

/-! ### What the operations do to a represented spool -/

lemma stateFile_ne_segmentName (n : ℕ) : segmentName n ≠ stateFile := fun same => by
  have segment := isSegment_segmentName n
  rw [same] at segment
  exact absurd segment (by decide)

lemma stateFile_ne_chunkName (chunk : List Record) : chunkName chunk ≠ stateFile :=
  stateFile_ne_segmentName _

namespace Represents

variable {gone rest : List (List Record)} {gap : Gap}

section

variable (represents : Represents codec dir s chunks)
include represents

lemma epoch_size : s.epoch.utf8ByteSize = 24 := by
  obtain ⟨random, drawn⟩ := represents.epoch
  rw [drawn, utf8ByteSize_hexEncode, length_ofFn]

lemma held :
    Held codec dir (cellsOf codec chunks) := by
  intro c mem
  obtain ⟨chunk, inside, rfl⟩ := mem_map.mp mem
  exact .of_whole isSegment_chunkName
    (fun r listed => represents.chunked.storable r (mem_flatten_of_mem inside listed))
    (represents.stored.file inside)

lemma whole : Whole codec dir := by
  intro name bytes segment present
  obtain ⟨chunk, inside, named, file⟩ := represents.stored.of_present segment present
  exact ⟨chunk, fun r listed =>
    represents.chunked.storable r (mem_flatten_of_mem inside listed), file.symm⟩

lemma distinct :
    (paths (cellsOf codec chunks)).Nodup := by
  rw [paths_cellsOf]
  exact represents.chunked.distinct

end

/-- The oldest chunks go. -/
lemma drop (represents : Represents codec dir s (gone ++ rest)) :
    Represents codec (removed (gone.map chunkName) dir)
      (s.without (cellsOf codec gone) (cellsOf codec rest)) rest where
  segs := rfl
  total := by simp [without, represents.total]
  chunked := represents.chunked.right
  stored := represents.stored.removed represents.chunked.distinct fun _ => rfl
  state := by
    have kept : stateFile ∉ gone.map chunkName := fun mem => by
      obtain ⟨chunk, _, named⟩ := mem_map.mp mem
      exact stateFile_ne_segmentName _ named
    rw [lookup_removed, if_neg kept]
    exact represents.state
  epoch := represents.epoch

/-- The chunks with a marker at their head. -/
def marked (gap : Gap) : List (List Record) → List (List Record)
  | [] => [[marker gap]]
  | chunk :: rest => (marker gap :: chunk) :: rest

@[simp] lemma flatten_marked : (marked gap chunks).flatten = marker gap :: chunks.flatten := by
  cases chunks <;> simp [marked]

lemma withMarker_cellsOf (nonempty : ∀ chunk ∈ chunks, chunk ≠ []) :
    withMarker codec gap (cellsOf codec chunks) = cellsOf codec (marked gap chunks) := by
  cases chunks with
  | nil => simp [withMarker, cellsOf, cellOf, marked, summary, chunkName, firstOf, marker]
  | cons chunk rest =>
    obtain ⟨r, tail, rfl⟩ := exists_cons_of_ne_nil (nonempty chunk (.head _))
    simp [withMarker, cellsOf, cellOf, marked, summary, chunkName, firstOf, marker, Nat.add_comm]

section

variable (represents : Represents codec dir s chunks)
  (ordered : Ordered (marker gap :: chunks.flatten)) (storable : Storable codec (marker gap))
  (below : gap.toSequence ≤ s.lastSeq)
include represents ordered storable below

lemma chunked_marked : Chunked codec (marked gap chunks) s.lastSeq := by
  refine ⟨?_, ?_, flatten_marked ▸ ordered, ?_, represents.chunked.bound⟩
  · cases chunks with
    | nil => simp [marked]
    | cons first rest =>
      exact forall_mem_cons.mpr
        ⟨by simp, fun chunk later => represents.chunked.nonempty chunk (.tail _ later)⟩
  · rw [flatten_marked]
    exact forall_mem_cons.mpr ⟨storable, represents.chunked.storable⟩
  · rw [flatten_marked]
    exact forall_mem_cons.mpr ⟨below, represents.chunked.below⟩

/-- The spool after a marker is placed. -/
lemma marks {dir' : Dir} (stored : Stored codec dir' (marked gap chunks))
    (state : dir'[stateFile]? = dir[stateFile]?) :
    Represents codec dir' (s.mark codec gap (cellsOf codec chunks) none).1
      (marked gap chunks) := by
  refine ⟨?_, ?_, represents.chunked_marked ordered storable below, stored,
    state.trans represents.state, represents.epoch⟩
  · rw [← withMarker_cellsOf represents.chunked.nonempty]
    rfl
  · rw [← withMarker_cellsOf represents.chunked.nonempty]
    simp only [mark, represents.total]
    cases chunks with
    | nil => simp [withMarker, cellsOf]
    | cons chunk rest =>
      simp only [cellsOf, map_cons, withMarker, sizes_cons, Nat.cast_add]
      ring

end

/-- A marker alone. -/
lemma mark_alone (represents : Represents codec dir s [])
    (ordered : Ordered [marker gap]) (storable : Storable codec (marker gap))
    (below : gap.toSequence ≤ s.lastSeq) :
    Represents codec (dir.insert (segmentName gap.fromSequence) (encodeLine codec (marker gap)))
      (s.mark codec gap [] none).1 (marked gap []) := by
  have file : encodeLine codec (marker gap) = fileOf codec [marker gap] := by simp
  have named : segmentName gap.fromSequence = chunkName [marker gap] := rfl
  refine represents.marks ordered storable below ?_ ?_
  · rw [file, named]
    exact represents.stored.put [marker gap] (by simp [marked]) (.head _) (by simp [marked])
      (by simp) rfl
  · rw [lookup_insert, if_neg (stateFile_ne_segmentName _)]

/-- A marker in front of the oldest chunk. -/
lemma mark_head (represents : Represents codec dir s (chunk :: rest))
    (ordered : Ordered (marker gap :: (chunk :: rest).flatten))
    (storable : Storable codec (marker gap)) (below : gap.toSequence ≤ s.lastSeq) :
    Represents codec (moved (segmentName gap.fromSequence) (chunkName chunk)
        (fileOf codec (marker gap :: chunk)) dir)
      (s.mark codec gap (cellsOf codec (chunk :: rest)) none).1 (marked gap (chunk :: rest)) := by
  have named : segmentName gap.fromSequence = chunkName (marker gap :: chunk) := rfl
  refine represents.marks ordered storable below ?_
    (lookup_moved_of_ne (stateFile_ne_segmentName _) (stateFile_ne_chunkName chunk))
  rw [named]
  exact represents.stored.move represents.chunked.distinct
    (represents.chunked_marked ordered storable below).distinct (fun _ => rfl) rfl

/-- What is left of a chunk whose newest record stays. -/
lemma after_cellOf {sequence : ℕ} (some_record : chunk ≠ [])
    (last : sequence < (cellOf codec chunk).seg.last) :
    (cellOf codec chunk).after codec sequence =
        cellOf codec (chunk.filter fun r => r.sequence > sequence) ∧
      chunk.filter (fun r => r.sequence > sequence) ≠ [] := by
  obtain ⟨front, newest, rfl⟩ := (eq_nil_or_concat' chunk).resolve_left some_record
  have above : newest.sequence > sequence := by simpa [cellOf, summary] using last
  have ends : (front ++ [newest]).filter (fun r => r.sequence > sequence) =
      front.filter (fun r => r.sequence > sequence) ++ [newest] := by
    simp [filter_append, above]
  refine ⟨?_, by simp [ends]⟩
  simp [Cell.after, cellOf, summary, chunkName, firstOf, filter_append, above]

/-- The oldest chunk is cut. -/
lemma cut (represents : Represents codec dir s (chunk :: rest)) {sequence : ℕ}
    (last : sequence < (cellOf codec chunk).seg.last) :
    Represents codec
      (moved (chunkName (chunk.filter fun r => r.sequence > sequence)) (chunkName chunk)
        (fileOf codec (chunk.filter fun r => r.sequence > sequence)) dir)
      (s.cut [] (cellOf codec chunk) (cellOf codec (chunk.filter fun r => r.sequence > sequence))
        (cellsOf codec rest) none).1
      (chunk.filter (fun r => r.sequence > sequence) :: rest) := by
  have some_record := (after_cellOf (represents.chunked.nonempty chunk (.head _)) last).2
  have fewer : (chunk.filter (fun r => r.sequence > sequence) :: rest).flatten.Sublist
      (chunk :: rest).flatten := by
    simp
  have chunked : Chunked codec (chunk.filter (fun r => r.sequence > sequence) :: rest)
      s.lastSeq := by
    refine ⟨?_, fun r mem => represents.chunked.storable r (fewer.subset mem),
      represents.chunked.ordered.sublist fewer,
      fun r mem => represents.chunked.below r (fewer.subset mem), represents.chunked.bound⟩
    intro c mem
    rcases mem_cons.mp mem with rfl | later
    · exact some_record
    · exact represents.chunked.nonempty c (.tail _ later)
  refine ⟨rfl, ?_, chunked,
    represents.stored.move represents.chunked.distinct chunked.distinct (fun _ => rfl) rfl, ?_,
    represents.epoch⟩
  · simp only [Spool.cut, represents.total, cellsOf, map_cons, sizes_cons, sizes_nil]
    ring
  · exact (lookup_moved_of_ne (stateFile_ne_chunkName _) (stateFile_ne_chunkName chunk)).trans
      represents.state

variable {record : Record}

/-- The last summary after its chunk has grown. -/
lemma cellOf_concat (some_record : chunk ≠ []) : (cellOf codec (chunk ++ [record])).seg =
      { (cellOf codec chunk).seg with
        last := record.sequence
        size := (cellOf codec chunk).seg.size + (encodeLine codec record).length } := by
  obtain ⟨r, rest, rfl⟩ := exists_cons_of_ne_nil some_record
  have last : (r :: (rest ++ [record])).getLast? = some record := by
    rw [← cons_append, getLast?_concat]
  simp [cellOf, summary, chunkName, firstOf, Nat.add_assoc, last]

/-- The state file after it was written. -/
lemma state_saved {dir : Dir} (s : Spool) :
    (saved codec s dir)[stateFile]? = some (codec.marshalState ⟨s.epoch, s.lastSeq⟩) := by
  rw [saved, lookup_insert, if_pos rfl]

lemma stored_saved (stored : Stored codec dir chunks) (s : Spool) :
    Stored codec (saved codec s dir) chunks :=
  stored.insert_other (fun _ _ => isSegment_chunkName) (by decide)

section

variable (data : record.gap = none) (storable : Storable codec (s.numbered record))
  (room : s.lastSeq + 1 < 2 ^ 63)
include data storable room

/-- Chunks with one record more, at the end. -/
lemma chunked_append (represents : Represents codec dir s chunks) (more : List (List Record))
    (nonempty : ∀ chunk ∈ more, chunk ≠ [])
    (flat : more.flatten = chunks.flatten ++ [s.numbered record]) :
    Chunked codec more (s.lastSeq + 1) := by
  refine ⟨nonempty, ?_, ?_, ?_, room⟩
  · rw [flat]
    exact forall_mem_snoc represents.chunked.storable storable
  · rw [flat]
    exact represents.chunked.ordered.concat represents.chunked.below (Nat.lt_succ_self _) data
  · rw [flat]
    refine forall_mem_snoc (fun r old => (represents.chunked.below r old).trans (Nat.le_succ _)) ?_
    simp [Record.upper, numbered, data]

/-- A record that fits is written to the newest chunk. -/
lemma append_last {front : List (List Record)} (represents : Represents codec dir s (front ++ [chunk]))
    (fits : withActive s (s.lastSeq + 1) (encodeLine codec (s.numbered record)).length = s.segs) :
    Represents codec (saved codec (s.grown codec record)
        (wrote codec s record (encodeLine codec (s.numbered record)) dir))
      (s.grown codec record) (front ++ [chunk ++ [s.numbered record]]) := by
  have some_record : chunk ≠ [] := represents.chunked.nonempty chunk (by simp)
  have named : chunkName (chunk ++ [s.numbered record]) = chunkName chunk := by
    obtain ⟨r, rest, rfl⟩ := exists_cons_of_ne_nil some_record
    rfl
  have target : s.target codec record = chunkName chunk := by
    simp [target, opened, fits, represents.segs, cellsOf, cellOf, summary]
  have nonempty : ∀ c ∈ front ++ [chunk ++ [s.numbered record]], c ≠ [] :=
    forall_mem_snoc (fun c old => represents.chunked.nonempty c (mem_append_left _ old))
      (by simp)
  have chunked := represents.chunked_append data storable room
    (front ++ [chunk ++ [s.numbered record]]) nonempty (by simp)
  refine ⟨?_, ?_, chunked, stored_saved ?_ _, state_saved _, represents.epoch⟩
  · simp only [grown, opened, fits, represents.segs, grow]
    simp [cellsOf, cellOf_concat some_record, numbered]
  · simp only [grown, represents.total, cellsOf_append, sizes_append]
    simp [cellsOf, cellOf_concat some_record]
    ring
  · have file : (dir[s.target codec record]?).getD [] ++ encodeLine codec (s.numbered record) =
        fileOf codec (chunk ++ [s.numbered record]) := by
      rw [target, represents.stored.file (by simp)]
      simp
    rw [wrote, file, target, ← named]
    exact represents.stored.put _ chunked.distinct (by simp)
      (forall_mem_snoc (fun c old _ => mem_append_left _ old) fun other => absurd rfl other)
      (by simp [named]) rfl

/-- A record that does not fit starts a chunk. -/
lemma append_new (represents : Represents codec dir s chunks)
    (starts : withActive s (s.lastSeq + 1) (encodeLine codec (s.numbered record)).length =
      s.segs ++ [⟨segmentName (s.lastSeq + 1), s.lastSeq + 1, 0, 0⟩]) :
    Represents codec (saved codec (s.grown codec record)
        (wrote codec s record (encodeLine codec (s.numbered record)) dir))
      (s.grown codec record) (chunks ++ [[s.numbered record]]) := by
  have named : chunkName [s.numbered record] = segmentName (s.lastSeq + 1) := rfl
  have target : s.target codec record = chunkName [s.numbered record] := by
    simp [target, opened, starts, named]
  have nonempty : ∀ c ∈ chunks ++ [[s.numbered record]], c ≠ [] :=
    forall_mem_snoc represents.chunked.nonempty (by simp)
  have chunked := represents.chunked_append data storable room (chunks ++ [[s.numbered record]])
    nonempty (by simp)
  have unused : chunkName [s.numbered record] ∉ chunks.map chunkName := fun used => by
    have apart := chunked.distinct
    rw [map_append] at apart
    exact (nodup_append.mp apart).2.2 _ used _ (mem_map_of_mem (by simp)) rfl
  refine ⟨?_, ?_, chunked, stored_saved ?_ _, state_saved _, represents.epoch⟩
  · simp only [grown, opened, starts, represents.segs, grow]
    simp [cellsOf, cellOf, summary, chunkName, firstOf, numbered]
  · simp only [grown, represents.total, cellsOf_append, sizes_append]
    simp [cellsOf, cellOf, summary]
  · have file : (dir[s.target codec record]?).getD [] ++ encodeLine codec (s.numbered record) =
        fileOf codec [s.numbered record] := by
      rw [target, represents.stored.others _ isSegment_chunkName unused]
      simp
    rw [wrote, file, target]
    exact represents.stored.put _ chunked.distinct (by simp)
      (forall_mem_snoc (fun c old _ => old) fun other => absurd rfl other)
      (fun name old => by rw [map_append]; exact mem_append_left _ old) rfl

/-- A record is appended. -/
lemma append (represents : Represents codec dir s chunks) :
    ∃ chunks', chunks'.flatten = chunks.flatten ++ [s.numbered record] ∧
      Represents codec (saved codec (s.grown codec record)
          (wrote codec s record (encodeLine codec (s.numbered record)) dir))
        (s.grown codec record) chunks' := by
  rcases eq_nil_or_concat' chunks with rfl | ⟨front, chunk, rfl⟩
  · refine ⟨_, ?_, represents.append_new data storable room ?_⟩
    · simp
    · simp [withActive, represents.segs, cellsOf]
  · have newest : s.segs.getLast? = some (cellOf codec chunk).seg := by
      simp [represents.segs, cellsOf]
    by_cases fits : (cellOf codec chunk).seg.size + (encodeLine codec (s.numbered record)).length ≤
        s.cfg.segmentBytes
    · refine ⟨_, ?_, represents.append_last data storable room ?_⟩
      · simp
      · simp [withActive, newest, fits]
    · refine ⟨_, ?_, represents.append_new data storable room ?_⟩
      · simp
      · simp [withActive, newest, fits]

end

/-- The files that `openSpool` finds. -/
def contents (chunks : List (List Record)) : List Content :=
  chunks.map fun chunk => ⟨chunkName chunk, chunk⟩

lemma contents_names (represents : Represents codec dir s chunks) :
    (contents chunks).map Content.name = segmentNames dir := by
  have names : (contents chunks).map Content.name = chunks.map chunkName := by simp [contents]
  rw [names]
  refine (segmentNames_eq represents.chunked.names ?_ ?_).symm
  · intro name mem
    obtain ⟨chunk, _, rfl⟩ := mem_map.mp mem
    exact isSegment_chunkName
  · intro name segment
    constructor
    · intro present
      obtain ⟨bytes, file⟩ := Option.isSome_iff_exists.mp
        (ExtTreeMap.mem_iff_isSome_getElem?.mp present)
      obtain ⟨chunk, mem, named, _⟩ := represents.stored.of_present segment file
      exact mem_map.mpr ⟨chunk, mem, named⟩
    · intro mem
      obtain ⟨chunk, inside, rfl⟩ := mem_map.mp mem
      exact ExtTreeMap.mem_iff_isSome_getElem?.mpr (by rw [represents.stored.file inside]; rfl)

/-- Loading chunks that lie below the last sequence. -/
lemma load_contents (s : Spool) (nonempty : ∀ chunk ∈ chunks, chunk ≠ [])
    (below : ∀ r ∈ chunks.flatten, r.sequence ≤ s.lastSeq) :
    s.load codec (contents chunks) =
      { s with
        segs := s.segs ++ (cellsOf codec chunks).map Cell.seg
        total := s.total + sizes (cellsOf codec chunks) } := by
  induction chunks generalizing s with
  | nil => simp [contents, load, cellsOf]
  | cons chunk rest ih =>
    obtain ⟨front, newest, rfl⟩ :=
      (eq_nil_or_concat' chunk).resolve_left (nonempty chunk (.head _))
    have last : newest.sequence ≤ s.lastSeq := below newest (by simp)
    have same : (front ++ [newest]) ≠ [] := by simp
    simp only [load, contents, map_cons, foldl_cons, if_neg same]
    refine (ih _ (fun c mem => nonempty c (.tail _ mem)) ?_).trans ?_
    · intro r mem
      exact (below r (by simp only [flatten_cons, mem_append]; exact .inr mem)).trans
        (le_max_left _ _)
    · simp [cellsOf, cellOf, Content.segment, summary, last, Int.add_assoc]

/-- Reopening finds the spool that was left. -/
lemma reopened_eq (represents : Represents codec dir s chunks) (lawful : codec.Lawful)
    (cfg : Config) (random : Fin 12 → UInt8) :
    reopened codec cfg random dir (contents chunks) = { s with cfg := cfg } := by
  have kept : ¬ (s.epoch = "" ∨ s.epoch.utf8ByteSize > 64) := by
    have size := represents.epoch_size
    rintro (none | long)
    · rw [none] at size
      exact absurd size (by decide)
    · omega
  have state : readState codec random dir = ⟨s.epoch, s.lastSeq⟩ := by
    simp only [readState, represents.state, lawful.state, if_neg kept]
  rw [reopened, state, load_contents _ represents.chunked.nonempty ?_]
  · simp [← represents.segs, ← represents.total]
  · intro r mem
    exact (represents.chunked.ordered.sequence_le_upper mem).trans
      (represents.chunked.below r mem)

/-- The spool as it is after it was reopened. -/
lemma reopen (represents : Represents codec dir s chunks) (cfg : Config) :
    Represents codec (saved codec { s with cfg := cfg } dir) { s with cfg := cfg } chunks :=
  ⟨represents.segs, represents.total, represents.chunked, stored_saved represents.stored _,
    state_saved _, represents.epoch⟩

end Represents

end TechStack.Telemetry
