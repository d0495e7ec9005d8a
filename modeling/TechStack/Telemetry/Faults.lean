import TechStack.Telemetry.Refinement

/-!
# The spool under faults

What is left of a spool when file operations fail and processes die.  The directory is
described by cells, whatever the spool remembers of them:

* `Shape` — the cells start where their names say, and their records are in order;
* `Intact` — the files hold them, and no other segment file holds a record;
* `Tracked` — what the open spool remembers of the cells: `last` may be behind the file by
  a record whose append failed, and a segment may be left without records.

Every operation leaves such a directory, if the run meets `Tolerable`, and with it every
record that was taken.
-/

namespace TechStack.Telemetry

open Std (ExtTreeMap)
open List Lib Io Lines Files

variable {codec : Codec} {oracle : Oracle Site String} {dir dir' : Dir} {trace : List Event}
  {s : Spool} {c : Cell} {cells gone rest : List Cell}

/-! ### Shape -/

/-- What is true of each cell of a spool by itself. -/
structure Cell.Upright (c : Cell) : Prop where
  named : c.seg.path = segmentName c.seg.first
  starts : ∀ x ∈ c.records.head?, x.sequence = c.seg.first
  bound : c.seg.first < 2 ^ 63

/-- Cells as a spool has them, in the order of their names. -/
structure Shape (cells : List Cell) : Prop where
  upright : ∀ c ∈ cells, c.Upright
  /-- Each cell starts above all that the ones before it stand for. -/
  apart : cells.Pairwise fun a b =>
    a.seg.first < b.seg.first ∧ ∀ x ∈ a.records, x.upper < b.seg.first
  ordered : Ordered (recordsOf cells)
  /-- Only the first of all records may be a marker. -/
  data : ∀ x ∈ (recordsOf cells).tail, x.gap = none
  small : ∀ x ∈ recordsOf cells, x.upper < 2 ^ 63

variable {x : Record}

lemma mem_recordsOf : x ∈ recordsOf cells ↔ ∃ c ∈ cells, x ∈ c.records :=
  mem_flatMap

variable {gap : Gap} {sequence : ℕ}

namespace Shape

lemma nil : Shape [] := ⟨by simp, .nil, .nil, by simp, by simp⟩

lemma right (shape : Shape (gone ++ rest)) : Shape rest := by
  have part : (recordsOf rest).Sublist (recordsOf (gone ++ rest)) := by
    rw [recordsOf_append]
    exact sublist_append_right _ _
  exact .mk (fun c mem => shape.upright c (mem_append_right gone mem))
    (pairwise_append.mp shape.apart).2.1 (shape.ordered.sublist part)
    (fun x later => shape.data x (part.tail.subset later))
    fun x mem => shape.small x (part.subset mem)

section

variable (shape : Shape cells)
include shape

lemma own (mem : c ∈ cells) : Ordered c.records := by
  refine shape.ordered.sublist ?_
  obtain ⟨front, back, rfl⟩ := append_of_mem mem
  rw [recordsOf_append, recordsOf_cons]
  exact (sublist_append_left _ _).trans (sublist_append_right _ _)

/-- A cell does not hold records below its start. -/
lemma first_le (mem : c ∈ cells) (listed : x ∈ c.records) :
    c.seg.first ≤ x.sequence := by
  obtain ⟨head, tail, records⟩ := exists_cons_of_ne_nil (ne_nil_of_mem listed)
  have start : head.sequence = c.seg.first := (shape.upright c mem).starts head (by simp [records])
  rw [← start]
  have own := shape.own mem
  rw [records] at listed own
  rcases mem_cons.mp listed with rfl | later
  · exact le_rfl
  · exact (pairwise_cons.mp own.sequences).1 x later |>.le

/-- A marker stands at the start of its cell. -/
lemma marker_starts (mem : c ∈ cells) (listed : x ∈ c.records) (marked : x.gap ≠ none)
    : x.sequence = c.seg.first := by
  obtain ⟨front, back, rfl⟩ := append_of_mem mem
  obtain ⟨before, after, records⟩ := append_of_mem listed
  refine (shape.upright c mem).starts x ?_
  have whole : recordsOf (front ++ c :: back) =
      (recordsOf front ++ before) ++ x :: (after ++ recordsOf back) := by simp [records]
  have alone : recordsOf front ++ before = [] := by
    by_contra some_record
    obtain ⟨head, tail, split⟩ := exists_cons_of_ne_nil some_record
    refine marked (shape.data x ?_)
    rw [whole, split]
    simp
  rw [records, (append_eq_nil_iff.mp alone).2]
  rfl

/-- Names tell cells apart. -/
lemma distinct : (paths cells).Nodup := by
  refine pairwise_map.mpr (shape.apart.imp_of_mem fun {a b} first second less => ?_)
  rw [(shape.upright a first).named, (shape.upright b second).named]
  have bound : b.seg.first < 10 ^ 20 := ((shape.upright b second).bound).trans (by norm_num)
  exact (segmentName_lt less.1 bound).ne

/-- A marker at the head of data. -/
lemma mark (ordered : Ordered (marker gap :: recordsOf cells))
    (data : ∀ x ∈ recordsOf cells, x.gap = none)
    (below : ∀ c ∈ cells, gap.toSequence < c.seg.first) (small : gap.toSequence < 2 ^ 63) :
    Shape (withMarker codec gap cells) := by
  have spans : gap.fromSequence ≤ gap.toSequence := (ordered.markers _ (.head _) gap rfl).2
  have records : recordsOf (withMarker codec gap cells) = marker gap :: recordsOf cells := by
    cases cells <;> rfl
  refine .mk ?_ ?_ (records ▸ ordered) (records ▸ data) ?_
  · have new {c : Cell} (named : c.seg.path = segmentName gap.fromSequence)
        (first : c.seg.first = gap.fromSequence) (head : c.records.head? = some (marker gap)) :
        c.Upright := by
      refine ⟨first ▸ named, ?_, first ▸ spans.trans_lt small⟩
      rw [head, first]
      rintro x ⟨⟩
      rfl
    cases cells with
    | nil => exact forall_mem_singleton.mpr (new rfl rfl rfl)
    | cons c rest =>
      exact forall_mem_cons.mpr
        ⟨new rfl rfl rfl, fun d later => shape.upright d (.tail _ later)⟩
  · cases cells with
    | nil => simp [withMarker]
    | cons c rest =>
      obtain ⟨apart, others⟩ := pairwise_cons.mp shape.apart
      refine pairwise_cons.mpr ⟨fun d later => ?_, others⟩
      have above := below d (.tail _ later)
      refine ⟨spans.trans_lt above, fun x listed => ?_⟩
      rcases mem_cons.mp listed with rfl | old
      · exact above
      · exact (apart d later).2 x old
  · rw [records]
    exact forall_mem_cons.mpr ⟨small, shape.small⟩

end

/-- A part of the oldest cell. -/
lemma cut (shape : Shape (c :: rest)) (some_record : (c.after codec sequence).records ≠ []) :
    Shape (c.after codec sequence :: rest) := by
  have part : (c.after codec sequence).records.Sublist c.records := filter_sublist
  have whole : (recordsOf (c.after codec sequence :: rest)).Sublist (recordsOf (c :: rest)) :=
    part.append_right _
  obtain ⟨head, tail, kept⟩ := exists_cons_of_ne_nil some_record
  have first : (c.after codec sequence).seg.first = head.sequence := by
    have : c.records.filter (fun record => record.sequence > sequence) = head :: tail := kept
    simp [Cell.after, this]
  have mem : head ∈ c.records := part.subset (kept ▸ .head _)
  have upper : head.sequence ≤ head.upper :=
    shape.ordered.sequence_le_upper (mem_recordsOf.mpr ⟨c, .head _, mem⟩)
  obtain ⟨apart, others⟩ := pairwise_cons.mp shape.apart
  refine .mk (forall_mem_cons.mpr ⟨⟨rfl, fun x starts => ?_, ?_⟩,
      fun d later => shape.upright d (.tail _ later)⟩)
    (pairwise_cons.mpr ⟨fun d later => ⟨?_, fun x listed => ?_⟩, others⟩)
    (shape.ordered.sublist whole) (fun x later => shape.data x (whole.tail.subset later))
    fun x mem => shape.small x (whole.subset mem)
  · rw [kept] at starts
    obtain rfl : head = x := by simpa using starts
    exact first.symm
  · rw [first]
    exact upper.trans_lt (shape.small head (mem_recordsOf.mpr ⟨c, .head _, mem⟩))
  · rw [first]
    exact upper.trans_lt ((apart d later).2 head mem)
  · exact (apart d later).2 x (part.subset listed)

/-- A new cell at the end, still without records. -/
lemma push (shape : Shape cells) (named : c.seg.path = segmentName c.seg.first)
    (empty : c.records = []) (above : ∀ d ∈ cells, d.seg.first < c.seg.first)
    (reached : ∀ x ∈ recordsOf cells, x.upper < c.seg.first) (bound : c.seg.first < 2 ^ 63) :
    Shape (cells ++ [c]) := by
  have records : recordsOf (cells ++ [c]) = recordsOf cells := by simp [empty]
  have new : c.Upright := ⟨named, by rw [empty]; rintro x ⟨⟩, bound⟩
  refine .mk (forall_mem_snoc shape.upright new)
    (pairwise_append.mpr ⟨shape.apart, pairwise_singleton _ _, ?_⟩)
    (records ▸ shape.ordered) (records ▸ shape.data) (records ▸ shape.small)
  intro d old b added
  rw [mem_singleton.mp added]
  exact ⟨above d old, fun x listed => reached x (mem_recordsOf.mpr ⟨d, old, listed⟩)⟩

/-- A record more at the end of the last cell. -/
lemma concat {front : List Cell} {c' : Cell} {last : ℕ} (shape : Shape (front ++ [c]))
    (same : c'.seg.path = c.seg.path ∧ c'.seg.first = c.seg.first)
    (records : c'.records = c.records ++ [x]) (data : x.gap = none)
    (starts : c.records = [] → x.sequence = c.seg.first)
    (below : ∀ y ∈ recordsOf (front ++ [c]), y.upper ≤ last) (next : x.sequence = last + 1)
    (bound : last + 1 < 2 ^ 63) : Shape (front ++ [c']) := by
  have upper : x.upper = x.sequence := by simp [Record.upper, data]
  have all : recordsOf (front ++ [c']) = recordsOf (front ++ [c]) ++ [x] := by simp [records]
  have newest : c ∈ front ++ [c] := by simp
  have new : c'.Upright := by
    refine ⟨?_, fun y first => ?_, same.2 ▸ (shape.upright c newest).bound⟩
    · rw [same.1, same.2]
      exact (shape.upright c newest).named
    · rw [records] at first
      rw [same.2]
      by_cases empty : c.records = []
      · rw [empty] at first
        obtain rfl : x = y := by simpa using first
        exact starts empty
      · rw [head?_append_of_ne_nil _ empty] at first
        exact (shape.upright c newest).starts y first
  refine .mk
    (forall_mem_snoc (fun d old => shape.upright d (mem_append_left _ old)) new) ?_
    (all ▸ shape.ordered.concat below (next ▸ Nat.lt_succ_self last) data) ?_ ?_
  · obtain ⟨older, -, across⟩ := pairwise_append.mp shape.apart
    refine pairwise_append.mpr ⟨older, pairwise_singleton _ _, fun d old b added => ?_⟩
    rw [mem_singleton.mp added, same.2]
    exact across d old c (mem_singleton_self c)
  · rw [all]
    intro y later
    cases older : recordsOf (front ++ [c]) with
    | nil =>
      rw [older] at later
      cases later
    | cons head tail =>
      rw [older] at later
      rcases mem_append.mp later with old | added
      · exact shape.data y (by rwa [older])
      · rw [mem_singleton.mp added, data]
  · rw [all]
    refine forall_mem_snoc shape.small ?_
    rw [upper, next]
    exact bound

end Shape

/-! ### Files -/

/-- The segment files of the directory are those of the cells, and perhaps some without
records. -/
structure Intact (codec : Codec) (dir : Dir) (cells : List Cell) : Prop extends Shape cells where
  filed : Filed isSegment (fun c => c.seg.path) (fun c => Holding codec c.seg.path c.records)
    (fun name file => file = none ∨ Holding codec name [] file) dir cells

variable {bytes : Bytes}

namespace Intact

lemma empty : Intact codec ∅ [] := ⟨.nil, by simp, by simp⟩

section

variable (intact : Intact codec dir cells)
include intact

lemma held : Held codec dir cells := intact.filed.own

lemma others {name : String} (segment : isSegment name = true) (present : dir[name]? = some bytes)
    (other : name ∉ paths cells) : Holds codec dir name [] :=
  (intact.filed.others name segment other).resolve_left (by simp [present])

lemma storable (x : Record) (listed : x ∈ recordsOf cells) : Storable codec x := by
  obtain ⟨c, mem, inside⟩ := mem_recordsOf.mp listed
  exact (intact.held c mem).storable x inside

lemma trimmed (lawful : codec.Lawful) (trimmed : Trimmed codec dir dir') :
    Intact codec dir' cells := by
  refine ⟨intact.toShape, intact.held.trimmed lawful trimmed, fun name segment other => ?_⟩
  rcases intact.filed.others name segment other with absent | blank
  · rcases trimmed name with same | ⟨records, holds, -⟩
    · exact .inl (same.trans absent)
    · obtain ⟨tail, -, file⟩ := holds.file
      cases absent.symm.trans file
  · exact .inr (trimmed.holds lawful blank)

/-- The file of one cell is written. -/
lemma put {cells' : List Cell} {data : Bytes} (c : Cell) (shape : Shape cells') (mem : c ∈ cells')
    (same : ∀ d ∈ cells', d ≠ c → d ∈ cells) (known : ∀ name ∈ paths cells, name ∈ paths cells')
    (holds : Holding codec c.seg.path c.records (some data)) :
    Intact codec (dir.insert c.seg.path data) cells' :=
  ⟨shape, intact.filed.put c shape.distinct mem same known holds⟩

lemma insert_other {name : String} (other : isSegment name = false) :
    Intact codec (dir.insert name bytes) cells :=
  ⟨intact.toShape, intact.filed.insert_other (fun c mem => (intact.held c mem).segment) other⟩

end

/-- The oldest cells are removed. -/
lemma removed (intact : Intact codec dir (gone ++ rest)) :
    Intact codec (removed (paths gone) dir) rest :=
  ⟨intact.toShape.right, intact.filed.removed intact.distinct fun _ => .inl rfl⟩

/-- The oldest cell takes another form, perhaps under another name. -/
lemma move {c' : Cell} {data : Bytes} (intact : Intact codec dir (c :: rest))
    (shape : Shape (c' :: rest)) (holds : Holding codec c'.seg.path c'.records (some data)) :
    Intact codec (moved c'.seg.path c.seg.path data dir) (c' :: rest) :=
  ⟨shape, intact.filed.move intact.distinct shape.distinct (fun _ => .inl rfl) holds⟩

/-- The only cell is a marker. -/
lemma alone (intact : Intact codec dir []) (shape : Shape (withMarker codec gap []))
    (storable : Storable codec (marker gap)) :
    Intact codec (dir.insert (segmentName gap.fromSequence) (encodeLine codec (marker gap)))
      (withMarker codec gap []) := by
  refine intact.put _ shape (.head _) (fun d mem other => absurd (mem_singleton.mp mem) other)
    (by simp [paths]) ⟨isSegment_segmentName _, ?_, [], torn_nil, ?_⟩
  · exact forall_mem_singleton.mpr storable
  · simp

end Intact

/-! ### What is remembered -/

/-- The record is there, or a marker says that it was dropped. -/
def Present (r : Record) (records : List Record) : Prop :=
  r ∈ records ∨ ∃ x ∈ records, ∃ gap, x.gap = some gap ∧
    gap.fromSequence ≤ r.sequence ∧ r.sequence ≤ gap.toSequence

/-- What was taken, data without exception, and not released is present. -/
structure Keeps (appended : List Record) (floor : ℕ) (records : List Record) : Prop where
  plain : ∀ r ∈ appended, r.gap = none
  present : ∀ r ∈ appended, floor < r.sequence → Present r records

/-- What the open spool remembers of a cell. -/
structure Cell.Followed (lastSeq : ℕ) (appended : List Record) (floor : ℕ) (c : Cell) : Prop where
  last : c.seg.last = 0 ∨ ∃ x ∈ c.records, x.sequence = c.seg.last
  /-- Nothing that has to be kept lies behind what is remembered. -/
  reach : ∀ x ∈ c.records, x.gap = none → x ∈ appended → floor < x.sequence →
    x.sequence ≤ c.seg.last
  /-- A cell without records waits for the next sequence. -/
  empty : c.records = [] → c.seg.first = lastSeq + 1

/-- What the open spool remembers of the cells. -/
structure Tracked (s : Spool) (appended : List Record) (floor : ℕ) (cells : List Cell) : Prop where
  segs : s.segs = cells.map Cell.seg
  each : ∀ c ∈ cells, c.Followed s.lastSeq appended floor

/-- An open spool that has kept what it has taken. -/
structure Alive (codec : Codec) (dir : Dir) (s : Spool) (appended : List Record) (floor : ℕ)
    (cells : List Cell) : Prop where
  intact : Intact codec dir cells
  keeps : Keeps appended floor (recordsOf cells)
  tracked : Tracked s appended floor cells

/-- What is left when an operation has ended: an open spool, or the directory of a process
that died. -/
def Survives (codec : Codec) (appended : List Record) (floor : ℕ) : Option Spool → Dir → Prop
  | some s, dir => ∃ cells, Alive codec dir s appended floor cells
  | none, dir => ∃ cells, Intact codec dir cells ∧ Keeps appended floor (recordsOf cells)

/-- The process died when contents were published under another name and the old one was
not yet removed. -/
def Renaming (events : List Event) : Prop :=
  ∃ path old, path ≠ old ∧ events.getLast? = some (.published path old)

variable {floor' : ℕ} {reason : GapReason} {path : String}

section Remembering

variable {appended : List Record} {floor : ℕ}

lemma Keeps.mono {appended' records : List Record} (keeps : Keeps appended floor records)
    (fewer : ∀ r ∈ appended', r ∈ appended) (higher : floor ≤ floor')
    : Keeps appended' floor' records :=
  ⟨fun r taken => keeps.plain r (fewer r taken),
    fun r taken above => keeps.present r (fewer r taken) (higher.trans_lt above)⟩

lemma Tracked.mono {appended' : List Record} (tracked : Tracked s appended floor cells)
    (fewer : ∀ r ∈ appended', r ∈ appended) (higher : floor ≤ floor') :
    Tracked s appended' floor' cells :=
  ⟨tracked.segs, fun c mem => { tracked.each c mem with
    reach := fun x listed data taken above =>
      (tracked.each c mem).reach x listed data (fewer x taken) (higher.trans_lt above) }⟩

lemma Alive.mono {appended' : List Record} (alive : Alive codec dir s appended floor cells)
    (fewer : ∀ r ∈ appended', r ∈ appended) (higher : floor ≤ floor')
    : Alive codec dir s appended' floor' cells :=
  ⟨alive.intact, alive.keeps.mono fewer higher, alive.tracked.mono fewer higher⟩

lemma Alive.trimmed (alive : Alive codec dir s appended floor cells) (lawful : codec.Lawful)
    (trimmed : Trimmed codec dir dir') : Alive codec dir' s appended floor cells :=
  ⟨alive.intact.trimmed lawful trimmed, alive.keeps, alive.tracked⟩

/-- Without its oldest cells. -/
lemma Tracked.without (tracked : Tracked s appended floor (gone ++ rest)) :
    Tracked (s.without gone rest) appended floor rest :=
  ⟨rfl, fun c mem => tracked.each c (mem_append_right gone mem)⟩

/-- What is remembered of a cell lies below the next. -/
lemma Alive.last_lt (alive : Alive codec dir s appended floor (gone ++ c :: rest)) {d : Cell}
    (later : d ∈ rest) : c.seg.last < d.seg.first := by
  have mem : c ∈ gone ++ c :: rest := by simp
  obtain ⟨-, own, -⟩ := pairwise_append.mp alive.intact.apart
  have next := (pairwise_cons.mp own).1 d later
  rcases (alive.tracked.each c mem).last with zero | ⟨x, listed, last⟩
  · omega
  · have := next.2 x listed
    have := alive.intact.ordered.sequence_le_upper (mem_recordsOf.mpr ⟨c, mem, listed⟩)
    omega

/-- Records below an acknowledged sequence are not to be kept any more. -/
lemma Keeps.drop {front back : List Record} (keeps : Keeps appended floor (front ++ back))
    (data : ∀ x ∈ front, x ∈ appended → x.sequence ≤ floor)
    (markers : ∀ x ∈ front, ∀ gap, x.gap = some gap → gap.toSequence ≤ floor) :
    Keeps appended floor back := by
  refine ⟨keeps.plain, fun r taken above => ?_⟩
  rcases keeps.present r taken above with listed | ⟨x, listed, gap, marked, low, high⟩
  · refine .inl ((mem_append.mp listed).resolve_left fun old => ?_)
    exact absurd (data r old taken) (not_le.mpr above)
  · refine .inr ⟨x, (mem_append.mp listed).resolve_left fun old => ?_, gap, marked, low, high⟩
    exact absurd (high.trans (markers x old gap marked)) (not_le.mpr above)

/-! ### Acknowledging -/

/-- A sequence that was acknowledged, with all that the markers up to it stand for. -/
structure Released (floor sequence : ℕ) (records : List Record) : Prop where
  low : sequence ≤ floor
  markers : ∀ x ∈ records, x.sequence ≤ sequence → x.upper ≤ floor

/-- Cells below an acknowledged sequence hold nothing that has to be kept. -/
lemma Alive.keeps_rest (alive : Alive codec dir s appended floor (gone ++ rest))
    (released : Released floor sequence (recordsOf (gone ++ rest))) (below : Below sequence gone) :
    Keeps appended floor (recordsOf rest) := by
  have keeps := alive.keeps
  rw [recordsOf_append] at keeps
  refine keeps.drop (fun x listed taken => ?_) fun x listed gap marked => ?_
  · obtain ⟨c, mem, inside⟩ := mem_recordsOf.mp listed
    by_contra above
    have reached := (alive.tracked.each c (mem_append_left _ mem)).reach x inside
      (keeps.plain x taken) taken (not_le.mp above)
    exact above (reached.trans ((below c mem).2.trans released.low))
  · obtain ⟨c, mem, inside⟩ := mem_recordsOf.mp listed
    have whole : x ∈ recordsOf (gone ++ rest) := by
      rw [recordsOf_append]
      exact mem_append_left _ listed
    have start : x.sequence = c.seg.first :=
      alive.intact.marker_starts (mem_append_left _ mem) inside (by simp [marked])
    have upper : x.upper = gap.toSequence := by simp [Record.upper, marked]
    rw [← upper]
    exact released.markers x whole (start ▸ (below c mem).1)

/-- The oldest cells were acknowledged. -/
lemma Alive.without (alive : Alive codec dir s appended floor (gone ++ rest))
    (released : Released floor sequence (recordsOf (gone ++ rest))) (below : Below sequence gone) :
    Alive codec (removed (paths gone) dir) (s.without gone rest) appended floor rest :=
  ⟨alive.intact.removed, alive.keeps_rest released below, alive.tracked.without⟩

/-- A part of the oldest cell was acknowledged. -/
lemma Alive.cut (alive : Alive codec dir s appended floor (c :: rest))
    (released : Released floor sequence (recordsOf (c :: rest))) (last : sequence < c.seg.last)
    {s' : Spool} (segs : s'.segs = (c.after codec sequence :: rest).map Cell.seg)
    (same : s'.lastSeq = s.lastSeq) :
    Alive codec (moved (c.after codec sequence).seg.path c.seg.path
      (fileOf codec (c.after codec sequence).records) dir) s' appended floor
      (c.after codec sequence :: rest) := by
  have part : (c.after codec sequence).records.Sublist c.records := filter_sublist
  obtain ⟨first, others⟩ := forall_mem_cons.mp alive.tracked.each
  obtain ⟨x, listed, ends⟩ := first.last.resolve_left (by omega)
  have stays : x ∈ (c.after codec sequence).records :=
    mem_filter.mpr ⟨listed, by simpa [ends] using last⟩
  refine ⟨alive.intact.move (alive.intact.toShape.cut (ne_nil_of_mem stays)) ?_, ?_, ?_⟩
  · exact .of_whole (isSegment_segmentName _) fun r mem =>
      (alive.intact.held c (.head _)).storable r (part.subset mem)
  · have keeps := alive.keeps
    have own : Ordered c.records := alive.intact.own (.head _)
    rw [recordsOf_cons, ← own.upTo_append_after sequence, append_assoc] at keeps
    refine keeps.drop (fun y listed _ => ?_) fun y listed gap marked => ?_
    · exact (of_decide_eq_true (mem_filter.mp listed).2).trans released.low
    · obtain ⟨inside, low⟩ := mem_filter.mp listed
      have upper : y.upper = gap.toSequence := by simp [Record.upper, marked]
      rw [← upper]
      exact released.markers y (mem_append_left _ inside) (of_decide_eq_true low)
  · refine ⟨segs, same ▸ forall_mem_cons.mpr ⟨⟨.inr ⟨x, stays, ends⟩, ?_, ?_⟩, others⟩⟩
    · exact fun y mem => first.reach y (part.subset mem)
    · exact fun nothing => absurd nothing (ne_nil_of_mem stays)

/-- What is left of the cells, seen from the records in front that a marker is made of. -/
structure Cut (front : List Record) (cells cells' : List Cell) : Prop where
  part : (front ++ recordsOf cells').Sublist (recordsOf cells)
  below : ∀ x ∈ front, ∀ d ∈ cells', x.upper < d.seg.first

lemma Shape.without {front : List Record} (shape : Shape (gone ++ rest))
    (part : front.Sublist (recordsOf gone)) : Cut front (gone ++ rest) rest := by
  refine ⟨recordsOf_append ▸ part.append_right _, fun x listed d later => ?_⟩
  obtain ⟨c, mem, inside⟩ := mem_recordsOf.mp (part.subset listed)
  exact ((pairwise_append.mp shape.apart).2.2 c mem d later).2 x inside

/-- What `ackLocked` leaves. -/
def Acked (codec : Codec) (appended : List Record) (floor sequence : ℕ) (cells : List Cell) :
    Option (Spool × Option Fault) → Dir → List Event → Prop
  | none, dir, trace => ¬ Renaming trace → Survives codec appended floor none dir
  | some (s, some _), dir, _ => Survives codec appended floor (some s) dir
  | some (s, none), dir, _ =>
    ∃ cells', Alive codec dir s appended floor cells' ∧ Cut (refusedOf sequence cells) cells cells'

lemma reached_eq (below : ∀ c ∈ gone, c.seg.first ≤ sequence)
    (stops : ∀ c ∈ rest.head?, sequence < c.seg.first)
    : reached sequence (gone ++ rest) = gone := by
  have none_of_rest : rest.takeWhile (fun c => c.seg.first ≤ sequence) = [] := by
    cases rest with
    | nil => rfl
    | cons c rest => simp [stops c (by simp)]
  rw [reached, takeWhile_append_of_pos (by simpa using below), none_of_rest, append_nil]

/-- Cutting the cell in which the sequence lies. -/
lemma Alive.cut_of (alive : Alive codec dir s appended floor (gone ++ c :: rest))
    (below : ∀ d ∈ gone, d.seg.first ≤ sequence) (first : c.seg.first ≤ sequence)
    (last : sequence < c.seg.last) :
    Cut (refusedOf sequence (gone ++ c :: rest)) (gone ++ c :: rest)
      (c.after codec sequence :: rest) := by
  have reaches : reached sequence (gone ++ c :: rest) = gone ++ [c] := by
    rw [append_cons]
    refine reached_eq (forall_mem_snoc below first) fun d next => ?_
    exact last.trans (alive.last_lt (mem_of_mem_head? next))
  have refused : refusedOf sequence (gone ++ c :: rest) =
      upTo sequence (recordsOf gone) ++ upTo sequence c.records := by
    simp [refusedOf, reaches, upTo]
  have own : Ordered c.records := alive.intact.own (by simp)
  have part : (refusedOf sequence (gone ++ c :: rest) ++
      recordsOf (c.after codec sequence :: rest)).Sublist (recordsOf (gone ++ c :: rest)) := by
    have parted : upTo sequence c.records ++ (c.after codec sequence).records = c.records :=
      own.upTo_append_after sequence
    rw [refused, recordsOf_append, recordsOf_cons, recordsOf_cons, append_assoc,
      ← append_assoc (upTo sequence c.records), parted]
    exact filter_sublist.append_right _
  refine ⟨part, fun x listed d mem => ?_⟩
  rcases mem_cons.mp mem with rfl | later
  · -- The cell starts at the first record that is kept.
    obtain ⟨y, inside, ends⟩ := (alive.tracked.each c (by simp)).last.resolve_left (by omega)
    have stays : y ∈ (c.after codec sequence).records :=
      mem_filter.mpr ⟨inside, by simpa [ends] using last⟩
    obtain ⟨head, tail, kept⟩ := exists_cons_of_ne_nil (ne_nil_of_mem stays)
    have shape := alive.intact.toShape.right.cut (ne_nil_of_mem stays)
    rw [← (shape.upright _ (.head _)).starts head (by simp [kept])]
    refine (alive.intact.ordered.sublist part).across listed ?_
    simp [kept]
  · rw [refusedOf, reaches] at listed
    have shape := alive.intact.toShape
    rw [append_cons] at shape
    exact (shape.without filter_sublist).below x listed d later

lemma Alive.acked {result : Option (Spool × Option Fault)} {trace' : List Event}
    (alive : Alive codec dir s appended floor cells) (lawful : codec.Lawful)
    (released : Released floor sequence (recordsOf cells)) (removes : ¬ oracle.FailsAt .keptRemove)
    (post : AckPost codec oracle sequence dir s cells trace result dir' trace') :
    Acked codec appended floor sequence cells result dir' trace' := by
  cases post with
  | done gone rest split below stops =>
    subst split
    refine ⟨rest, alive.without released below, alive.intact.toShape.without ?_⟩
    rw [refusedOf, reached_eq (fun c mem => (below c mem).1) stops]
    exact filter_sublist
  | failed gone rest fault split below trimmed why =>
    subst split
    exact ⟨rest, (alive.without released below).trimmed lawful trimmed⟩
  | died gone rest split below trimmed why =>
    subst split
    have left := (alive.without released below).trimmed lawful trimmed
    exact fun _ => ⟨rest, left.intact, left.keeps⟩
  | cut gone c rest split below first last trimmed move =>
    subst split
    have left := (alive.without released below).trimmed lawful trimmed
    have released' : Released floor sequence (recordsOf (c :: rest)) := by
      refine ⟨released.low, fun x listed => released.markers x ?_⟩
      rw [recordsOf_append]
      exact mem_append_right _ listed
    cases move with
    | moved =>
      exact ⟨_, left.cut released' last rfl rfl, alive.cut_of (fun d mem => (below d mem).1) first last⟩
    | lingers other why => exact absurd why removes
    | failed cause why => exact ⟨c :: rest, left⟩
    | died why => exact fun _ => ⟨c :: rest, left.intact, left.keeps⟩
    | diedBetween other why =>
      exact fun orderly => absurd ⟨_, _, other, by simp⟩ orderly
    | diedAfter why =>
      have cut : Alive codec _ (s.cut gone c (c.after codec sequence) rest none).1 appended floor
          (c.after codec sequence :: rest) := left.cut released' last rfl rfl
      exact fun _ => ⟨_, cut.intact, cut.keeps⟩

/-! ### Placing a marker -/

lemma ne_nil_of_widen {front : List Record} (widened : widen reason none front = some gap) :
    front ≠ [] := by
  rintro rfl
  cases widened

lemma Cut.inside {front : List Record} {cells' : List Cell} (cut : Cut front cells cells')
    (listed : x ∈ front) : x ∈ recordsOf cells :=
  cut.part.subset (mem_append_left _ listed)

/-- The cells that are left, with the marker. -/
lemma Cut.mark_shape {front : List Record} {cells' : List Cell} (cut : Cut front cells cells')
    (shape : Shape cells) (left : Shape cells') (widened : widen reason none front = some gap)
    : Shape (withMarker codec gap cells') := by
  have ordered := shape.ordered.sublist cut.part
  have some_record := ne_nil_of_widen widened
  obtain ⟨_, same, -, -, -, ⟨last, newer, ends⟩, -⟩ := ordered.left.gap some_record reason
  cases widened.symm.trans same
  refine left.mark (ordered.collapse some_record widened) ?_ ?_ ?_
  · obtain ⟨head, tail, split⟩ := exists_cons_of_ne_nil some_record
    intro x listed
    refine shape.data x (cut.part.tail.subset ?_)
    rw [split]
    exact mem_append_right tail listed
  · intro d mem
    rw [ends]
    exact cut.below last newer d mem
  · rw [ends]
    exact shape.small last (cut.inside newer)

lemma recordsOf_withMarker :
    recordsOf (withMarker codec gap cells) = marker gap :: recordsOf cells := by
  cases cells <;> rfl

/-- A marker keeps what the records were kept for. -/
lemma Keeps.mark {front back : List Record} (keeps : Keeps appended floor (front ++ back))
    (ordered : Ordered front) (some_record : front ≠ [])
    (widened : widen reason none front = some gap) :
    Keeps appended floor (marker gap :: back) := by
  obtain ⟨_, same, -, -, -, -, covers⟩ := ordered.gap some_record reason
  cases widened.symm.trans same
  refine ⟨keeps.plain, fun r taken above => ?_⟩
  rcases keeps.present r taken above with listed | ⟨x, listed, g, marked, low, high⟩
  · rcases mem_append.mp listed with older | newer
    · obtain ⟨first, last⟩ := covers r older
      refine .inr ⟨marker gap, .head _, gap, rfl, first, ?_⟩
      exact (ordered.sequence_le_upper older).trans last
    · exact .inl (.tail _ newer)
  · rcases mem_append.mp listed with older | newer
    · obtain ⟨first, last⟩ := covers x older
      have upper : x.upper = g.toSequence := by simp [Record.upper, marked]
      have start := (ordered.markers x older g marked).1
      exact .inr ⟨marker gap, .head _, gap, rfl, by omega, by omega⟩
    · exact .inr ⟨x, .tail _ newer, g, marked, low, high⟩

lemma Tracked.mark (tracked : Tracked s appended floor cells) :
    Tracked (s.mark codec gap cells none).1 appended floor (withMarker codec gap cells) := by
  cases cells with
  | nil =>
    refine ⟨rfl, forall_mem_singleton.mpr ⟨?_, ?_, ?_⟩⟩
    · simp [marker]
    · simp [marker]
    · simp
  | cons c rest =>
    obtain ⟨first, others⟩ := forall_mem_cons.mp tracked.each
    refine ⟨rfl, forall_mem_cons.mpr ⟨⟨?_, ?_, by simp⟩, others⟩⟩
    · refine first.last.imp_right ?_
      rintro ⟨x, listed, ends⟩
      exact ⟨x, .tail _ listed, ends⟩
    · rintro x listed data
      rcases mem_cons.mp listed with rfl | old
      · cases data
      · exact first.reach x old data

/-- The marker is in place. -/
lemma Intact.marked {result : Option (Spool × Option Fault)}
    (intact : Intact codec dir (withMarker codec gap cells))
    (keeps : Keeps appended floor (marker gap :: recordsOf cells))
    (tracked : Tracked s appended floor cells)
    (either : result = none ∨ result = some (s.mark codec gap cells none)) :
    Survives codec appended floor (result.map Prod.fst) dir := by
  have keeps : Keeps appended floor (recordsOf (withMarker codec gap cells)) :=
    recordsOf_withMarker ▸ keeps
  rcases either with rfl | rfl
  · exact ⟨_, intact, keeps⟩
  · exact ⟨_, intact, keeps, tracked.mark⟩

/-- What `placeGapLocked` leaves: nothing is changed, or the marker is in place, or the
process died while the segment got its new name. -/
inductive Placed (codec : Codec) (gap : Gap) (dir : Dir) (s : Spool) (cells : List Cell)
    (trace : List Event) : Option (Spool × Option Fault) → Dir → List Event → Prop where
  | failed (fault : Fault) : Placed codec gap dir s cells trace (some (s, some fault)) dir trace
  | died : Placed codec gap dir s cells trace none dir trace
  | marked {dir' : Dir} {trace' : List Event} {result : Option (Spool × Option Fault)}
      (intact : Intact codec dir' (withMarker codec gap cells)) (told : .marked ∈ trace')
      (either : result = none ∨ result = some (s.mark codec gap cells none)) :
      Placed codec gap dir s cells trace result dir' trace'
  | between {dir' : Dir} {trace' : List Event} (dying : Renaming trace') :
      Placed codec gap dir s cells trace none dir' trace'

lemma Intact.placed {result : Option (Spool × Option Fault)} {trace' : List Event}
    (intact : Intact codec dir cells) (shape : Shape (withMarker codec gap cells))
    (storable : Storable codec (marker gap)) (removes : ¬ oracle.FailsAt .markerRemove)
    (post : PlacePost codec oracle gap dir s cells trace result dir' trace') :
    Placed codec gap dir s cells trace result dir' trace' := by
  cases post with
  | failed fault why => exact .failed fault
  | died why => exact .died
  | alone empty =>
    subst empty
    exact .marked (intact.alone shape storable) (by simp) (.inr rfl)
  | diedAlone empty why =>
    subst empty
    exact .marked (intact.alone shape storable) (by simp) (.inl rfl)
  | headed c rest tail split torn file move =>
    subst split
    have whole := intact.move shape ⟨isSegment_segmentName _,
      forall_mem_cons.mpr ⟨storable, (intact.held c (.head _)).storable⟩, tail, torn, rfl⟩
    cases move with
    | moved => exact .marked whole (by simp [moving]) (.inr rfl)
    | lingers other why => exact absurd why removes
    | failed cause why => exact .failed _
    | died why => exact .died
    | diedBetween other why => exact .between ⟨_, _, other, by simp⟩
    | diedAfter why => exact .marked whole (by simp [moving]) (.inl rfl)

/-! ### Calls -/

/-- The sites at which a failure is not met: a read that fails is taken for the end of the
file, and an old name that cannot be removed stays. -/
structure Steady (oracle : Oracle Site String) : Prop where
  reads : ¬ oracle.FailsAt .scanRead
  cuts : ¬ oracle.FailsAt .keptRemove
  marks : ¬ oracle.FailsAt .markerRemove

lemma Keeps.more {records records' : List Record} (keeps : Keeps appended floor records)
    (more : ∀ x ∈ records, x ∈ records') : Keeps appended floor records' := by
  refine ⟨keeps.plain, fun r taken above => ?_⟩
  rcases keeps.present r taken above with listed | ⟨y, listed, marked⟩
  · exact .inl (more r listed)
  · exact .inr ⟨y, more y listed, marked⟩

lemma Alive.survives (alive : Alive codec dir s appended floor cells) :
    ∀ either : Option Spool, (either = none ∨ either = some s) →
      Survives codec appended floor either dir := by
  rintro either (rfl | rfl)
  · exact ⟨cells, alive.intact, alive.keeps⟩
  · exact ⟨cells, alive⟩

variable (lawful : codec.Lawful) (steady : Steady oracle)

include lawful steady

lemma Alive.always_peek (alive : Alive codec dir s appended floor cells) (maxRecords maxBytes : ℕ) :
    Always oracle (peek codec s maxRecords maxBytes) dir trace fun result dir' _ =>
      Survives codec appended floor (result.map fun _ => s) dir' := by
  unfold peek
  rw [alive.tracked.segs]
  refine (always_peekSegments lawful steady.reads alive.intact.held).mono ?_
  rintro result dir' trace' ⟨post, -⟩
  cases post with
  | done trimmed | failed fault trimmed why =>
    exact (alive.trimmed lawful trimmed).survives _ (.inr rfl)
  | died trimmed why => exact (alive.trimmed lawful trimmed).survives _ (.inl rfl)

lemma Alive.always_ack (alive : Alive codec dir s appended floor cells)
    (released : Released floor sequence (recordsOf cells)) :
    Always oracle (ackSegments codec sequence s.segs s) dir trace
      (Acked codec appended floor sequence cells) := by
  rw [alive.tracked.segs]
  refine (always_ackSegments lawful steady.reads alive.tracked.segs alive.intact.held
    alive.intact.distinct).mono fun result dir' trace' post => ?_
  exact alive.acked lawful released steady.cuts post

/-- The marker of what was merged. -/
lemma Cut.always_place {front : List Record} {cells' : List Cell} (cut : Cut front cells cells')
    (intact : Intact codec dir cells) (left : Intact codec dir' cells')
    (segs : s.segs = cells'.map Cell.seg) (known : reason = .spoolBudget ∨ reason = .rejected)
    (widened : widen reason none front = some gap) :
    Always oracle (placeGapLocked codec s gap) dir' trace
      (Placed codec gap dir' s cells' trace) := by
  have fits : Storable codec (marker gap) :=
    storable_marker lawful known (intact.ordered.sublist cut.part).left
      (fun x listed => intact.storable x (cut.inside listed))
      (fun x listed => intact.small x (cut.inside listed)) (ne_nil_of_widen widened) widened
  refine (always_placeGap fits segs left.held).mono fun result dir' trace' post => ?_
  exact left.placed (cut.mark_shape intact.toShape left.toShape widened) fits steady.marks post

lemma Alive.always_discard (alive : Alive codec dir s appended floor cells)
    (released : Released floor sequence (recordsOf cells))
    (known : reason = .spoolBudget ∨ reason = .rejected) :
    Always oracle (discard codec s sequence reason) dir trace fun result dir' trace' =>
      ¬ Renaming trace' → Survives codec appended floor (result.map Prod.fst) dir' := by
  unfold discard
  refine always_bind ?_
  rw [alive.tracked.segs]
  refine (always_gatherGap lawful steady.reads alive.intact.held).mono ?_
  rintro result dir₁ trace₁ ⟨post, rfl⟩
  cases post with
  | failed fault trimmed why =>
    exact always_pure fun _ => (alive.trimmed lawful trimmed).survives _ (.inr rfl)
  | died trimmed why => exact fun _ => (alive.trimmed lawful trimmed).survives _ (.inl rfl)
  | done trimmed =>
    have trimmed := alive.trimmed lawful trimmed
    dsimp only
    rw [← alive.tracked.segs]
    refine always_bind ((trimmed.always_ack lawful steady released).mono ?_)
    rintro (_ | ⟨s', _ | fault⟩) dir₂ trace₂ acked
    · exact acked
    · obtain ⟨cells', left, cut⟩ := acked
      cases merged : widen reason none (refusedOf sequence cells) with
      | none => exact always_pure fun _ => ⟨cells', left⟩
      | some gap =>
        refine (cut.always_place lawful steady alive.intact left.intact left.tracked.segs known
          merged).mono ?_
        intro result dir' trace' placed orderly
        cases placed with
        | failed fault => exact ⟨cells', left⟩
        | died => exact ⟨cells', left.intact, left.keeps⟩
        | between dying => exact absurd dying orderly
        | marked intact told either =>
          exact intact.marked (left.keeps.more fun _ => .tail _) left.tracked either
    · exact always_pure fun _ => acked

omit lawful steady

/-! ### Appending -/

/-- An append that does not follow on one that failed: the newest file consists of whole
lines, and nothing is on disk that the spool does not know of.  Where a new segment is
started, no segment is left over, its file holds nothing, and it can be opened. -/
structure Fresh (codec : Codec) (oracle : Oracle Site String) (dir : Dir) (s : Spool)
    (record : Record) : Prop where
  whole : ∀ newest ∈ s.segs.getLast?, ∀ bytes ∈ dir[newest.path]?,
    (parse codec bytes).2 = bytes.length
  low : ∀ x ∈ onDisk codec dir s, x.upper ≤ s.lastSeq
  room : s.lastSeq + 1 < 2 ^ 63
  new : (s.opened codec record).segs ≠ s.segs → (∀ seg ∈ s.segs, seg.first ≤ s.lastSeq) ∧
    (dir[segmentName (s.lastSeq + 1)]?).getD [] = [] ∧ ¬ oracle.FailsAt .appendOpen

lemma Alive.onDisk_eq (alive : Alive codec dir s appended floor cells) (lawful : codec.Lawful) :
    onDisk codec dir s = recordsOf cells := by
  have parsed : ∀ c ∈ cells, (parse codec ((dir[c.seg.path]?).getD [])).1 = c.records := by
    intro c mem
    obtain ⟨tail, torn, file⟩ := (alive.intact.held c mem).file
    rw [file, Option.getD_some, parse_fileOf lawful (alive.intact.held c mem).storable torn]
  rw [onDisk, alive.tracked.segs, flatMap_map, recordsOf]
  exact flatMap_congr parsed

lemma insertIfNew_eq (blank : (dir[path]?).getD [] = []) :
    dir.insertIfNew path [] = dir.insert path [] := by
  refine ExtTreeMap.ext_getElem? fun name => ?_
  rw [lookup_insert, lookup_opened, blank]

lemma insertIfNew_present (present : dir[path]? = some bytes) :
    dir.insertIfNew path [] = dir := by
  refine ExtTreeMap.ext_getElem? fun name => ?_
  rw [lookup_opened]
  split_ifs with same
  · rw [← same, present]
    rfl
  · rfl

/-- The cells when the file to append to is open: the newest takes the line. -/
structure Opened (codec : Codec) (dir : Dir) (s : Spool) (record : Record) (appended : List Record)
    (floor : ℕ) (cells front : List Cell) (c : Cell) : Prop where
  alive : Alive codec (dir.insertIfNew (s.target codec record) []) (s.opened codec record) appended
    floor (front ++ [c])
  records : recordsOf (front ++ [c]) = recordsOf cells
  path : s.target codec record = c.seg.path
  file : (dir[s.target codec record]?).getD [] = fileOf codec c.records
  unchanged : (s.opened codec record).segs = s.segs →
    dir.insertIfNew (s.target codec record) [] = dir

/-- A segment that is started. -/
def startedCell (sequence : ℕ) : Cell := ⟨⟨segmentName sequence, sequence, 0, 0⟩, []⟩

/-- The line goes to the newest segment, or a new one is started. -/
lemma opened_cases (codec : Codec) (s : Spool) (record : Record) :
    ((s.opened codec record).segs = s.segs ∧ s.segs ≠ []) ∨ (s.opened codec record).segs =
      s.segs ++ [(startedCell (s.lastSeq + 1)).seg] := by
  simp only [Spool.opened, withActive]
  cases newest : s.segs.getLast? with
  | none => exact .inr (by simp [getLast?_eq_none_iff.mp newest, startedCell])
  | some seg =>
    dsimp only
    split_ifs with fits
    · refine .inl ⟨rfl, fun none => ?_⟩
      rw [none] at newest
      cases newest
    · exact .inr rfl

lemma Alive.opened_newest {record : Record} {front : List Cell}
    (alive : Alive codec dir s appended floor (front ++ [c])) (lawful : codec.Lawful)
    (fresh : Fresh codec oracle dir s record) (same : (s.opened codec record).segs = s.segs) :
    Opened codec dir s record appended floor (front ++ [c]) front c := by
  have mem : c ∈ front ++ [c] := by simp
  have last : s.segs.getLast? = some c.seg := by simp [alive.tracked.segs]
  have path : s.target codec record = c.seg.path := by simp [Spool.target, same, last]
  obtain ⟨tail, torn, file⟩ := (alive.intact.held c mem).file
  have clean : tail = [] := by
    have whole := fresh.whole c.seg last _ file
    rw [parse_fileOf lawful (alive.intact.held c mem).storable torn] at whole
    simpa using whole
  rw [clean, append_nil] at file
  have unchanged : dir.insertIfNew (s.target codec record) [] = dir :=
    insertIfNew_present (path ▸ file)
  refine ⟨?_, rfl, path, by rw [path, file, Option.getD_some], fun _ => unchanged⟩
  rw [unchanged]
  exact ⟨alive.intact, alive.keeps, same.trans alive.tracked.segs, alive.tracked.each⟩

lemma Alive.opened_new {record : Record} (alive : Alive codec dir s appended floor cells)
    (lawful : codec.Lawful) (fresh : Fresh codec oracle dir s record)
    (started : (s.opened codec record).segs = s.segs ++ [(startedCell (s.lastSeq + 1)).seg]) :
    Opened codec dir s record appended floor cells cells (startedCell (s.lastSeq + 1)) := by
  obtain ⟨below, empty, -⟩ := fresh.new (by rw [started]; simp)
  have blank : (dir[(startedCell (s.lastSeq + 1)).seg.path]?).getD [] = [] := empty
  have path : s.target codec record = (startedCell (s.lastSeq + 1)).seg.path := by
    simp [Spool.target, started]
  have low := fresh.low
  rw [alive.onDisk_eq lawful] at low
  have shape : Shape (cells ++ [startedCell (s.lastSeq + 1)]) := by
    refine alive.intact.toShape.push rfl rfl (fun d mem => Nat.lt_succ_of_le (below d.seg ?_))
      (fun x mem => Nat.lt_succ_of_le (low x mem)) fresh.room
    rw [alive.tracked.segs]
    exact mem_map_of_mem mem
  have records : recordsOf (cells ++ [startedCell (s.lastSeq + 1)]) = recordsOf cells := by
    simp [startedCell]
  refine ⟨⟨?_, records ▸ alive.keeps, ?_⟩, records, path, path ▸ blank, ?_⟩
  · rw [path, insertIfNew_eq blank]
    refine alive.intact.put _ shape (by simp) (fun d mem other => ?_) (fun name old => ?_) ?_
    · exact (mem_append.mp mem).resolve_right fun new =>
        other (mem_singleton.mp new)
    · rw [paths_append]
      exact mem_append_left _ old
    · exact .of_whole (isSegment_segmentName _) (by simp [startedCell])
  · refine ⟨by simp [started, alive.tracked.segs], forall_mem_snoc alive.tracked.each ?_⟩
    exact ⟨.inl rfl, by simp [startedCell], fun _ => rfl⟩
  · intro same
    rw [started] at same
    simp at same

lemma Alive.opened {record : Record} (alive : Alive codec dir s appended floor cells)
    (lawful : codec.Lawful) (fresh : Fresh codec oracle dir s record) :
    ∃ front c, Opened codec dir s record appended floor cells front c := by
  rcases opened_cases codec s record with ⟨same, some_segment⟩ | started
  · have some_cell : cells ≠ [] := fun none => some_segment (by simp [alive.tracked.segs, none])
    obtain ⟨front, c, rfl⟩ := (eq_nil_or_concat' cells).resolve_left some_cell
    exact ⟨front, c, alive.opened_newest lawful fresh same⟩
  · exact ⟨cells, _, alive.opened_new lawful fresh started⟩

section Writing

variable {record : Record} {front : List Cell}

/-- Nothing that has to be kept has the next sequence. -/
lemma Keeps.not_taken (low : ∀ x ∈ recordsOf cells, x.upper ≤ s.lastSeq)
    (keeps : Keeps appended floor (recordsOf cells))
    (ordered : Ordered (recordsOf cells)) (taken : s.numbered record ∈ appended)
    (above : floor < (s.numbered record).sequence) : False := by
  have next : (s.numbered record).sequence = s.lastSeq + 1 := rfl
  rcases keeps.present _ taken above with listed | ⟨x, listed, gap, marked, -, high⟩
  · have := low _ listed
    have := ordered.sequence_le_upper listed
    omega
  · have := low x listed
    have upper : x.upper = gap.toSequence := by simp [Record.upper, marked]
    omega

variable (opened : Opened codec dir s record appended floor cells front c)
include opened

lemma Opened.wrote_eq (bytes : Bytes) : wrote codec s record bytes dir =
      (dir.insertIfNew (s.target codec record) []).insert c.seg.path
        (fileOf codec c.records ++ bytes) := by
  rw [wrote, opened.file, ← opened.path, insert_insertIfNew]

/-- Not even a whole line. -/
lemma Opened.torn (torn : Torn bytes) :
    Alive codec (wrote codec s record bytes dir) (s.opened codec record) appended floor
      (front ++ [c]) := by
  have held := opened.alive.intact.held c (by simp)
  refine ⟨?_, opened.alive.keeps, opened.alive.tracked⟩
  rw [opened.wrote_eq]
  exact opened.alive.intact.put c opened.alive.intact.toShape (by simp) (fun _ mem _ => mem)
    (fun _ => id) ⟨held.segment, held.storable, bytes, torn, rfl⟩

variable (low : ∀ x ∈ recordsOf cells, x.upper ≤ s.lastSeq) (data : record.gap = none)
  (room : s.lastSeq + 1 < 2 ^ 63) (storable : Storable codec (s.numbered record))
include low data room storable

/-- The whole line, whatever the spool then remembers of it. -/
lemma Opened.line {c' : Cell} (same : c'.seg.path = c.seg.path ∧ c'.seg.first = c.seg.first)
    (records : c'.records = c.records ++ [s.numbered record]) :
    Intact codec (wrote codec s record (encodeLine codec (s.numbered record)) dir)
      (front ++ [c']) := by
  have held := opened.alive.intact.held c (by simp)
  have shape : Shape (front ++ [c']) := by
    refine opened.alive.intact.toShape.concat same records data (fun empty => ?_)
      (fun x mem => low x (opened.records ▸ mem)) rfl room
    exact ((opened.alive.tracked.each c (by simp)).empty empty).symm
  have file : wrote codec s record (encodeLine codec (s.numbered record)) dir =
      (dir.insertIfNew (s.target codec record) []).insert c'.seg.path (fileOf codec c'.records) := by
    rw [opened.wrote_eq, same.1, records]
    simp
  rw [file]
  refine opened.alive.intact.put c' shape (by simp) (fun d mem other => ?_) ?_ ?_
  · have older := (mem_append.mp mem).resolve_right fun new =>
      other (mem_singleton.mp new)
    exact mem_append_left _ older
  · simp [same.1, paths]
  · refine .of_whole (same.1 ▸ held.segment) ?_
    rw [records]
    exact forall_mem_snoc held.storable storable

/-- The line is there, but the append returned an error: the spool does not know of it. -/
lemma Opened.unknown :
    Alive codec (wrote codec s record (encodeLine codec (s.numbered record)) dir)
      (s.opened codec record) appended floor
      (front ++ [⟨c.seg, c.records ++ [s.numbered record]⟩]) := by
  have tracked := opened.alive.tracked
  have ordered := opened.alive.intact.ordered
  have keeps := opened.alive.keeps
  refine ⟨opened.line low data room storable ⟨rfl, rfl⟩ rfl, ?_, ?_⟩
  · have all : recordsOf (front ++ [⟨c.seg, c.records ++ [s.numbered record]⟩]) =
        recordsOf (front ++ [c]) ++ [s.numbered record] := by simp
    rw [all]
    exact keeps.more fun _ => mem_append_left _
  · obtain ⟨older, newest⟩ := forall_mem_append.mp tracked.each
    have newest := newest c (.head _)
    refine ⟨by simp [tracked.segs], forall_mem_snoc older ⟨newest.last.imp_right ?_,
      forall_mem_snoc newest.reach fun plain taken above => ?_, by simp⟩⟩
    · rintro ⟨x, listed, ends⟩
      exact ⟨x, mem_append_left _ listed, ends⟩
    · rw [opened.records] at keeps ordered
      exact (keeps.not_taken low ordered taken above).elim

/-- A line that is written in part is torn, or the whole line. -/
lemma Opened.partly (lawful : codec.Lawful) (n : ℕ) : ∃ cells', Alive codec
      (wrote codec s record ((encodeLine codec (s.numbered record)).take n) dir)
      (s.opened codec record) appended floor cells' := by
  by_cases short : n < (encodeLine codec (s.numbered record)).length
  · exact ⟨_, opened.torn (torn_take (storable.reads lawful).line short)⟩
  · rw [take_of_length_le (not_lt.mp short)]
    exact ⟨_, opened.unknown low data room storable⟩

/-- The line is there, and the spool knows of it. -/
lemma Opened.grown :
    ∃ cells', Alive codec (wrote codec s record (encodeLine codec (s.numbered record)) dir)
      (s.grown codec record) (appended ++ [s.numbered record]) floor cells' := by
  have tracked := opened.alive.tracked
  have shape := opened.alive.intact.toShape
  have keeps := opened.alive.keeps
  have below : ∀ x ∈ recordsOf (front ++ [c]), x.sequence ≤ s.lastSeq := fun x listed =>
    (shape.ordered.sequence_le_upper listed).trans (low x (opened.records ▸ listed))
  have next : (s.numbered record).sequence = s.lastSeq + 1 := rfl
  refine ⟨front ++ [⟨{ c.seg with
    last := s.lastSeq + 1
    size := c.seg.size + (encodeLine codec (s.numbered record)).length },
    c.records ++ [s.numbered record]⟩], opened.line low data room storable ⟨rfl, rfl⟩ rfl, ?_, ?_⟩
  · have all : recordsOf (front ++ [⟨{ c.seg with
        last := s.lastSeq + 1
        size := c.seg.size + (encodeLine codec (s.numbered record)).length },
        c.records ++ [s.numbered record]⟩]) = recordsOf (front ++ [c]) ++ [s.numbered record] := by
      simp
    rw [all]
    refine ⟨forall_mem_snoc keeps.plain data, fun r taken above => ?_⟩
    · rcases mem_append.mp taken with old | new
      · exact (keeps.more fun _ => mem_append_left _).present r old above
      · exact .inl (mem_append_right _ new)
  · obtain ⟨older, newest⟩ := forall_mem_append.mp tracked.each
    refine ⟨by simp [Spool.grown, grow, tracked.segs], forall_mem_snoc (fun d old => ?_)
      ⟨.inr ⟨s.numbered record, by simp, rfl⟩, fun x listed _ _ _ => ?_, by simp⟩⟩
    · refine ⟨(older d old).last, fun x listed plain taken above => ?_, fun nothing => ?_⟩
      · have inside : x ∈ recordsOf (front ++ [c]) :=
          mem_recordsOf.mpr ⟨d, mem_append_left _ old, listed⟩
        have before : x ∈ appended := (mem_append.mp taken).resolve_right fun same => by
          have := below x inside
          rw [mem_singleton.mp same] at this
          omega
        exact (older d old).reach x listed plain before above
      · -- A cell without records would lie above the newest.
        have start := (older d old).empty nothing
        have apart := ((pairwise_append.mp shape.apart).2.2 d old c (by simp)).1
        have lastSeq : (s.opened codec record).lastSeq = s.lastSeq := rfl
        exfalso
        by_cases empty : c.records = []
        · have := (newest c (.head _)).empty empty
          omega
        · obtain ⟨x, rest, records⟩ := exists_cons_of_ne_nil empty
          have listed : x ∈ c.records := records ▸ .head _
          have := shape.first_le (by simp) listed
          have := below x (mem_recordsOf.mpr ⟨c, by simp, listed⟩)
          omega
    · rcases mem_append.mp listed with older | same
      · exact (below x (mem_recordsOf.mpr ⟨c, by simp, older⟩)).trans (Nat.le_succ _)
      · rw [mem_singleton.mp same, next]

end Writing

lemma Alive.saved (alive : Alive codec dir s appended floor cells) (s' : Spool) :
    Alive codec (saved codec s' dir) s appended floor cells :=
  ⟨alive.intact.insert_other (by decide +kernel), alive.keeps, alive.tracked⟩

/-- A dropped segment left its marker. -/
def Marks (events : List Event) : Prop :=
  ∀ path, Event.dropped path ∈ events → Event.marked ∈ events

/-- Without a marker nothing was dropped. -/
lemma Marks.none_dropped (marks : Marks ((paths gone).map Event.dropped)) : gone = [] := by
  cases gone with
  | nil => rfl
  | cons c gone =>
    have told := marks c.seg.path (by simp)
    simp at told

lemma Alive.always_enforce (alive : Alive codec dir s appended floor cells)
    (lawful : codec.Lawful) (steady : Steady oracle) :
    Always oracle (enforceBudgetLocked codec s) dir [] fun result dir' trace' =>
      ¬ Renaming trace' → Marks trace' → Survives codec appended floor (result.map Prod.fst) dir' := by
  unfold enforceBudgetLocked
  split_ifs with fits
  · exact always_pure fun _ _ => ⟨cells, alive⟩
  have whole : ∀ {dir₁ : Dir}, Trimmed codec (removed (paths []) dir) dir₁ →
      Alive codec dir₁ (s.without [] cells) appended floor cells := by
    intro dir₁ trimmed
    rw [s.without_nil alive.tracked.segs]
    exact alive.trimmed lawful trimmed
  rw [alive.tracked.segs]
  refine always_bind ((always_dropOldest lawful steady.reads alive.tracked.segs alive.intact.held
    alive.intact.distinct).mono ?_)
  intro result dir₁ trace₁ post
  cases post with
  | failed gone rest fault split trimmed why =>
    refine always_pure fun _ marks => ?_
    obtain rfl := marks.none_dropped
    obtain rfl : cells = rest := split
    exact ⟨cells, whole trimmed⟩
  | died gone rest split trimmed why =>
    intro _ marks
    obtain rfl := marks.none_dropped
    obtain rfl : cells = rest := split
    exact ⟨cells, (whole trimmed).intact, (whole trimmed).keeps⟩
  | done gone rest split trimmed left =>
    subst split
    cases merged : widen .spoolBudget none (recordsOf gone) with
    | none =>
      refine always_pure fun _ marks => ?_
      obtain rfl := marks.none_dropped
      exact ⟨rest, whole trimmed⟩
    | some gap =>
      have some_record := ne_nil_of_widen merged
      have dropped : ¬ Marks ((paths gone).map Event.dropped) := fun marks =>
        some_record (by rw [marks.none_dropped]; rfl)
      have cut : Cut (recordsOf gone) (gone ++ rest) rest := alive.intact.toShape.without (.refl _)
      refine (cut.always_place lawful steady alive.intact (alive.intact.removed.trimmed lawful trimmed)
        rfl (.inl rfl) merged).mono ?_
      intro result dir' trace' placed orderly marks
      cases placed with
      | failed fault => exact absurd marks dropped
      | died => exact absurd marks dropped
      | between dying => exact absurd dying orderly
      | marked intact told either =>
        have keeps : Keeps appended floor (recordsOf gone ++ recordsOf rest) :=
          recordsOf_append ▸ alive.keeps
        have ordered := alive.intact.ordered.sublist cut.part
        exact intact.marked (keeps.mark ordered.left some_record merged) alive.tracked.without either

/-- What is left when an append has ended, which may have taken its record. -/
lemma Alive.always_append {atTime : ℤ} {samples : List Sample} {drives : Option Bytes}
    (alive : Alive codec dir s appended floor cells) (lawful : codec.Lawful) (steady : Steady oracle)
    (fresh : Fresh codec oracle dir s
      { sequence := 0, «at» := atTime, samples := samples, driveHealth := drives }) :
    Always oracle (appendDrives codec s atTime samples drives) dir [] fun result dir' trace' =>
      ¬ Renaming trace' → Marks trace' →
        Survives codec (appended ++ result.elim [] fun answer => (Answer.appended answer.2).taken)
          floor (result.map Prod.fst) dir' := by
  have low : ∀ x ∈ recordsOf cells, x.upper ≤ s.lastSeq := alive.onDisk_eq lawful ▸ fresh.low
  obtain ⟨front, c, opened⟩ := alive.opened lawful fresh
  unfold appendDrives
  refine always_bind (Telemetry.always_append.mono ?_)
  rintro result dir₁ trace₁ ⟨post, rfl⟩
  cases post with
  | refused fault why =>
    refine always_pure fun _ _ => ?_
    simpa [Answer.taken] using alive.survives _ (.inr rfl)
  | unopened cause storable made why =>
    have unchanged := opened.unchanged (not_not.mp fun started => (fresh.new started).2.2 why)
    refine always_pure fun _ _ => ?_
    obtain rfl : dir₁ = dir := by
      rcases made with same | made
      · exact same
      · exact made.trans unchanged
    have left := opened.alive
    rw [unchanged] at left
    simpa [Answer.taken] using left.survives _ (.inr rfl)
  | broken cause n storable why =>
    obtain ⟨cells', left⟩ := opened.partly low rfl fresh.room storable lawful n
    refine always_pure fun _ _ => ?_
    simpa [Answer.taken] using left.survives _ (.inr rfl)
  | unsaved cause storable why =>
    obtain ⟨cells', left⟩ := opened.grown low rfl fresh.room storable
    refine always_pure fun _ _ => ?_
    have fewer := left.mono (fun r => mem_append_left _) le_rfl
    simpa [Answer.taken] using fewer.survives _ (.inr rfl)
  | done storable =>
    obtain ⟨cells', left⟩ := opened.grown low rfl fresh.room storable
    refine always_bind (((left.saved (s.grown codec _)).always_enforce lawful steady).mono ?_)
    rintro (_ | ⟨s', _ | fault⟩) dir' trace' enforced
    · intro orderly marks
      obtain ⟨cells'', intact, keeps⟩ := enforced orderly marks
      exact ⟨cells'', intact, keeps.mono (fun r taken => mem_append_left _ (by simpa using taken)) le_rfl⟩
    · refine always_pure fun orderly marks => ?_
      exact enforced orderly marks
    · refine always_pure fun orderly marks => ?_
      obtain ⟨cells'', left⟩ := enforced orderly marks
      exact ⟨cells'', left.mono
        (fun r taken => mem_append_left _ (by simpa [Answer.taken] using taken)) le_rfl⟩
  | diedOpening made why =>
    intro _ _
    rw [Option.elim_none, append_nil]
    rcases made with rfl | rfl
    · exact alive.survives _ (.inl rfl)
    · exact opened.alive.survives _ (.inl rfl)
  | diedWriting n storable why =>
    obtain ⟨cells', left⟩ := opened.partly low rfl fresh.room storable lawful n
    intro _ _
    rw [Option.elim_none, append_nil]
    exact left.survives _ (.inl rfl)
  | diedSaving storable why =>
    obtain ⟨cells', left⟩ := opened.grown low rfl fresh.room storable
    intro _ _
    rw [Option.elim_none, append_nil]
    exact ((left.saved _).mono (fun r => mem_append_left _) le_rfl).survives _ (.inl rfl)

/-! ### Opening -/

/-- A cell as `openSpool` takes it from its file. -/
def Cell.loaded (codec : Codec) (c : Cell) : Cell :=
  ⟨summary c.seg.path c.records (fileOf codec c.records).length, c.records⟩

/-- The cells that `openSpool` finds: those with records. -/
def loaded (codec : Codec) (cells : List Cell) : List Cell :=
  (cells.filter fun c => c.records ≠ []).map (Cell.loaded codec)

lemma mem_loaded {d : Cell} :
    d ∈ loaded codec cells ↔ ∃ c ∈ cells, c.records ≠ [] ∧ c.loaded codec = d := by
  simp [loaded, and_assoc]

lemma recordsOf_loaded : recordsOf (loaded codec cells) = recordsOf cells := by
  induction cells with
  | nil => rfl
  | cons c cells ih =>
    rw [recordsOf_cons, ← ih]
    by_cases empty : c.records = []
    · simp [loaded, empty]
    · simp [loaded, empty, Cell.loaded]

lemma Shape.load (shape : Shape cells) : Shape (loaded codec cells) := by
  have records : recordsOf (loaded codec cells) = recordsOf cells := recordsOf_loaded
  have first : ∀ c ∈ cells, c.records ≠ [] → (c.loaded codec).seg.first = c.seg.first := by
    intro c mem some_record
    obtain ⟨x, rest, records⟩ := exists_cons_of_ne_nil some_record
    have start := (shape.upright c mem).starts x (by simp [records])
    simpa [Cell.loaded, summary, records] using start
  refine .mk (fun d mem => ?_) ?_ (records ▸ shape.ordered) (records ▸ shape.data)
    (records ▸ shape.small)
  · obtain ⟨c, old, some_record, rfl⟩ := mem_loaded.mp mem
    have same := first c old some_record
    have upright := shape.upright c old
    exact ⟨same ▸ upright.named, same ▸ upright.starts, same ▸ upright.bound⟩
  · refine pairwise_map.mpr ((shape.apart.filter _).imp_of_mem fun {a b} left right apart => ?_)
    obtain ⟨left, some_left⟩ := mem_filter.mp left
    obtain ⟨right, some_right⟩ := mem_filter.mp right
    rw [first a left (of_decide_eq_true some_left), first b right (of_decide_eq_true some_right)]
    exact apart

/-- The cells that are found, with some of the files without records gone. -/
lemma Intact.load (intact : Intact codec dir cells) (lawful : codec.Lawful) {names : List String}
    (blank : ∀ name ∈ names, Holds codec dir name []) :
    Intact codec (Files.removed names dir) (loaded codec cells) := by
  have stays : ∀ c ∈ cells, c.records ≠ [] → c.seg.path ∉ names := fun c mem some_record inside =>
    some_record ((intact.held c mem).unique lawful (blank _ inside))
  refine ⟨intact.toShape.load, fun d mem => ?_, fun name segment other => ?_⟩
  · obtain ⟨c, old, some_record, rfl⟩ := mem_loaded.mp mem
    refine (intact.held c old).congr ?_
    rw [lookup_removed, if_neg (stays c old some_record)]
  · rw [lookup_removed]
    split_ifs with gone
    · exact .inl rfl
    by_cases listed : name ∈ paths cells
    · obtain ⟨c, mem, rfl⟩ := mem_map.mp listed
      have empty : c.records = [] := by
        by_contra some_record
        exact other (mem_map.mpr ⟨_, mem_loaded.mpr ⟨c, mem, some_record, rfl⟩, rfl⟩)
      exact .inr (empty ▸ intact.held c mem)
    · exact intact.filed.others name segment listed

/-- The segment files, by name; those with records are the cells. -/
lemma Intact.contents (intact : Intact codec dir cells) (lawful : codec.Lawful) :
    ∃ files : List Content, files.map Content.name = segmentNames dir ∧
      (∀ file ∈ files, Holds codec dir file.name file.records) ∧
      files.filter (fun file => file.records ≠ []) =
        (cells.filter fun c => c.records ≠ []).map fun c => ⟨c.seg.path, c.records⟩ := by
  have holds : ∀ name ∈ segmentNames dir, ∃ records, Holds codec dir name records := by
    intro name listed
    obtain ⟨present, segment⟩ := mem_filter.mp listed
    obtain ⟨bytes, file⟩ := Option.isSome_iff_exists.mp
      (ExtTreeMap.mem_iff_isSome_getElem?.mp (ExtTreeMap.mem_keys.mp present))
    by_cases inside : name ∈ paths cells
    · obtain ⟨c, mem, rfl⟩ := mem_map.mp inside
      exact ⟨_, intact.held c mem⟩
    · exact ⟨[], intact.others segment file inside⟩
  choose! records holds using holds
  have listed : ∀ c ∈ cells, c.seg.path ∈ segmentNames dir := by
    intro c mem
    obtain ⟨tail, -, file⟩ := (intact.held c mem).file
    refine mem_filter.mpr ⟨?_, (intact.held c mem).segment⟩
    rw [ExtTreeMap.mem_keys, ExtTreeMap.mem_iff_isSome_getElem?, file]
    rfl
  have same : ∀ c ∈ cells, records c.seg.path = c.records := fun c mem =>
    (holds _ (listed c mem)).unique lawful (intact.held c mem)
  refine ⟨(segmentNames dir).map fun name => ⟨name, records name⟩, ?_, ?_, ?_⟩
  · rw [map_map]
    exact map_id _
  · intro file mem
    obtain ⟨name, inside, rfl⟩ := mem_map.mp mem
    exact holds name inside
  · have names : (segmentNames dir).filter (fun name => records name ≠ []) =
        (cells.filter fun c => c.records ≠ []).map fun c => c.seg.path := by
      refine eq_of_sorted ((segmentNames_sorted dir).filter _) ?_ fun name => ?_
      · refine pairwise_map.mpr ((intact.apart.imp_of_mem ?_).filter _)
        intro a b first second apart
        rw [(intact.upright a first).named, (intact.upright b second).named]
        exact segmentName_lt apart.1 (((intact.upright b second).bound).trans (by norm_num))
      · simp only [mem_filter, mem_map, decide_eq_true_eq]
        constructor
        · rintro ⟨inside, some_record⟩
          by_cases known : name ∈ paths cells
          · obtain ⟨c, mem, rfl⟩ := mem_map.mp known
            exact ⟨c, ⟨mem, same c mem ▸ some_record⟩, rfl⟩
          · obtain ⟨tail, -, file⟩ := (holds name inside).file
            have blank := intact.others (holds name inside).segment file known
            exact absurd ((holds name inside).unique lawful blank) some_record
        · rintro ⟨c, ⟨mem, some_record⟩, rfl⟩
          exact ⟨listed c mem, (same c mem).symm ▸ some_record⟩
    rw [filter_map]
    change List.map _ ((segmentNames dir).filter fun name => records name ≠ []) = _
    rw [names, map_map]
    refine map_congr_left fun c mem => ?_
    simp [same c (mem_filter.mp mem).1]

/-- What is loaded of the files with records. -/
lemma load_segs (s : Spool) (files : List Content) : (s.load codec files).segs =
    s.segs ++ (files.filter fun file => file.records ≠ []).map (Content.segment codec) := by
  induction files generalizing s with
  | nil => simp [Spool.load]
  | cons file files ih =>
    have step : s.load codec (file :: files) = (s.load codec [file]).load codec files := rfl
    rw [step, ih]
    by_cases empty : file.records = []
    · simp [Spool.load, empty]
    · simp [Spool.load, empty]

lemma Intact.reopened {files : List Content} {cfg : Config} {random : Fin 12 → UInt8}
    (intact : Intact codec dir cells) (found : files.filter (fun file => file.records ≠ []) =
      (cells.filter fun c => c.records ≠ []).map fun c => ⟨c.seg.path, c.records⟩) :
    Tracked (reopened codec cfg random dir files) appended floor (loaded codec cells) := by
  refine ⟨?_, fun d mem => ?_⟩
  · rw [Telemetry.reopened, load_segs, found]
    simp only [nil_append, loaded, map_map]
    rfl
  obtain ⟨c, old, some_record, rfl⟩ := mem_loaded.mp mem
  have own := intact.own old
  obtain ⟨front, last, records⟩ := (eq_nil_or_concat' c.records).resolve_left some_record
  have ends : (c.loaded codec).seg.last = last.sequence := by simp [Cell.loaded, summary, records]
  refine ⟨.inr ⟨last, ?_, ends.symm⟩, fun x inside _ _ _ => ?_, fun nothing => ?_⟩
  · simp [Cell.loaded, records]
  · replace inside : x ∈ c.records := inside
    rw [ends]
    rw [records] at own inside
    rcases mem_append.mp inside with older | same
    · have := own.across older (mem_singleton_self last)
      have := own.left.sequence_le_upper older
      omega
    · rw [mem_singleton.mp same]
  · exact absurd nothing some_record

/-- What is left when a spool was opened, or not. -/
lemma Intact.always_open (intact : Intact codec dir cells)
    (keeps : Keeps appended floor (recordsOf cells)) (lawful : codec.Lawful)
    (reads : ¬ oracle.FailsAt .scanRead) (cfg : Config) (random : Fin 12 → UInt8) :
    Always oracle (openSpool codec cfg random) dir trace fun result dir' _ =>
      Survives codec appended floor (result.bind Except.toOption) dir' := by
  obtain ⟨files, names, holds, found⟩ := intact.contents lawful
  have records : recordsOf (loaded codec cells) = recordsOf cells := recordsOf_loaded
  have left : ∀ {dir₁ : Dir}, Emptied codec dir files dir₁ →
      Intact codec dir₁ (loaded codec cells) := by
    rintro dir₁ ⟨gone, blank, trimmed⟩
    exact (intact.load lawful fun name mem => holds _ (blank name mem)).trimmed lawful trimmed
  have other : isSegment stateFile = false := by decide +kernel
  refine (always_openSpool lawful reads names holds).mono ?_
  rintro result dir' trace' ⟨post, -⟩
  cases post with
  | done emptied =>
    exact ⟨_, (left emptied).insert_other other, records ▸ keeps, intact.reopened found⟩
  | failed fault emptied why => exact ⟨_, left emptied, records ▸ keeps⟩
  | died emptied saved why =>
    rcases saved with rfl | rfl
    · exact ⟨_, left emptied, records ▸ keeps⟩
    · exact ⟨_, (left emptied).insert_other other, records ▸ keeps⟩

end Remembering

end TechStack.Telemetry
