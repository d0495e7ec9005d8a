import TechStack.Telemetry.Queue
import TechStack.Telemetry.Segments

/-!
# What the spool's loops do

The specifications of the loops and of the marker placement, over the segments of a
spool and the records that their files hold.  Each says how the operation can end, and
what it leaves in the directory then; an end that only a fault explains says so.

* `always_dropOldest`, `always_ackSegments` — a number of the oldest segments went, and
  for the latter perhaps a part of one more;
* `always_gatherGap`, `always_peekSegments` — no file changes but for torn tails;
* `always_placeGap`, `always_append` — one file is published, or one line written.
-/

namespace TechStack.Telemetry

open Std (ExtTreeMap)
open Option List Lib Io Lines Files Spool

variable {codec : Codec} {oracle : Oracle Site String} {dir : Dir} {trace : List Event}

/-! ### Cells -/

/-- A segment with the records of its file. -/
structure Cell where
  seg : Segment
  records : List Record
  deriving DecidableEq

/-- The names of the files. -/
def paths (cells : List Cell) : List String := cells.map fun c => c.seg.path

/-- The records, from the oldest. -/
def recordsOf (cells : List Cell) : List Record := cells.flatMap Cell.records

/-- The bytes that the segments account for. -/
def sizes (cells : List Cell) : ℤ := (cells.map fun c => (c.seg.size : ℤ)).sum

/-- The files of the segments hold the records. -/
def Held (codec : Codec) (dir : Dir) (cells : List Cell) : Prop :=
  ∀ c ∈ cells, Holds codec dir c.seg.path c.records

section Cells

variable {c : Cell} {cells gone rest : List Cell}

@[simp] lemma paths_cons : paths (c :: cells) = c.seg.path :: paths cells := rfl

@[simp] lemma paths_append : paths (gone ++ rest) = paths gone ++ paths rest := map_append

@[simp] lemma recordsOf_nil : recordsOf [] = [] := rfl

@[simp] lemma recordsOf_cons : recordsOf (c :: cells) = c.records ++ recordsOf cells := rfl

@[simp] lemma recordsOf_append : recordsOf (gone ++ rest) = recordsOf gone ++ recordsOf rest :=
  flatMap_append

@[simp] lemma sizes_nil : sizes [] = 0 := rfl

@[simp] lemma sizes_cons : sizes (c :: cells) = c.seg.size + sizes cells := rfl

@[simp] lemma sizes_append : sizes (gone ++ rest) = sizes gone + sizes rest := by
  simp [sizes]

lemma Held.tail (held : Held codec dir (c :: cells)) : Held codec dir cells :=
  fun c' mem => held c' (.tail c mem)

lemma Held.head (held : Held codec dir (c :: cells)) : Holds codec dir c.seg.path c.records :=
  held c (.head cells)

lemma Held.trimmed {dir' : Dir} (held : Held codec dir cells) (lawful : codec.Lawful)
    (trimmed : Trimmed codec dir dir') : Held codec dir' cells :=
  fun c mem => trimmed.holds lawful (held c mem)

lemma Held.erase_head (held : Held codec dir (c :: cells))
    (distinct : (paths (c :: cells)).Nodup) : Held codec (dir.erase c.seg.path) cells := by
  intro c' mem
  have other : c.seg.path ≠ c'.seg.path := fun same =>
    (nodup_cons.mp distinct).1 (mem_map.mpr ⟨c', mem, same.symm⟩)
  exact (held.tail c' mem).congr (by rw [lookup_erase, if_neg other])

end Cells

/-- The spool without its oldest segments. -/
def Spool.without (s : Spool) (gone rest : List Cell) : Spool :=
  { s with segs := rest.map Cell.seg, total := s.total - sizes gone }

variable {s : Spool}

lemma Spool.without_nil {cells : List Cell} (segs : s.segs = cells.map Cell.seg) :
    s.without [] cells = s := by
  simp [without, ← segs]

lemma Spool.without_cons {c : Cell} {gone rest cells : List Cell} :
    ({ s with total := s.total - c.seg.size, segs := cells.map Cell.seg } : Spool).without gone rest =
      s.without (c :: gone) rest := by
  simp [without, sub_sub]

/-! ### Dropping the oldest -/

/-- How `dropOldest` ends: some of the oldest segments went, and their records are in the
marker. -/
inductive DropPost (codec : Codec) (oracle : Oracle Site String) (dir : Dir) (s : Spool)
    (cells : List Cell) (gap : Option Gap) (trace : List Event) :
    Option (Spool × Except Fault (Option Gap)) → Dir → List Event → Prop where
  | done (gone rest : List Cell) {dir' : Dir} (split : cells = gone ++ rest)
      (trimmed : Trimmed codec (removed (paths gone) dir) dir') (left : cells ≠ [] → rest ≠ []) :
      DropPost codec oracle dir s cells gap trace
        (some (s.without gone rest, .ok (widen .spoolBudget gap (recordsOf gone)))) dir'
        (trace ++ (paths gone).map Event.dropped)
  | failed (gone rest : List Cell) {dir' : Dir} (fault : Fault) (split : cells = gone ++ rest)
      (trimmed : Trimmed codec (removed (paths gone) dir) dir') (why : oracle.Fails) :
      DropPost codec oracle dir s cells gap trace (some (s.without gone rest, .error fault)) dir'
        (trace ++ (paths gone).map Event.dropped)
  | died (gone rest : List Cell) {dir' : Dir} (split : cells = gone ++ rest)
      (trimmed : Trimmed codec (removed (paths gone) dir) dir') (why : oracle.Dies) :
      DropPost codec oracle dir s cells gap trace none dir'
        (trace ++ (paths gone).map Event.dropped)

variable {gap : Option Gap} {dir₁ dir' : Dir}

/-- One segment more was dropped before. -/
lemma DropPost.cons (lawful : codec.Lawful) {c : Cell} {cells : List Cell} {trace' : List Event}
    {result : Option (Spool × Except Fault (Option Gap))} (trimmed : Trimmed codec dir dir₁)
    (more : cells ≠ []) (post : DropPost codec oracle (dir₁.erase c.seg.path)
      { s with total := s.total - c.seg.size, segs := cells.map Cell.seg } cells
      (widen .spoolBudget gap c.records) (trace ++ [.dropped c.seg.path]) result dir' trace') :
    DropPost codec oracle dir s (c :: cells) gap trace result dir' trace' := by
  have onwards : ∀ {gone : List Cell} {dir' : Dir},
      Trimmed codec (removed (paths gone) (dir₁.erase c.seg.path)) dir' →
        Trimmed codec (removed (paths (c :: gone)) dir) dir' :=
    fun {gone} _ later => (trimmed.removed (paths (c :: gone))).trans lawful later
  cases post with
  | done gone rest split later left =>
    rw [Spool.without_cons, ← widen_append, append_assoc]
    exact .done (c :: gone) rest (by rw [split, cons_append]) (onwards later) fun _ => left more
  | failed gone rest fault split later why =>
    rw [Spool.without_cons, append_assoc]
    exact .failed (c :: gone) rest fault (by rw [split, cons_append]) (onwards later) why
  | died gone rest split later why =>
    rw [append_assoc]
    exact .died (c :: gone) rest (by rw [split, cons_append]) (onwards later) why

lemma always_dropOldest (lawful : codec.Lawful) (reads : ¬ oracle.FailsAt .scanRead)
    {cells : List Cell} (segs : s.segs = cells.map Cell.seg) (held : Held codec dir cells)
    (distinct : (paths cells).Nodup) :
    Always oracle (dropOldest codec (cells.map Cell.seg) s gap) dir trace
      (DropPost codec oracle dir s cells gap trace) := by
  have stop : ∀ {dir : Dir} {s : Spool} {cells : List Cell} {gap : Option Gap}
      {trace : List Event}, s.segs = cells.map Cell.seg →
      DropPost codec oracle dir s cells gap trace (some (s, .ok gap)) dir trace := by
    intro dir s cells gap trace segs
    have post : DropPost codec oracle dir s cells gap trace _ dir _ :=
      .done [] cells rfl .refl id
    simpa [s.without_nil segs, paths, widen] using post
  -- The induction is on the segments, each being scanned, removed and merged in turn.
  induction cells generalizing dir s gap trace with
  | nil => exact always_pure (stop segs)
  | cons c cells ih =>
    simp only [map_cons, dropOldest]
    split
    next exceeds =>
      refine always_bind ((always_scan lawful reads held.head).mono ?_)
      rintro result dir₁ trace ⟨post, rfl⟩
      cases post with
      | failed fault trimmed why =>
        have post : DropPost codec oracle dir s (c :: cells) gap trace _ dir₁ _ :=
          .failed [] (c :: cells) fault rfl trimmed why
        simp only [s.without_nil segs, paths, map_nil, append_nil] at post
        exact always_pure post
      | died trimmed why =>
        have post : DropPost codec oracle dir s (c :: cells) gap trace none dir₁ _ :=
          .died [] (c :: cells) rfl trimmed why
        simpa [paths] using post
      | done trimmed =>
        refine always_bind (always_atomically ?_ ?_ ?_)
        · refine (ih rfl ((held.trimmed lawful trimmed).erase_head distinct)
            (nodup_cons.mp distinct).2).mono fun result dir' trace' post => ?_
          exact post.cons lawful trimmed fun none => exceeds.2 (none ▸ rfl)
        · intro cause fails
          have post : DropPost codec oracle dir s (c :: cells) gap trace _ dir₁ _ :=
            .failed [] (c :: cells) (.file cause) rfl trimmed ⟨_, fails⟩
          simp only [s.without_nil segs, paths, map_nil, append_nil] at post
          exact always_pure post
        · intro dies
          constructor
          · have post : DropPost codec oracle dir s (c :: cells) gap trace none dir₁ _ :=
              .died [] (c :: cells) rfl trimmed ⟨_, dies⟩
            simpa [paths] using post
          · exact .died [c] cells rfl (trimmed.removed [c.seg.path]) ⟨_, dies⟩
    next => exact always_pure (stop segs)

/-! ### Moving a file -/

variable {data : Bytes}

/-- What a complete move leaves in the trace. -/
def moving (path old : String) (events : List Event) : List Event :=
  events ++ .published path old :: if path = old then [] else [.unlinked old]

/-- How `moveTo` ends.  Both names are left when the removal fails, or the process dies
before it. -/
inductive MovePost (oracle : Oracle Site String) (drop : Site) (path old : String)
    (data : Bytes) (events : List Event) (dir : Dir) (trace : List Event) :
    Option (Option String) → Dir → List Event → Prop where
  | moved : MovePost oracle drop path old data events dir trace (some none)
      (moved path old data dir) (trace ++ moving path old events)
  | lingers (other : path ≠ old) (why : oracle.FailsAt drop) :
      MovePost oracle drop path old data events dir trace (some none)
        (dir.insert path data) (trace ++ (events ++ [.published path old]))
  | failed (cause : String) (why : oracle.Fails) :
      MovePost oracle drop path old data events dir trace (some (some cause)) dir trace
  | died (why : oracle.Dies) : MovePost oracle drop path old data events dir trace none dir trace
  | diedBetween (other : path ≠ old) (why : oracle.Dies) :
      MovePost oracle drop path old data events dir trace none
        (dir.insert path data) (trace ++ (events ++ [.published path old]))
  | diedAfter (why : oracle.Dies) :
      MovePost oracle drop path old data events dir trace none
        (Files.moved path old data dir) (trace ++ moving path old events)

lemma always_moveTo {put drop : Site} {path old : String} {events : List Event} :
    Always oracle (moveTo put drop path old data events) dir trace
      (MovePost oracle drop path old data events dir trace) := by
  unfold moveTo
  by_cases same : path = old
  · -- The file keeps its name: there is nothing to remove.
    subst same
    have dirs : dir.insert path data = moved path path data dir := (if_pos rfl).symm
    have told : events ++ [.published path path] = moving path path events := by simp [moving]
    refine always_bind (always_atomically ?_ ?_ ?_)
    · simp only [ne_eq, not_true_eq_false, if_false, dirs, told]
      exact always_bind (always_pure (always_pure .moved))
    · intro cause fails
      exact always_pure (.failed cause ⟨_, fails⟩)
    · intro dies
      rw [dirs, told]
      exact ⟨.died ⟨_, dies⟩, .diedAfter ⟨_, dies⟩⟩
  · have dirs : (dir.insert path data).erase old = moved path old data dir := (if_neg same).symm
    have told : trace ++ (events ++ [.published path old]) ++ [.unlinked old] =
        trace ++ moving path old events := by simp [moving, same]
    refine always_bind (always_atomically ?_ ?_ ?_)
    · simp only [ne_eq, same, not_false_eq_true, if_true]
      refine always_bind (always_atomically ?_ ?_ ?_)
      · rw [dirs, told]
        exact always_pure .moved
      · intro cause fails
        exact always_pure (.lingers same fails)
      · intro dies
        rw [dirs, told]
        exact ⟨.diedBetween same ⟨_, dies⟩, .diedAfter ⟨_, dies⟩⟩
    · intro cause fails
      exact always_pure (.failed cause ⟨_, fails⟩)
    · intro dies
      exact ⟨.died ⟨_, dies⟩, .diedBetween same ⟨_, dies⟩⟩

/-! ### Acknowledging -/

/-- What is left of a segment that is acknowledged in part. -/
def Cell.after (codec : Codec) (sequence : ℕ) (c : Cell) : Cell :=
  let kept := c.records.filter fun record => record.sequence > sequence
  let first := (kept.head?.map Record.sequence).getD 0
  ⟨⟨segmentName first, first, c.seg.last, (fileOf codec kept).length⟩, kept⟩

/-- The segments that lie below an acknowledged sequence. -/
def Below (sequence : ℕ) (gone : List Cell) : Prop :=
  ∀ c ∈ gone, c.seg.first ≤ sequence ∧ c.seg.last ≤ sequence

/-- The spool that `ackLocked` returns when it cuts a segment, or fails to. -/
def Spool.cut (s : Spool) (gone : List Cell) (c c' : Cell) (rest : List Cell) :
    Option String → Spool × Option Fault
  | some cause => (s.without gone (c :: rest), some (.file cause))
  | none => ({ s with
      segs := (c' :: rest).map Cell.seg
      total := s.total - sizes gone + (c'.seg.size - c.seg.size) }, none)

/-- How `ackLocked` ends: some of the oldest segments went, and perhaps a part of the
next. -/
inductive AckPost (codec : Codec) (oracle : Oracle Site String) (sequence : ℕ) (dir : Dir)
    (s : Spool) (cells : List Cell) (trace : List Event) :
    Option (Spool × Option Fault) → Dir → List Event → Prop where
  | done (gone rest : List Cell) (split : cells = gone ++ rest) (below : Below sequence gone)
      (stops : ∀ c ∈ rest.head?, sequence < c.seg.first) :
      AckPost codec oracle sequence dir s cells trace (some (s.without gone rest, none))
        (removed (paths gone) dir) trace
  | failed (gone rest : List Cell) {dir' : Dir} (fault : Fault) (split : cells = gone ++ rest)
      (below : Below sequence gone) (trimmed : Trimmed codec (removed (paths gone) dir) dir')
      (why : oracle.Fails) :
      AckPost codec oracle sequence dir s cells trace (some (s.without gone rest, some fault))
        dir' trace
  | died (gone rest : List Cell) {dir' : Dir} (split : cells = gone ++ rest)
      (below : Below sequence gone) (trimmed : Trimmed codec (removed (paths gone) dir) dir')
      (why : oracle.Dies) : AckPost codec oracle sequence dir s cells trace none dir' trace
  | cut (gone : List Cell) (c : Cell) (rest : List Cell) {dir₁ dir' : Dir}
      {result : Option (Option String)} {trace' : List Event}
      (split : cells = gone ++ c :: rest) (below : Below sequence gone)
      (first : c.seg.first ≤ sequence) (last : sequence < c.seg.last)
      (trimmed : Trimmed codec (removed (paths gone) dir) dir₁)
      (move : MovePost oracle .keptRemove (c.after codec sequence).seg.path c.seg.path
        (fileOf codec (c.after codec sequence).records) [] dir₁ trace result dir' trace') :
      AckPost codec oracle sequence dir s cells trace
        (result.map (s.cut gone c (c.after codec sequence) rest)) dir' trace'

variable {sequence : ℕ}

lemma Below.cons {c : Cell} {gone : List Cell} (first : c.seg.first ≤ sequence)
    (last : c.seg.last ≤ sequence) (below : Below sequence gone) : Below sequence (c :: gone) := by
  intro c' mem
  rcases mem_cons.mp mem with rfl | later
  · exact ⟨first, last⟩
  · exact below c' later

/-- One segment more was removed before. -/
lemma AckPost.cons {c : Cell} {cells : List Cell} {dir' : Dir} {trace' : List Event}
    {result : Option (Spool × Option Fault)} (first : c.seg.first ≤ sequence)
    (last : c.seg.last ≤ sequence) (post : AckPost codec oracle sequence (dir.erase c.seg.path)
      { s with total := s.total - c.seg.size, segs := cells.map Cell.seg } cells trace
      result dir' trace') :
    AckPost codec oracle sequence dir s (c :: cells) trace result dir' trace' := by
  cases post with
  | done gone rest split below stops =>
    rw [Spool.without_cons]
    exact .done (c :: gone) rest (by rw [split, cons_append]) (below.cons first last) stops
  | failed gone rest fault split below trimmed why =>
    rw [Spool.without_cons]
    exact .failed (c :: gone) rest fault (by rw [split, cons_append])
      (below.cons first last) trimmed why
  | died gone rest split below trimmed why =>
    exact .died (c :: gone) rest (by rw [split, cons_append]) (below.cons first last)
      trimmed why
  | cut gone c' rest split below reaches keeps trimmed move =>
    have same : ({ s with total := s.total - c.seg.size, segs := cells.map Cell.seg } : Spool).cut
        gone c' (c'.after codec sequence) rest =
        s.cut (c :: gone) c' (c'.after codec sequence) rest := by
      funext outcome
      cases outcome with
      | some cause => simp [Spool.cut, Spool.without_cons]
      | none => simp [Spool.cut, sub_sub]
    rw [same]
    exact .cut (c :: gone) c' rest (by rw [split, cons_append]) (below.cons first last)
      reaches keeps trimmed move

lemma always_ackSegments (lawful : codec.Lawful) (reads : ¬ oracle.FailsAt .scanRead)
    {cells : List Cell} (segs : s.segs = cells.map Cell.seg) (held : Held codec dir cells)
    (distinct : (paths cells).Nodup) :
    Always oracle (ackSegments codec sequence (cells.map Cell.seg) s) dir trace
      (AckPost codec oracle sequence dir s cells trace) := by
  have start : Below sequence [] := fun c mem => absurd mem (not_mem_nil)
  induction cells generalizing dir s trace with
  | nil =>
    have post : AckPost codec oracle sequence dir s [] trace _ _ _ :=
      .done [] [] rfl start (fun c mem => absurd mem (by simp))
    rw [s.without_nil segs] at post
    exact always_pure post
  | cons c cells ih =>
    simp only [map_cons, ackSegments]
    split_ifs with first last
    · refine always_bind (always_atomically ?_ ?_ ?_)
      · rw [append_nil]
        exact (ih rfl (held.erase_head distinct) (nodup_cons.mp distinct).2).mono
          fun result dir' trace' post => post.cons first last
      · intro cause fails
        have post : AckPost codec oracle sequence dir s (c :: cells) trace _ dir _ :=
          .failed [] (c :: cells) (.file cause) rfl start .refl ⟨_, fails⟩
        rw [s.without_nil segs] at post
        exact always_pure post
      · intro dies
        rw [append_nil]
        exact ⟨.died [] (c :: cells) rfl start .refl ⟨_, dies⟩,
          .died [c] cells rfl (start.cons first last) .refl ⟨_, dies⟩⟩
    · -- The segment is acknowledged in part.
      refine always_bind ((always_scan lawful reads held.head).mono ?_)
      rintro result dir₁ trace ⟨post, rfl⟩
      cases post with
      | failed fault trimmed why =>
        have post : AckPost codec oracle sequence dir s (c :: cells) trace _ dir₁ _ :=
          .failed [] (c :: cells) fault rfl start trimmed why
        rw [s.without_nil segs] at post
        exact always_pure post
      | died trimmed why => exact .died [] (c :: cells) rfl start trimmed why
      | done trimmed =>
        refine always_bind (always_moveTo.mono fun result dir' trace' move => ?_)
        have post := AckPost.cut (s := s) [] c cells rfl start first (not_le.mp last) trimmed move
        cases result with
        | none => exact post
        | some outcome =>
          cases outcome with
          | some cause =>
            have kept : s.cut [] c (c.after codec sequence) cells (some cause) =
                (s, some (.file cause)) := by
              rw [Spool.cut, s.without_nil segs]
            rw [map_some, kept] at post
            exact always_pure post
          | none =>
            have cut : s.cut [] c (c.after codec sequence) cells none = ({ s with
                  segs := (c.after codec sequence).seg :: cells.map Cell.seg
                  total := s.total + ((c.after codec sequence).seg.size - c.seg.size) },
                  none) := by
              simp [Spool.cut]
            rw [map_some, cut] at post
            exact always_pure post
    · have post : AckPost codec oracle sequence dir s (c :: cells) trace _ _ _ :=
        .done [] (c :: cells) rfl start (fun c' mem => by
          cases mem
          exact not_le.mp first)
      rw [s.without_nil segs] at post
      exact always_pure post

/-! ### Reading without removing -/

/-- How a loop ends that only scans: with its answer, or failed, or dead. -/
inductive ReadPost {α : Type} (codec : Codec) (oracle : Oracle Site String) (dir : Dir)
    (answer : Except Fault α) : Option (Except Fault α) → Dir → Prop where
  | done {dir' : Dir} (trimmed : Trimmed codec dir dir') :
      ReadPost codec oracle dir answer (some answer) dir'
  | failed {dir' : Dir} (fault : Fault) (trimmed : Trimmed codec dir dir') (why : oracle.Fails) :
      ReadPost codec oracle dir answer (some (.error fault)) dir'
  | died {dir' : Dir} (trimmed : Trimmed codec dir dir') (why : oracle.Dies) :
      ReadPost codec oracle dir answer none dir'

lemma ReadPost.after {α : Type} (lawful : codec.Lawful) {answer : Except Fault α}
    {result : Option (Except Fault α)} (first : Trimmed codec dir dir₁)
    (post : ReadPost codec oracle dir₁ answer result dir') :
    ReadPost codec oracle dir answer result dir' := by
  cases post with
  | done trimmed => exact .done (first.trans lawful trimmed)
  | failed fault trimmed why => exact .failed fault (first.trans lawful trimmed) why
  | died trimmed why => exact .died (first.trans lawful trimmed) why

/-- The segments that `Discard` looks at. -/
def reached (sequence : ℕ) (cells : List Cell) : List Cell :=
  cells.takeWhile fun c => c.seg.first ≤ sequence

/-- The records that `Discard` merges into its marker. -/
def refusedOf (sequence : ℕ) (cells : List Cell) : List Record :=
  (recordsOf (reached sequence cells)).filter fun record => record.sequence ≤ sequence

lemma always_gatherGap (lawful : codec.Lawful) (reads : ¬ oracle.FailsAt .scanRead)
    {reason : GapReason} {cells : List Cell} (held : Held codec dir cells) :
    Always oracle (gatherGap codec sequence reason (cells.map Cell.seg) gap) dir trace
      fun result dir' trace' =>
        ReadPost codec oracle dir (.ok (widen reason gap (refusedOf sequence cells))) result dir' ∧
          trace' = trace := by
  induction cells generalizing dir gap with
  | nil => exact always_pure ⟨.done .refl, rfl⟩
  | cons c cells ih =>
    simp only [map_cons, gatherGap]
    split_ifs with above
    · have nothing : refusedOf sequence (c :: cells) = [] := by
        simp [refusedOf, reached, not_le.mpr above]
      rw [nothing]
      exact always_pure ⟨.done .refl, rfl⟩
    · have more : refusedOf sequence (c :: cells) =
          c.records.filter (fun record => record.sequence ≤ sequence) ++
            refusedOf sequence cells := by
        simp [refusedOf, reached, not_lt.mp above]
      refine always_bind ((always_scan lawful reads held.head).mono ?_)
      rintro result dir₁ trace ⟨post, rfl⟩
      cases post with
      | failed fault trimmed why => exact always_pure ⟨.failed fault trimmed why, rfl⟩
      | died trimmed why => exact ⟨.died trimmed why, rfl⟩
      | done trimmed =>
        rw [more, widen_append]
        exact (ih (held.trimmed lawful trimmed).tail).mono
          fun result dir' trace' post => ⟨post.1.after lawful trimmed, post.2⟩

/-- What `Peek` returns of a list of records. -/
def peeked (codec : Codec) (maxRecords maxBytes : ℕ) (records out : List Record) (used : ℕ) :
    Except Fault (List Record) :=
  (takeRecords codec maxRecords maxBytes records out used).map fun answer => answer.2.1

/-- Taking from one list and, if it was taken whole, from the next. -/
lemma takeRecords_append {maxRecords maxBytes : ℕ} {front back out : List Record} {used : ℕ} :
    takeRecords codec maxRecords maxBytes (front ++ back) out used =
      match takeRecords codec maxRecords maxBytes front out used with
      | .ok (false, out, used) => takeRecords codec maxRecords maxBytes back out used
      | answer => answer := by
  induction front generalizing out used with
  | nil => simp [takeRecords]
  | cons record front ih =>
    simp only [cons_append, takeRecords]
    cases codec.marshal record with
    | none => rfl
    | some body =>
      dsimp only
      split_ifs with full
      · rfl
      · exact ih

lemma always_peekSegments (lawful : codec.Lawful) (reads : ¬ oracle.FailsAt .scanRead)
    {maxRecords maxBytes : ℕ} {cells : List Cell} {out : List Record} {used : ℕ}
    (held : Held codec dir cells) :
    Always oracle (peekSegments codec maxRecords maxBytes (cells.map Cell.seg) out used) dir
      trace fun result dir' trace' =>
        ReadPost codec oracle dir (peeked codec maxRecords maxBytes (recordsOf cells) out used)
          result dir' ∧ trace' = trace := by
  induction cells generalizing dir out used with
  | nil => exact always_pure ⟨.done .refl, rfl⟩
  | cons c cells ih =>
    simp only [map_cons, peekSegments]
    refine always_bind ((always_scan lawful reads held.head).mono ?_)
    rintro result dir₁ trace ⟨post, rfl⟩
    cases post with
    | failed fault trimmed why => exact always_pure ⟨.failed fault trimmed why, rfl⟩
    | died trimmed why => exact ⟨.died trimmed why, rfl⟩
    | done trimmed =>
      simp only [peeked, recordsOf_cons, takeRecords_append]
      rcases taken : takeRecords codec maxRecords maxBytes c.records out used with
        fault | ⟨full, out', used'⟩
      · exact always_pure ⟨.done trimmed, rfl⟩
      · cases full with
        | true => exact always_pure ⟨.done trimmed, rfl⟩
        | false =>
          exact (ih (held.trimmed lawful trimmed).tail).mono
            fun result dir' trace' post => ⟨post.1.after lawful trimmed, post.2⟩

/-! ### Placing a marker -/

/-- The segments with a marker at their head. -/
def withMarker (codec : Codec) (gap : Gap) : List Cell → List Cell
  | [] => [⟨⟨segmentName gap.fromSequence, gap.fromSequence, gap.fromSequence,
      (encodeLine codec (marker gap)).length⟩, [marker gap]⟩]
  | c :: rest => ⟨⟨segmentName gap.fromSequence, gap.fromSequence, c.seg.last,
      c.seg.size + (encodeLine codec (marker gap)).length⟩, marker gap :: c.records⟩ :: rest

/-- The spool that `placeGapLocked` returns when it places a marker, or fails to. -/
def Spool.mark (codec : Codec) (s : Spool) (gap : Gap) (cells : List Cell) :
    Option String → Spool × Option Fault
  | some cause => (s, some (.file cause))
  | none => ({ s with
      segs := (withMarker codec gap cells).map Cell.seg
      total := s.total + (encodeLine codec (marker gap)).length }, none)

/-- How `placeGapLocked` ends. -/
inductive PlacePost (codec : Codec) (oracle : Oracle Site String) (gap : Gap) (dir : Dir)
    (s : Spool) (cells : List Cell) (trace : List Event) :
    Option (Spool × Option Fault) → Dir → List Event → Prop where
  | alone (empty : cells = []) :
      PlacePost codec oracle gap dir s cells trace (some (s.mark codec gap cells none))
        (dir.insert (segmentName gap.fromSequence) (encodeLine codec (marker gap)))
        (trace ++ [.marked])
  | diedAlone (empty : cells = []) (why : oracle.Dies) :
      PlacePost codec oracle gap dir s cells trace none
        (dir.insert (segmentName gap.fromSequence) (encodeLine codec (marker gap)))
        (trace ++ [.marked])
  | failed (fault : Fault) (why : oracle.Fails) :
      PlacePost codec oracle gap dir s cells trace (some (s, some fault)) dir trace
  | died (why : oracle.Dies) : PlacePost codec oracle gap dir s cells trace none dir trace
  | headed (c : Cell) (rest : List Cell) (tail : Bytes) {result : Option (Option String)}
      {dir' : Dir} {trace' : List Event} (split : cells = c :: rest) (torn : Torn tail)
      (file : dir[c.seg.path]? = some (fileOf codec c.records ++ tail))
      (move : MovePost oracle .markerRemove (segmentName gap.fromSequence) c.seg.path
        (fileOf codec (marker gap :: c.records) ++ tail) [.marked] dir trace result dir' trace') :
      PlacePost codec oracle gap dir s cells trace (result.map (s.mark codec gap cells)) dir' trace'

lemma always_placeGap {gap : Gap} (storable : Storable codec (marker gap)) {cells : List Cell}
    (segs : s.segs = cells.map Cell.seg) (held : Held codec dir cells) :
    Always oracle (placeGapLocked codec s gap) dir trace
      (PlacePost codec oracle gap dir s cells trace) := by
  unfold placeGapLocked
  simp only [storable.line_eq]
  cases cells with
  | nil =>
    simp only [segs, map_nil]
    refine always_bind (always_atomically ?_ ?_ ?_)
    · exact always_pure (.alone rfl)
    · intro cause fails
      exact always_pure (.failed _ ⟨_, fails⟩)
    · intro dies
      exact ⟨.died ⟨_, dies⟩, .diedAlone rfl ⟨_, dies⟩⟩
  | cons c rest =>
    obtain ⟨tail, torn, file⟩ := held.head.file
    simp only [segs, map_cons]
    refine always_bind (always_touch ?_ ?_ ?_)
    · refine always_bind (always_look ?_)
      simp only [file]
      refine always_bind (always_moveTo.mono fun result dir' trace' move => ?_)
      rw [← append_assoc] at move
      have post := PlacePost.headed (s := s) c rest tail rfl torn file move
      rcases result with _ | cause | _
      · exact post
      · exact always_pure post
      · exact always_pure post
    · intro cause fails
      exact always_pure (.failed _ ⟨_, fails⟩)
    · intro dies
      exact .died ⟨_, dies⟩

/-! ### Appending a line -/

/-- The record that an append writes. -/
def Spool.numbered (s : Spool) (record : Record) : Record :=
  { record with sequence := s.lastSeq + 1 }

/-- The spool with the segment to append to last. -/
def Spool.opened (codec : Codec) (s : Spool) (record : Record) : Spool :=
  { s with segs := withActive s (s.lastSeq + 1) (encodeLine codec (s.numbered record)).length }

/-- The file that is appended to. -/
def Spool.target (codec : Codec) (s : Spool) (record : Record) : String :=
  ((s.opened codec record).segs.getLast?.map Segment.path).getD ""

/-- The spool after the line is written. -/
def Spool.grown (codec : Codec) (s : Spool) (record : Record) : Spool :=
  { s with
    lastSeq := s.lastSeq + 1
    segs := grow (s.opened codec record).segs (s.lastSeq + 1)
      (encodeLine codec (s.numbered record)).length
    total := s.total + (encodeLine codec (s.numbered record)).length }

/-- The directory after some bytes were written to that file. -/
def wrote (codec : Codec) (s : Spool) (record : Record) (bytes : Bytes) (dir : Dir) : Dir :=
  dir.insert (s.target codec record) ((dir[s.target codec record]?).getD [] ++ bytes)

/-- The directory after the state is written. -/
def saved (codec : Codec) (s : Spool) (dir : Dir) : Dir :=
  dir.insert stateFile (codec.marshalState ⟨s.epoch, s.lastSeq⟩)

/-- How `appendLocked` ends. -/
inductive AppendPost (codec : Codec) (oracle : Oracle Site String) (dir : Dir) (s : Spool)
    (record : Record) : Option (Spool × Except Fault Record) → Dir → Prop where
  | refused (fault : Fault) (why : ¬ Storable codec (s.numbered record)) :
      AppendPost codec oracle dir s record (some (s, .error fault)) dir
  | unopened (cause : String) {dir' : Dir} (storable : Storable codec (s.numbered record))
      (made : dir' = dir ∨ dir' = dir.insertIfNew (s.target codec record) [])
      (why : oracle.FailsAt .appendOpen) :
      AppendPost codec oracle dir s record
        (some (s.opened codec record, .error (.file cause))) dir'
  | broken (cause : String) (n : ℕ) (storable : Storable codec (s.numbered record))
      (why : oracle.Fails) :
      AppendPost codec oracle dir s record
        (some (s.opened codec record, .error (.file cause)))
        (wrote codec s record ((encodeLine codec (s.numbered record)).take n) dir)
  | unsaved (cause : String) (storable : Storable codec (s.numbered record)) (why : oracle.Fails) :
      AppendPost codec oracle dir s record
        (some (s.grown codec record, .error (.file cause)))
        (wrote codec s record (encodeLine codec (s.numbered record)) dir)
  | done (storable : Storable codec (s.numbered record)) :
      AppendPost codec oracle dir s record
        (some (s.grown codec record, .ok (s.numbered record)))
        (saved codec (s.grown codec record)
          (wrote codec s record (encodeLine codec (s.numbered record)) dir))
  | diedOpening {dir' : Dir}
      (made : dir' = dir ∨ dir' = dir.insertIfNew (s.target codec record) [])
      (why : oracle.Dies) : AppendPost codec oracle dir s record none dir'
  | diedWriting (n : ℕ) (storable : Storable codec (s.numbered record)) (why : oracle.Dies) :
      AppendPost codec oracle dir s record none
        (wrote codec s record ((encodeLine codec (s.numbered record)).take n) dir)
  | diedSaving (storable : Storable codec (s.numbered record)) (why : oracle.Dies) :
      AppendPost codec oracle dir s record none
        (saved codec (s.grown codec record)
          (wrote codec s record (encodeLine codec (s.numbered record)) dir))

variable {path : String}

/-- A file that was opened for appending is there. -/
lemma lookup_opened {name : String} : (dir.insertIfNew path [])[name]? =
    if path = name then some ((dir[path]?).getD []) else dir[name]? := by
  rw [ExtTreeMap.getElem?_insertIfNew]
  by_cases same : path = name
  · subst same
    by_cases absent : path ∈ dir <;> simp [absent]
  · simp [same]

lemma insert_insertIfNew {bytes : Bytes} :
    (dir.insertIfNew path []).insert path bytes = dir.insert path bytes := by
  refine ExtTreeMap.ext_getElem? fun name => ?_
  rw [lookup_insert, lookup_insert, lookup_opened]
  split_ifs <;> rfl

/-- Bytes at the end of a file that was opened for appending. -/
lemma alter_insertIfNew {bytes : Bytes} :
    (dir.insertIfNew path []).alter path (Option.map (· ++ bytes)) =
      dir.insert path ((dir[path]?).getD [] ++ bytes) := by
  have opened : (dir.insertIfNew path [])[path]? = some ((dir[path]?).getD []) := by
    rw [lookup_opened, if_pos rfl]
  rw [alter_eq_insert opened, insert_insertIfNew]

/-- How writing a line ends on a file that was opened for appending: written whole, or in
part. -/
lemma always_writeLine {Q : Option (Option String) → Dir → List Event → Prop}
    (ok : Q (some none) (dir.insert path ((dir[path]?).getD [] ++ data)) trace)
    (fails : ∀ cause n, (oracle.Fails) →
      Q (some (some cause)) (dir.insert path ((dir[path]?).getD [] ++ data.take n)) trace)
    (dies : ∀ n, (oracle.Dies) →
      Q none (dir.insert path ((dir[path]?).getD [] ++ data.take n)) trace) :
    Always oracle (writeLine path data) (dir.insertIfNew path []) trace Q := by
  have all : data = data.take data.length := by simp
  -- Once something was written, only the error that is returned can still change.
  have closing : ∀ {n : ℕ} {cause : Option String}, (cause = none → data.take n = data) →
      (cause ≠ none → oracle.Fails) →
      Always oracle (do
          let closed ← touch .appendClose
          return cause.or closed)
        (dir.insert path ((dir[path]?).getD [] ++ data.take n)) trace Q := by
    intro n cause whole why
    refine always_bind (always_touch ?_ ?_ ?_)
    · cases cause with
      | none =>
        rw [whole rfl]
        exact always_pure ok
      | some cause => exact always_pure (fails cause n (why (by simp)))
    · intro closing failed
      cases cause with
      | none => exact always_pure (fails closing n ⟨_, failed⟩)
      | some cause => exact always_pure (fails cause n (why (by simp)))
    · intro died
      exact dies n ⟨_, died⟩
  unfold writeLine
  refine always_bind (always_op fun outcome answer => ?_)
  simp only [append_nil, alter_insertIfNew]
  cases outcome with
  | crash done => exact dies done ⟨_, done, answer⟩
  | fail cause done =>
    refine always_bind (always_pure ?_)
    exact closing (by simp) fun _ => ⟨_, cause, done, answer⟩
  | ok =>
    simp only [Outcome.reply, isNone_none, if_true]
    rw [all]
    refine always_bind (always_touch ?_ ?_ ?_)
    · exact closing (fun _ => all.symm) (by simp)
    · intro cause failed
      exact closing (by simp) fun _ => ⟨_, failed⟩
    · intro died
      exact dies _ ⟨_, died⟩

lemma always_append {record : Record} :
    Always oracle (appendLocked codec s record) dir trace fun result dir' trace' =>
      AppendPost codec oracle dir s record result dir' ∧ trace' = trace := by
  simp only [appendLocked]
  cases lined : line codec (s.numbered record) with
  | none =>
    have why : ¬ Storable codec (s.numbered record) := fun storable => by
      cases storable.line_eq.symm.trans lined
    simp only [numbered] at lined
    simp only [lined]
    exact always_pure ⟨.refused _ why, rfl⟩
  | some data =>
    obtain ⟨marshals, rfl⟩ := line_eq_some.mp lined
    simp only [numbered] at lined
    simp only [lined]
    split_ifs with long
    · exact always_pure ⟨.refused _ fun storable => absurd storable.fits (not_le.mpr long), rfl⟩
    · have storable : Storable codec (s.numbered record) :=
        ⟨marshals, not_lt.mp long, Nat.succ_pos _⟩
      refine always_bind (always_change ?_ ?_ ?_)
      · refine always_bind (always_writeLine ?_ ?_ ?_)
        · refine always_bind (always_atomically ?_ ?_ ?_)
          · rw [append_nil]
            exact always_pure ⟨.done storable, rfl⟩
          · intro cause fails
            exact always_pure ⟨.unsaved cause storable ⟨_, fails⟩, rfl⟩
          · intro dies
            have whole : (encodeLine codec (s.numbered record)).take
                (encodeLine codec (s.numbered record)).length =
                  encodeLine codec (s.numbered record) := take_length
            have post : AppendPost codec oracle dir s record none _ :=
              .diedWriting (encodeLine codec (s.numbered record)).length storable ⟨_, dies⟩
            rw [whole] at post
            rw [append_nil]
            exact ⟨⟨post, rfl⟩, .diedSaving storable ⟨_, dies⟩, rfl⟩
        · intro cause n fails
          exact always_pure ⟨.broken cause n storable fails, rfl⟩
        · intro n dies
          exact ⟨.diedWriting n storable dies, rfl⟩
      · intro cause dir' fails made
        exact always_pure ⟨.unopened cause storable made fails, rfl⟩
      · intro dir' dies made
        exact ⟨.diedOpening made ⟨_, dies⟩, rfl⟩

/-! ### Loading -/

/-- A segment file with what it holds. -/
structure Content where
  name : String
  records : List Record

/-- The segment that a file is loaded as. -/
def Content.segment (codec : Codec) (file : Content) : Segment :=
  summary file.name file.records (fileOf codec file.records).length

/-- The spool with the segments of some files; a file without records is not one. -/
def Spool.load (codec : Codec) (s : Spool) (files : List Content) : Spool :=
  files.foldl (fun s file =>
    if file.records = [] then s
    else
      { s with
        segs := s.segs ++ [file.segment codec]
        total := s.total + (file.segment codec).size
        lastSeq := max s.lastSeq (file.segment codec).last }) s

/-- Some of the files without records went, and the others are trimmed. -/
inductive Emptied (codec : Codec) (dir : Dir) (files : List Content) (dir' : Dir) : Prop where
  | mk (gone : List String) (empty : ∀ name ∈ gone, ⟨name, []⟩ ∈ files)
      (trimmed : Trimmed codec (removed gone dir) dir')

/-- How the loop of `openSpool` ends. -/
inductive LoadPost (codec : Codec) (oracle : Oracle Site String) (dir : Dir) (s : Spool)
    (files : List Content) : Option (Except Fault Spool) → Dir → Prop where
  | done {dir' : Dir} (emptied : Emptied codec dir files dir') :
      LoadPost codec oracle dir s files (some (.ok (s.load codec files))) dir'
  | failed {dir' : Dir} (fault : Fault) (emptied : Emptied codec dir files dir')
      (why : oracle.Fails) : LoadPost codec oracle dir s files (some (.error fault)) dir'
  | died {dir' : Dir} (emptied : Emptied codec dir files dir')
      (why : oracle.Dies) : LoadPost codec oracle dir s files none dir'

variable {files : List Content}

namespace Emptied

lemma of_trimmed (trimmed : Trimmed codec dir dir') : Emptied codec dir files dir' :=
  ⟨[], by simp, trimmed⟩

lemma trans (lawful : codec.Lawful) {file : Content} (first : Emptied codec dir [file] dir₁)
    (later : Emptied codec dir₁ files dir') : Emptied codec dir (file :: files) dir' := by
  obtain ⟨front, empty, trimmed⟩ := first
  obtain ⟨gone, rest, onwards⟩ := later
  refine ⟨front ++ gone, fun name mem => ?_, ?_⟩
  · rcases mem_append.mp mem with mem | mem
    · exact mem_append_left files (empty name mem)
    · exact .tail _ (rest name mem)
  · rw [removed, foldl_append]
    exact (trimmed.removed gone).trans lawful onwards

/-- When no file is without records, none went. -/
lemma trimmed (filled : ∀ file ∈ files, file.records ≠ []) :
    Emptied codec dir files dir' → Trimmed codec dir dir'
  | ⟨[], _, trimmed⟩ => trimmed
  | ⟨name :: _, empty, _⟩ => absurd rfl (filled _ (empty name (.head _)))

end Emptied

/-- One file more was loaded before. -/
lemma LoadPost.cons (lawful : codec.Lawful) {s s' : Spool} {file : Content}
    {result : Option (Except Fault Spool)} (first : Emptied codec dir [file] dir₁)
    (step : s'.load codec files = s.load codec (file :: files))
    (post : LoadPost codec oracle dir₁ s' files result dir') :
    LoadPost codec oracle dir s (file :: files) result dir' := by
  cases post with
  | done later =>
    rw [step]
    exact .done (first.trans lawful later)
  | failed fault later why => exact .failed fault (first.trans lawful later) why
  | died later why => exact .died (first.trans lawful later) why

lemma always_loadSegments (lawful : codec.Lawful) (reads : ¬ oracle.FailsAt .scanRead)
    (holds : ∀ file ∈ files, Holds codec dir file.name file.records)
    (distinct : (files.map Content.name).Nodup) :
    Always oracle (loadSegments codec (files.map Content.name) s) dir trace
      fun result dir' trace' => LoadPost codec oracle dir s files result dir' ∧ trace' = trace := by
  induction files generalizing dir s with
  | nil => exact always_pure ⟨.done (.of_trimmed .refl), rfl⟩
  | cons file files ih =>
    obtain ⟨fresh, distinct⟩ := nodup_cons.mp distinct
    have later : ∀ {dir₁ : Dir}, Trimmed codec dir dir₁ →
        ∀ f ∈ files, Holds codec dir₁ f.name f.records :=
      fun trimmed f mem => trimmed.holds lawful (holds f (.tail _ mem))
    simp only [map_cons, loadSegments]
    refine always_bind ((always_scan lawful reads (holds file (.head _))).mono ?_)
    rintro result dir₁ trace ⟨post, rfl⟩
    cases post with
    | failed fault trimmed why =>
      exact always_pure ⟨.failed fault (.of_trimmed trimmed) why, rfl⟩
    | died trimmed why => exact ⟨.died (.of_trimmed trimmed) why, rfl⟩
    | done trimmed =>
      dsimp only
      by_cases empty : file.records = []
      · -- A file without records is removed, if that works.
        rw [if_pos empty]
        have same : s.load codec files = s.load codec (file :: files) := by
          simp [load, empty]
        have blank {files : List Content} :
            Emptied codec dir (file :: files) (dir₁.erase file.name) := by
          refine ⟨[file.name], fun name mem => ?_, trimmed.removed [file.name]⟩
          rw [mem_singleton.mp mem, ← empty]
          exact .head _
        have erased : ∀ f ∈ files, Holds codec (dir₁.erase file.name) f.name f.records := by
          intro f mem
          refine (later trimmed f mem).congr ?_
          rw [lookup_erase, if_neg fun named => fresh (mem_map.mpr ⟨f, mem, named.symm⟩)]
        refine always_bind (always_atomically ?_ ?_ ?_)
        · rw [append_nil]
          exact (ih erased distinct).mono fun result dir' trace' post =>
            ⟨post.1.cons lawful blank same, post.2⟩
        · intro cause fails
          exact (ih (later trimmed) distinct).mono fun result dir' trace' post =>
            ⟨post.1.cons lawful (.of_trimmed trimmed) same, post.2⟩
        · intro dies
          rw [append_nil]
          exact ⟨⟨.died (.of_trimmed trimmed) ⟨_, dies⟩, rfl⟩, .died blank ⟨_, dies⟩, rfl⟩
      · have step : ∀ last, (if last > s.lastSeq then last else s.lastSeq) =
            max s.lastSeq last := by
          intro last
          split_ifs with higher <;> omega
        rw [if_neg empty, step]
        refine (ih (later trimmed) distinct).mono fun result dir' trace' post =>
          ⟨post.1.cons lawful (.of_trimmed trimmed) ?_, post.2⟩
        simp [load, empty, Content.segment]

/-- The spool that `openSpool` returns. -/
def reopened (codec : Codec) (cfg : Config) (random : Fin 12 → UInt8) (dir : Dir)
    (files : List Content) : Spool :=
  Spool.load codec ⟨cfg, (readState codec random dir).epoch, (readState codec random dir).lastSeq,
    [], 0⟩ files

/-- How `openSpool` ends. -/
inductive OpenPost (codec : Codec) (oracle : Oracle Site String) (dir : Dir) (s : Spool)
    (files : List Content) : Option (Except Fault Spool) → Dir → Prop where
  | done {dir' : Dir} (emptied : Emptied codec dir files dir') :
      OpenPost codec oracle dir s files (some (.ok s)) (saved codec s dir')
  | failed {dir' : Dir} (fault : Fault) (emptied : Emptied codec dir files dir')
      (why : oracle.Fails) : OpenPost codec oracle dir s files (some (.error fault)) dir'
  | died {dir₁ dir' : Dir} (emptied : Emptied codec dir files dir₁)
      (left : dir' = dir₁ ∨ dir' = saved codec s dir₁) (why : oracle.Dies) :
      OpenPost codec oracle dir s files none dir'

lemma always_openSpool (lawful : codec.Lawful) (reads : ¬ oracle.FailsAt .scanRead)
    {cfg : Config} {random : Fin 12 → UInt8} (names : files.map Content.name = segmentNames dir)
    (holds : ∀ file ∈ files, Holds codec dir file.name file.records) :
    Always oracle (openSpool codec cfg random) dir trace fun result dir' trace' =>
      OpenPost codec oracle dir (reopened codec cfg random dir files) files result dir' ∧
        trace' = trace := by
  have distinct : (files.map Content.name).Nodup := by
    rw [names]
    exact (dir.distinct_keys.imp fun differ same => differ (by simp [same])).filter _
  unfold openSpool
  refine always_bind (always_touch ?_ ?_ ?_)
  rotate_left
  · intro cause fails
    exact always_pure ⟨.failed _ (.of_trimmed .refl) ⟨_, fails⟩, rfl⟩
  · intro dies
    exact ⟨.died (.of_trimmed .refl) (.inl rfl) ⟨_, dies⟩, rfl⟩
  refine always_bind (always_look ?_)
  refine always_bind (always_touch ?_ ?_ ?_)
  rotate_left
  · intro cause fails
    exact always_pure ⟨.failed _ (.of_trimmed .refl) ⟨_, fails⟩, rfl⟩
  · intro dies
    exact ⟨.died (.of_trimmed .refl) (.inl rfl) ⟨_, dies⟩, rfl⟩
  refine always_bind (always_look ?_)
  dsimp only
  rw [← names]
  refine always_bind ((always_loadSegments lawful reads holds distinct).mono ?_)
  rintro result dir₁ trace ⟨post, rfl⟩
  cases post with
  | failed fault emptied why => exact always_pure ⟨.failed fault emptied why, rfl⟩
  | died emptied why => exact ⟨.died emptied (.inl rfl) why, rfl⟩
  | done emptied =>
    refine always_bind (always_atomically ?_ ?_ ?_)
    · rw [append_nil]
      exact always_pure ⟨.done emptied, rfl⟩
    · intro cause fails
      exact always_pure ⟨.failed _ emptied ⟨_, fails⟩, rfl⟩
    · intro dies
      rw [append_nil]
      exact ⟨⟨.died emptied (.inl rfl) ⟨_, dies⟩, rfl⟩, .died emptied (.inr rfl) ⟨_, dies⟩, rfl⟩

end TechStack.Telemetry
