import TechStack.Lib.Io
import TechStack.Lib.Lines
import TechStack.Telemetry.Contract

/-!
# The Guard's spool

`spool.go`: the bounded, append-only directory in which the Guard keeps telemetry until
the control plane acknowledges it.  A segment is a file of JSON lines named after its
first sequence; what has to be dropped to stay within the budget, or is refused, is
replaced by a gap marker at the head.

The directory is a map from names to contents, and the process may die between any two
file operations: what is in a file stays there.  `privatefs.Replace` publishes a whole
file or nothing; the temporary files it may leave behind are read by no one and are
left out, as are the times that a segment remembers.  JSON is a parameter (`Codec`).
-/

namespace TechStack.Telemetry

open Std (ExtTreeMap)
open Lib Lines

/-! ### Files -/

/-- The spool directory. -/
abbrev Dir := ExtTreeMap String Bytes compare

/-- The file operations of the spool. -/
inductive Site where
  /-- `scan` opens, reads, sizes and truncates a segment. -/
  | scanOpen | scanRead | scanStat | scanTruncate
  /-- `openSpool` reads the state, lists the directory and removes empty segments. -/
  | stateRead | list | emptyRemove
  /-- `writeState`. -/
  | stateReplace
  /-- `appendLocked` opens or creates a segment, writes, syncs and closes it. -/
  | appendOpen | appendWrite | appendSync | appendClose
  /-- `enforceBudgetLocked` removes the oldest segment. -/
  | dropRemove
  /-- `placeGapLocked` reads the head, publishes it with the marker and removes the old
  name. -/
  | headRead | markerReplace | markerRemove
  /-- `ackLocked` removes a segment, or publishes what it keeps and removes the old
  name. -/
  | ackRemove | keptReplace | keptRemove
  deriving DecidableEq

/-- Why an operation of the spool fails. -/
inductive Fault where
  | file (cause : String)
  | notExist
  | marshal
  | tooLong (bytes : ℕ)

/-- What becomes of the files, for the reader of a run. -/
inductive Event where
  /-- A segment was removed to stay within the budget. -/
  | dropped (path : String)
  /-- A marker was put in place. -/
  | marked
  /-- What another file held was published under a name. -/
  | published (path old : String)
  /-- An old name was removed. -/
  | unlinked (path : String)

abbrev SpoolIo := Io Dir Site String Event

variable (site : Site)

/-- An operation without an effect on the directory. -/
def touch : SpoolIo (Option String) :=
  Io.op site (fun _ dir => dir) fun _ => []

/-- An operation that happens as a whole or not at all; dying in it leaves open which. -/
def atomically (effect : Dir → Dir) (events : List Event) : SpoolIo (Option String) :=
  Io.op site
    (fun
      | .ok, dir => effect dir
      | .fail _ _, dir => dir
      | .crash done, dir => if done = 0 then dir else effect dir)
    (fun
      | .ok => events
      | .fail _ _ => []
      | .crash done => if done = 0 then [] else events)

variable (path : String)

/-- `Root.Remove`, with a missing file taken for a removed one. -/
def remove (events : List Event) : SpoolIo (Option String) :=
  atomically site (·.erase path) events

/-- `privatefs.Replace`. -/
def replace (data : Bytes) (events : List Event) : SpoolIo (Option String) :=
  atomically site (·.insert path data) events

/-- Publish contents under a name and remove the old name if it is another; the error of
that removal is ignored. -/
def moveTo (put drop : Site) (path old : String) (data : Bytes) (events : List Event) :
    SpoolIo (Option String) := do
  match ← replace put path data (events ++ [.published path old]) with
  | some cause => return some cause
  | none =>
    if path ≠ old then
      let _ ← remove drop old [.unlinked old]
    return none

/-- `file.Truncate`; one that fails or is interrupted may have been carried out. -/
def truncate (size : ℕ) : SpoolIo (Option String) :=
  Io.op site
    (fun outcome dir =>
      let cut := dir.alter path (Option.map (List.take size))
      match outcome with
      | .ok => cut
      | .fail _ done => if done = 0 then dir else cut
      | .crash done => if done = 0 then dir else cut)
    fun _ => []

/-- Open a file for appending, creating it when it is not there. -/
def openAppend : SpoolIo (Option String) :=
  Io.op site
    (fun outcome dir =>
      let created := dir.insertIfNew path []
      match outcome with
      | .ok => created
      | .fail _ done => if done = 0 then dir else created
      | .crash done => if done = 0 then dir else created)
    fun _ => []

/-- `file.Write` at the end of a file; one that fails or is interrupted has written some
of the bytes. -/
def writeEnd (data : Bytes) : SpoolIo (Option String) :=
  Io.op site
    (fun outcome dir =>
      let written := match outcome with
        | .ok => data
        | .fail _ done => data.take done
        | .crash done => data.take done
      dir.alter path (Option.map (· ++ written)))
    fun _ => []

/-! ### Records on disk -/

/-- `maxRecordLine`. -/
def maxRecordLine : ℕ := 4194304

/-- `spoolState`. -/
structure SpoolState where
  epoch : String
  lastSeq : ℕ

/-- JSON, as far as the spool uses it: `none` is a record that does not marshal, or a text
that does not unmarshal to one.  What the state file does not say is left at its zero
value. -/
structure Codec where
  marshal : Record → Option Bytes
  unmarshal : Bytes → Option Record
  marshalState : SpoolState → Bytes
  unmarshalState : Bytes → SpoolState

/-- `"seg-" + fmt.Sprintf("%020d", sequence) + ".jsonl"`; a sequence is an `int64` and
has at most nineteen digits. -/
def segmentName (sequence : ℕ) : String :=
  String.ofList ("seg-".toList ++ padded 20 sequence ++ ".jsonl".toList)

/-- A name that `openSpool` takes for a segment. -/
def isSegment (name : String) : Bool :=
  "seg-".toList.isPrefixOf name.toList && ".jsonl".toList.isSuffixOf name.toList

/-- `stateFile`. -/
def stateFile : String := "state.json"

/-- `segment`. -/
structure Segment where
  path : String
  first : ℕ
  last : ℕ
  size : ℕ
  deriving DecidableEq

/-- `SpoolConfig`, as `openSpool` completes it. -/
structure Config where
  maxBytes : ℕ
  segmentBytes : ℕ

/-- `Spool`. -/
structure Spool where
  cfg : Config
  epoch : String
  lastSeq : ℕ
  segs : List Segment
  total : ℤ

/-- The defaults of `openSpool`. -/
def complete (maxBytes segmentBytes : ℤ) : Config :=
  let segmentBytes := if segmentBytes ≤ 0 then 65536 else segmentBytes.toNat
  let maxBytes := if maxBytes ≤ 0 then 8388608 else maxBytes.toNat
  ⟨if maxBytes < 4 * segmentBytes then 4 * segmentBytes else maxBytes, segmentBytes⟩

section Operations

variable (codec : Codec)

/-! ### Scanning a segment -/

/-- What `scan` makes of a line: a record with a sequence. -/
def decodeLine (line : Bytes) : Option Record :=
  match codec.unmarshal line with
  | some record => if record.sequence > 0 then some record else none
  | none => none

/-- The loop of `scan`: the valid records, and how many bytes they take. -/
def parse (bytes : Bytes) : List Record × ℕ :=
  scanLines maxRecordLine (decodeLine codec) (linesOf bytes)

/-- The segment that `scan` returns. -/
def summary (path : String) (records : List Record) (good : ℕ) : Segment :=
  ⟨path, (records.head?.map Record.sequence).getD 0, (records.getLast?.map Record.sequence).getD 0,
    good⟩

/-- `scan`: read a segment, keep its valid records and truncate a torn tail.  A read that
fails ends the loop as the end of the file does. -/
def scan (path : String) : SpoolIo (Except Fault (Segment × List Record)) := do
  match ← touch .scanOpen with
  | some cause => return .error (.file cause)
  | none =>
    let dir ← Io.look
    match dir[path]? with
    | none => return .error .notExist
    | some bytes =>
      let seen ← Io.attempt .scanRead
      let (records, good) := parse codec (match seen with
        | .fail _ done => bytes.take done
        | _ => bytes)
      let unsized ← touch .scanStat
      let cut ←
        if unsized.isNone ∧ bytes.length ≠ good then truncate .scanTruncate path good
        else pure none
      match cut with
      | some cause => return .error (.file cause)
      | none => return .ok (summary path records good, records)

variable (s : Spool)

/-- `writeState`. -/
def writeState : SpoolIo (Option String) :=
  replace .stateReplace stateFile (codec.marshalState ⟨s.epoch, s.lastSeq⟩) []

/-! ### Appending -/

/-- The line of a record. -/
def line (record : Record) : Option Bytes :=
  (codec.marshal record).map (· ++ [newline])

/-- The segments with the one to append to last: the newest if the line fits, else a new
one. -/
def withActive (sequence length : ℕ) : List Segment :=
  match s.segs.getLast? with
  | some newest =>
    if newest.size + length ≤ s.cfg.segmentBytes then s.segs
    else s.segs ++ [⟨segmentName sequence, sequence, 0, 0⟩]
  | none => [⟨segmentName sequence, sequence, 0, 0⟩]

/-- The newest segment with a line more. -/
def grow (segs : List Segment) (sequence length : ℕ) : List Segment :=
  segs.dropLast ++ (segs.getLast?.map fun active =>
    { active with last := sequence, size := active.size + length }).toList

/-- Write, sync and close; the first error counts. -/
def writeLine (path : String) (data : Bytes) : SpoolIo (Option String) := do
  let written ← writeEnd .appendWrite path data
  let synced ← if written.isNone then touch .appendSync else pure written
  let closed ← touch .appendClose
  return synced.or closed

/-- `appendLocked`.  The sequence is taken back when it fails; a segment that was added
to the list stays. -/
def appendLocked (record : Record) : SpoolIo (Spool × Except Fault Record) := do
  let sequence := s.lastSeq + 1
  let record := { record with sequence := sequence }
  match line codec record with
  | none => return (s, .error .marshal)
  | some data =>
    if data.length > maxRecordLine then return (s, .error (.tooLong data.length))
    else
      let s := { s with segs := withActive s sequence data.length }
      let path := (s.segs.getLast?.map Segment.path).getD ""
      match ← openAppend .appendOpen path with
      | some cause => return (s, .error (.file cause))
      | none =>
        match ← writeLine path data with
        | some cause => return (s, .error (.file cause))
        | none =>
          let s := { s with
            lastSeq := sequence
            segs := grow s.segs sequence data.length
            total := s.total + data.length }
          match ← writeState codec s with
          | some cause => return (s, .error (.file cause))
          | none => return (s, .ok record)

/-! ### Gaps -/

/-- `mergeGap`: widen a marker by a dropped record; a dropped marker contributes the range
it described. -/
def mergeGap (gap : Option Gap) (record : Record) (reason : GapReason) : Gap :=
  let own : Gap := match record.gap with
    | some g => { g with reason := reason }
    | none => ⟨record.at, record.at, record.sequence, record.sequence, reason⟩
  match gap with
  | none => own
  | some g =>
    { g with
      fromTime := if own.fromTime < g.fromTime then own.fromTime else g.fromTime
      toTime := if own.toTime > g.toTime then own.toTime else g.toTime
      fromSequence := min g.fromSequence own.fromSequence
      toSequence := max g.toSequence own.toSequence }

/-- The marker that is placed for a gap. -/
def marker (gap : Gap) : Record :=
  { sequence := gap.fromSequence, «at» := gap.toTime, gap := some gap }

/-- `placeGapLocked`: put the marker at the head of the spool, under the lowest sequence
it covers. -/
def placeGapLocked (gap : Gap) : SpoolIo (Spool × Option Fault) := do
  match line codec (marker gap) with
  | none => return (s, some .marshal)
  | some data =>
    let path := segmentName gap.fromSequence
    match s.segs with
    | [] =>
      match ← replace .markerReplace path data [.marked] with
      | some cause => return (s, some (.file cause))
      | none =>
        return ({ s with
          segs := [⟨path, gap.fromSequence, gap.fromSequence, data.length⟩]
          total := s.total + data.length }, none)
    | seg :: rest =>
      match ← touch .headRead with
      | some cause => return (s, some (.file cause))
      | none =>
        let dir ← Io.look
        match dir[seg.path]? with
        | none => return (s, some .notExist)
        | some existing =>
          match ← moveTo .markerReplace .markerRemove path seg.path (data ++ existing)
              [.marked] with
          | some cause => return (s, some (.file cause))
          | none =>
            return ({ s with
              segs := ⟨path, gap.fromSequence, seg.last, seg.size + data.length⟩ :: rest
              total := s.total + data.length }, none)

/-- The loop of `enforceBudgetLocked`, over the segments from the oldest. -/
def dropOldest : List Segment → Spool → Option Gap → SpoolIo (Spool × Except Fault (Option Gap))
  | seg :: rest, s, gap => do
      if s.total > s.cfg.maxBytes ∧ rest ≠ [] then
        match ← scan codec seg.path with
        | .error fault => return (s, .error fault)
        | .ok (_, records) =>
          let gap := records.foldl (fun gap record => some (mergeGap gap record .spoolBudget)) gap
          match ← remove .dropRemove seg.path [.dropped seg.path] with
          | some cause => return (s, .error (.file cause))
          | none => dropOldest rest { s with total := s.total - seg.size, segs := rest } gap
      else return (s, .ok gap)
  | [], s, gap => return (s, .ok gap)

/-- `enforceBudgetLocked`: drop the oldest segments until the spool fits, then record one
marker for everything dropped. -/
def enforceBudgetLocked : SpoolIo (Spool × Option Fault) := do
  if s.total ≤ s.cfg.maxBytes ∨ s.segs.length < 2 then return (s, none)
  else
    match ← dropOldest codec s.segs s none with
    | (s, .error fault) => return (s, some fault)
    | (s, .ok none) => return (s, none)
    | (s, .ok (some gap)) => placeGapLocked codec s gap

/-- `AppendDrives`. -/
def appendDrives (atTime : ℤ) (samples : List Sample) (drives : Option Bytes) :
    SpoolIo (Spool × Except Fault Record) := do
  match ← appendLocked codec s
      { sequence := 0, «at» := atTime, samples := samples, driveHealth := drives } with
  | (s, .error fault) => return (s, .error fault)
  | (s, .ok record) =>
    match ← enforceBudgetLocked codec s with
    | (s, some fault) => return (s, .error fault)
    | (s, none) => return (s, .ok record)

/-! ### Peeking -/

/-- The inner loop of `Peek`: take records while the bounds allow, and say whether it
stopped before the last. -/
def takeRecords (maxRecords maxBytes : ℕ) :
    List Record → List Record → ℕ → Except Fault (Bool × List Record × ℕ)
  | [], out, used => .ok (false, out, used)
  | record :: rest, out, used =>
    match codec.marshal record with
    | none => .error .marshal
    | some body =>
      let size := body.length + 1
      if out.length ≥ maxRecords ∨ (out ≠ [] ∧ used + size > maxBytes) then
        .ok (true, out, used)
      else takeRecords maxRecords maxBytes rest (out ++ [record]) (used + size)

/-- The outer loop of `Peek`. -/
def peekSegments (maxRecords maxBytes : ℕ) :
    List Segment → List Record → ℕ → SpoolIo (Except Fault (List Record))
  | [], out, _ => return .ok out
  | seg :: rest, out, used => do
      match ← scan codec seg.path with
      | .error fault => return .error fault
      | .ok (_, records) =>
        match takeRecords codec maxRecords maxBytes records out used with
        | .error fault => return .error fault
        | .ok (true, out, _) => return .ok out
        | .ok (false, out, used) => peekSegments maxRecords maxBytes rest out used

/-- `Peek`. -/
def peek (maxRecords maxBytes : ℕ) : SpoolIo (Except Fault (List Record)) :=
  peekSegments codec maxRecords maxBytes s.segs [] 0

/-! ### Acknowledging and discarding -/

/-- The bytes of the records that a partly acknowledged segment keeps. -/
def keptBytes (kept : List Record) : Bytes :=
  kept.flatMap fun record => (codec.marshal record).getD [] ++ [newline]

/-- `ackLocked`, over the segments from the oldest. -/
def ackSegments (sequence : ℕ) : List Segment → Spool → SpoolIo (Spool × Option Fault)
  | [], s => return (s, none)
  | seg :: rest, s => do
      if seg.first ≤ sequence then
        if seg.last ≤ sequence then
          match ← remove .ackRemove seg.path [] with
          | some cause => return (s, some (.file cause))
          | none => ackSegments sequence rest { s with total := s.total - seg.size, segs := rest }
        else
          match ← scan codec seg.path with
          | .error fault => return (s, some fault)
          | .ok (_, records) =>
            let kept := records.filter fun record => record.sequence > sequence
            let first := (kept.head?.map Record.sequence).getD 0
            let data := keptBytes codec kept
            let path := segmentName first
            match ← moveTo .keptReplace .keptRemove path seg.path data [] with
            | some cause => return (s, some (.file cause))
            | none =>
              return ({ s with
                segs := ⟨path, first, seg.last, data.length⟩ :: rest
                total := s.total + (data.length - seg.size) }, none)
      else return (s, none)

/-- `Ack`: remove every record up to a sequence. -/
def ack (sequence : ℕ) : SpoolIo (Spool × Option Fault) :=
  ackSegments codec sequence s.segs s

/-- The loop of `Discard`: one marker for the records up to a sequence. -/
def gatherGap (sequence : ℕ) (reason : GapReason) :
    List Segment → Option Gap → SpoolIo (Except Fault (Option Gap))
  | [], gap => return .ok gap
  | seg :: rest, gap => do
      if seg.first > sequence then return .ok gap
      else
        match ← scan codec seg.path with
        | .error fault => return .error fault
        | .ok (_, records) =>
          gatherGap sequence reason rest
            ((records.filter fun record => record.sequence ≤ sequence).foldl
              (fun gap record => some (mergeGap gap record reason)) gap)

/-- `Discard`: drop what the control plane refused and leave a marker for it. -/
def discard (sequence : ℕ) (reason : GapReason) : SpoolIo (Spool × Option Fault) := do
  match ← gatherGap codec sequence reason s.segs none with
  | .error fault => return (s, some fault)
  | .ok gap =>
    match ← ackSegments codec sequence s.segs s with
    | (s, some fault) => return (s, some fault)
    | (s, none) =>
      match gap with
      | none => return (s, none)
      | some gap => placeGapLocked codec s gap

/-! ### Opening -/

/-- The segment files of a directory, by name. -/
def segmentNames (dir : Dir) : List String := dir.keys.filter isSegment

/-- The loop of `openSpool` over the segment files. -/
def loadSegments : List String → Spool → SpoolIo (Except Fault Spool)
  | [], s => return .ok s
  | name :: rest, s => do
      match ← scan codec name with
      | .error fault => return .error fault
      | .ok (seg, records) =>
        if records = [] then
          -- The error of this removal is ignored.
          let _ ← remove .emptyRemove seg.path []
          loadSegments rest s
        else
          loadSegments rest { s with
            segs := s.segs ++ [seg]
            total := s.total + seg.size
            lastSeq := if seg.last > s.lastSeq then seg.last else s.lastSeq }

/-- `hex.EncodeToString`. -/
def hexEncode (bytes : List UInt8) : String :=
  String.ofList (bytes.flatMap fun b =>
    [hexDigit (b.toNat / 16), hexDigit (b.toNat % 16)])

/-- The state that `openSpool` starts from: a fresh epoch when the file has none. -/
def readState (random : Fin 12 → UInt8) (dir : Dir) : SpoolState :=
  let state := match dir[stateFile]? with
    | some raw => codec.unmarshalState raw
    | none => ⟨"", 0⟩
  if state.epoch = "" ∨ state.epoch.utf8ByteSize > 64 then ⟨hexEncode (List.ofFn random), 0⟩
  else state

/-- `openSpool`; `random` are the twelve bytes that are drawn when there is no epoch. -/
def openSpool (cfg : Config) (random : Fin 12 → UInt8) : SpoolIo (Except Fault Spool) := do
  match ← touch .stateRead with
  | some cause => return .error (.file cause)
  | none =>
    let dir ← Io.look
    let state := readState codec random dir
    match ← touch .list with
    | some cause => return .error (.file cause)
    | none =>
      let dir ← Io.look
      match ← loadSegments codec (segmentNames dir)
          ⟨cfg, state.epoch, state.lastSeq, [], 0⟩ with
      | .error fault => return .error fault
      | .ok s =>
        match ← writeState codec s with
        | some cause => return .error (.file cause)
        | none => return .ok s

end Operations

end TechStack.Telemetry
