import TechStack.Journal.Format
import TechStack.Lib.Disk
import TechStack.Lib.Transition

/-!
# The journal store

`pkg/agent/journal/store.go` over a disk whose operations may fail and under a
process that may die in any of them.  Every function below is the source's
function of that name with the store passed in and out; each system call is an
operation at a `Site` of its own, so that a statement about faults can say which
call failed.

Left out are the lock, which makes one open store per directory a rule of the
system (`Journal.System`), the names of temporary files, which nobody looks up,
and the closing of handles.

The trace records what the outside can observe and what the proofs refer to: an
open journal, a record made durable, a rewritten log taking the log's name, a
compaction completed, a call returned.
-/

namespace TechStack.Journal

open Lib Std

/-- The one name of the directory that matters. -/
inductive Name where
  | journalLog
  deriving DecidableEq

/-- The system calls of the store. -/
inductive Site where
  | loadRead | loadOpen | tornTruncate | tornSync
  | createOpen | createWrite | createSync | createSyncDir
  | appendWrite | appendSync | appendTruncate
  | compactCreateTemp | compactWrite | compactSync | compactRename | compactSyncDir
  | destroyOpen | destroyWrite | destroySync | destroyRemove
  | handOffOpen | handOffStat | handOffWrite | handOffSync
  deriving DecidableEq

/-- The operations of a store. -/
inductive Call where
  /-- `Admit`; `free` is what the free-space probe would answer, if anything. -/
  | admit_ (free : Option ℕ) (intent : Intent)
  | markDispatched (id : String)
  | recordExecutor (id : String) (ref : ExecutorRef)
  | recordResult (id : String) (result : ResultRecord)
  | ack (id : String) (revision : ℤ) (rejected : Bool)
  | noteGeneration (generation : ℤ)
  | compact
  | decommission
  | handOff (tenantID : String)

/-- What a call returns: an error, and for some calls an entry or a count. -/
structure Reply where
  err : Option Err := none
  entry : Option EntryState := none
  existing : Bool := false
  count : ℕ := 0

/-- What the trace records. -/
inductive Event where
  /-- `Open` returned a journal that accepts writes. -/
  | opened (contents : Contents)
  /-- A record was made durable and applied. -/
  | appended (rec : Record)
  /-- A log rewritten at `now` from these contents took the log's name. -/
  | published (now : ℤ) (contents : Contents)
  /-- A compaction completed. -/
  | compacted (now : ℤ)
  | returned (call : Call) (reply : Reply)

/-- Programs of the store. -/
abbrev JournalIo := Io (Disk Name) Site IoError Event

/-- An open store. -/
structure Store where
  file : Option ℕ := none
  size : ℕ := 0
  contents : Contents := {}
  denied : Option DeniedError := none
  tornRepaired : Bool := false
  schema : ℕ := schemaVersion

/-- What the methods of a nil file answer. -/
def errInvalid : IoError := ⟨false, "invalid argument"⟩

/-- An operation on the store's file, if it has one. -/
def onFile (file : Option ℕ) (op : ℕ → JournalIo (Option IoError)) :
    JournalIo (Option IoError) :=
  match file with
  | none => pure (some errInvalid)
  | some inode => op inode

/-! ### Opening -/

variable (s : Store)

/-- The store refuses writes from here on. -/
def Store.deny (reason : Reason) (detail : String) : Store :=
  { s with denied := some ⟨reason, detail⟩ }

/-- `createLog`. -/
def createLog : JournalIo (Option IoError × Store) := do
  match ← Disk.openTruncated .createOpen .journalLog with
  | .error cause => pure (some cause, s)
  | .ok inode =>
    match ← Disk.writeAt .createWrite inode header 0 with
    | some cause => pure (some cause, s)
    | none =>
      match ← Disk.sync .createSync inode with
      | some cause => pure (some cause, s)
      | none =>
        match ← Disk.syncDir .createSyncDir with
        | some cause => pure (some cause, s)
        | none =>
          Io.emit (.opened s.contents)
          pure (none, { s with file := some inode, size := headerSize })

/-- Start over with an empty log; a failure denies writes. -/
def startLog : JournalIo Store := do
  match ← createLog s with
  | (some cause, s) => pure (s.deny .writeFailed cause.message)
  | (none, s) => pure s

/-- The part of `load` after a successful replay: take the file for writing and
cut off a torn tail. -/
def openLog (inode : ℕ) (r : Replayed) : JournalIo Store := do
  let s := { s with contents := r.contents }
  match ← Disk.access .loadOpen with
  | some cause => pure (s.deny .unavailable cause.message)
  | none =>
    if r.torn then
      match ← Disk.truncate .tornTruncate inode r.good with
      | some cause => pure (s.deny .writeFailed ("truncate torn tail: " ++ cause.message))
      | none =>
        match ← Disk.sync .tornSync inode with
        | some cause => pure (s.deny .writeFailed ("sync torn tail repair: " ++ cause.message))
        | none =>
          Io.emit (.opened r.contents)
          pure { s with tornRepaired := true, file := some inode, size := r.good }
    else
      Io.emit (.opened r.contents)
      pure { s with file := some inode, size := r.good }

variable (codec : Codec) (o : Options)

/-- `load`, once the file has been read. -/
def loadData (inode : ℕ) (data : Bytes) : JournalIo Store :=
  let s : Store := {}
  if data.length < headerSize ∨ data.take magic.length ≠ magic then
    -- A crash while the header was being created leaves a short file.
    if data.length < headerSize then startLog s
    else pure (s.deny .corrupt "unrecognized journal header")
  else
    let schema := uint32 (data.drop magic.length)
    let s := { s with schema := schema }
    if schema > schemaVersion ∨ schema < 1 then
      pure (s.deny .schema ("journal schema " ++ toString schema ++ ", this Guard supports " ++
        toString schemaVersion))
    else
      match replay codec o data with
      | .error message =>
        pure ({ s with contents := replayPrefixOnly codec o data }.deny .corrupt message)
      | .ok r => openLog s inode r

/-- `load`. -/
def load : JournalIo Store := do
  match ← Disk.access .loadRead with
  | some cause => pure (Store.deny {} .unavailable cause.message)
  | none =>
    let disk ← Io.look
    match disk.dir .journalLog with
    | none => startLog {}
    | some inode => loadData codec o inode (disk.files inode).data

/-- `openRoot`: the options get their defaults once and for all. -/
def openRoot (opts : Options) : JournalIo Store := load codec opts.withDefaults

/-! ### Appending -/

/-- `failWriteLocked`. -/
def failWriteLocked (cause : IoError) : JournalIo (Option Err × Store) := do
  match ← onFile s.file fun inode => Disk.truncate .appendTruncate inode s.size with
  | some truncErr =>
    let denied : DeniedError := ⟨.writeFailed, cause.message ++ "; " ++ truncErr.message⟩
    pure (some (.denied denied), { s with denied := some denied })
  | none =>
    let denied : DeniedError := ⟨if cause.noSpace then .full else .writeFailed, cause.message⟩
    pure (some (.denied denied), { s with denied := some denied })

/-- The part of `appendLocked` after the record has been encoded within its
bound. -/
def appendFrame (rec : Record) (buf : Bytes) : JournalIo (Option Err × Store) := do
  match ← onFile s.file fun inode => Disk.writeAt .appendWrite inode buf s.size with
  | some cause => failWriteLocked s cause
  | none =>
    match ← onFile s.file fun inode => Disk.sync .appendSync inode with
    | some cause => failWriteLocked s cause
    | none =>
      match s.contents.apply rec with
      | .error message =>
        let denied : DeniedError := ⟨.corrupt, message⟩
        pure (some (.denied denied), { s with denied := some denied })
      | .ok contents =>
        Io.emit (.appended rec)
        pure (none, { s with contents := contents, size := s.size + buf.length })

/-- `appendLocked`. -/
def appendLocked (s : Store) (rec : Record) : JournalIo (Option Err × Store) :=
  match s.denied with
  | some denied => pure (some (.denied denied), s)
  | none => do
    let now ← Io.now
    let stamped := { rec with at_ := now }
    match encodeRecord codec stamped with
    | .error err => pure (some err, s)
    | .ok buf =>
      if (buf.length : ℤ) > o.maxRecord then pure (some .entryTooLarge, s)
      else appendFrame s stamped buf

/-! ### Compaction -/

/-- Write the records of the new log, one frame at a time. -/
def writeRecords (codec : Codec) (tmp : ℕ) : List Record → ℕ → JournalIo (Except Err ℕ)
  | [], offset => pure (.ok offset)
  | rec :: rest, offset =>
    match encodeRecord codec rec with
    | .error err => pure (.error err)
    | .ok buf => do
      match ← Disk.writeAt .compactWrite tmp buf offset with
      | some cause => pure (.error (.io cause))
      | none => writeRecords codec tmp rest (offset + buf.length)

/-- Write the whole new log: its header and its records. -/
def writeLog (tmp : ℕ) (recs : List Record) : JournalIo (Except Err ℕ) := do
  match ← Disk.writeAt .compactWrite tmp header 0 with
  | some cause => pure (.error (.io cause))
  | none => writeRecords codec tmp recs headerSize

/-- The end of `compactLocked`: the new file is the log, and memory is rebuilt
from what was written. -/
def adopt (now : ℤ) (recs : List Record) (tmp size : ℕ) : JournalIo (Option Err × Store) :=
  match Contents.applyWhile {} recs with
  | (contents, some message) =>
    let denied : DeniedError :=
      ⟨.corrupt, "compaction produced an inconsistent journal: " ++ message⟩
    pure (some (.denied denied),
      { s with file := some tmp, size := size, contents := contents, denied := some denied })
  | (contents, none) => do
      Io.emit (.compacted now)
      pure (none, { s with
        file := some tmp
        size := size
        contents := contents.noteGeneration s.contents.highGen })

/-- The middle of `compactLocked`: make the temporary file durable, give it the
log's name, make that durable. -/
def publish (now : ℤ) (recs : List Record) (tmp size : ℕ) : JournalIo (Option Err × Store) := do
  match ← Disk.sync .compactSync tmp with
  | some cause => pure (some (.io cause), s)
  | none =>
    match ← Disk.rename .compactRename tmp .journalLog (.published now s.contents) with
    | some cause => pure (some (.io cause), s)
    | none =>
      match ← Disk.syncDir .compactSyncDir with
      | some cause => pure (some (.io cause), s)
      | none => adopt s now recs tmp size

/-- `compactLocked`. -/
def compactLocked (s : Store) : JournalIo (Option Err × Store) :=
  match s.denied with
  | some denied => pure (some (.denied denied), s)
  | none => do
    let now ← Io.now
    let recs := compactRecords o now s.contents
    match ← Disk.createTemp .compactCreateTemp with
    | .error cause => pure (some (.io cause), s)
    | .ok tmp =>
      match ← writeLog codec tmp recs with
      | .error err => pure (some err, s)
      | .ok size => publish s now recs tmp size

/-! ### The operations -/

/-- `State` as the source prints it. -/
def State.text : State → String
  | .intent => "intent"
  | .dispatched => "dispatched"
  | .resultPending => "result_pending"
  | .outcomeUnknown => "outcome_unknown"
  | .acked => "acked"

/-- A mutator's answer: an error or nothing. -/
def answer (r : Option Err × Store) : Reply × Store := ({ err := r.1 }, r.2)

/-- An answer without any effect. -/
def refuse (err : Err) : JournalIo (Reply × Store) := pure ({ err := some err }, s)

/-- Append a record and answer with its error, if any. -/
def appendAnswer (s : Store) (rec : Record) : JournalIo (Reply × Store) := do
  let r ← appendLocked codec o s rec
  pure (answer r)

/-- `NoteGeneration`. -/
def noteGeneration (s : Store) (generation : ℤ) : JournalIo (Reply × Store) :=
  if generation ≤ s.contents.highGen then pure ({}, s)
  else appendAnswer codec o s { kind := .gen, generation := generation }

/-- `validIntent`. -/
def validIntent (intent : Intent) : Bool :=
  !(blank intent.commandID || blank intent.payloadDigest || blank intent.tenantID ||
    blank intent.workerID || blank intent.operation || blank intent.resourceKey)

/-- The space to keep free: one result for every admitted command that has none
yet, and one for the command to be admitted. -/
def reserve (c : Contents) : ℤ :=
  ((c.entries.toList.countP fun p => p.2.results.isEmpty : ℕ) + 1 : ℤ) * o.maxResultBytes

/-- The check of `reserveLocked` against the volume; a probe without an answer
passes. -/
def checkFree (free : Option ℕ) (s : Store) : Option Err :=
  match free with
  | none => none
  | some available =>
    if (available : ℤ) < reserve o s.contents + o.maxResultBytes.tdiv 4 then
      some (.denied ⟨.full, toString available ++ " bytes free on the journal volume"⟩)
    else none

/-- `reserveLocked`. -/
def reserveLocked (free : Option ℕ) (s : Store) : JournalIo (Option Err × Store) :=
  if (s.size : ℤ) + reserve o s.contents > o.maxBytes then do
    match ← compactLocked codec o s with
    | (some err, s) => pure (some err, s)
    | (none, s) =>
      if (s.size : ℤ) + reserve o s.contents > o.maxBytes then
        pure (some (.denied ⟨.full, "journal " ++ toString s.size ++ " of " ++
          toString o.maxBytes ++ " bytes with unacknowledged work"⟩), s)
      else pure (checkFree o free s, s)
  else pure (checkFree o free s, s)

/-- `Admit`, for a command that is neither known nor tombstoned. -/
def admitNew (s : Store) (free : Option ℕ) (intent : Intent) : JournalIo (Reply × Store) := do
  match ← reserveLocked codec o free s with
  | (some err, s) => refuse s err
  | (none, s) =>
    match ← appendLocked codec o s { kind := .intent, intent := some intent } with
    | (some err, s) => refuse s err
    | (none, s) => pure ({ entry := s.contents.entries[intent.commandID]? }, s)

/-- `Admit`. -/
def admit_ (s : Store) (free : Option ℕ) (intent : Intent) : JournalIo (Reply × Store) :=
  if !validIntent intent then
    refuse s (.invalid
      "intent requires command, tenant, worker, operation, resource and payload digest")
  else
    match s.contents.tombs[intent.commandID]? with
    | some tomb =>
      if tomb.digest ≠ intent.payloadDigest then refuse s .digestConflict
      else refuse s .tombstoned
    | none =>
      match s.contents.entries[intent.commandID]? with
      | some known =>
        if known.intent.payloadDigest ≠ intent.payloadDigest then refuse s .digestConflict
        else pure ({ entry := some known, existing := true }, s)
      | none =>
        match s.denied with
        | some denied => refuse s (.denied denied)
        | none =>
          if (intent.hint.length : ℤ) > o.maxIntentBytes then refuse s .entryTooLarge
          else admitNew codec o s free intent

/-- `MarkDispatched`. -/
def markDispatched (s : Store) (id : String) : JournalIo (Reply × Store) :=
  match s.contents.entries[id]? with
  | none => refuse s .notFound
  | some e =>
    if e.state ≠ .intent then refuse s (.invalidTransition ("dispatch from " ++ e.state.text))
    else appendAnswer codec o s { kind := .dispatched, id := id }

/-- `RecordExecutor`. -/
def recordExecutor (s : Store) (id : String) (ref : ExecutorRef) : JournalIo (Reply × Store) :=
  match s.contents.entries[id]? with
  | none => refuse s .notFound
  | some e =>
    if e.state ≠ .dispatched then
      refuse s (.invalidTransition ("executor record from " ++ e.state.text))
    else appendAnswer codec o s { kind := .executor, id := id, executor := some ref }

/-- What `RecordResult` says against a revision of an entry, if anything. -/
def resultError (e : EntryState) (result : ResultRecord) : Option String :=
  if result.revision ≠ (e.results.length : ℤ) + 1 then
    some ("revision " ++ toString result.revision ++ " after " ++ toString e.results.length)
  else if result.revision = 1 then
    match result.state with
    | .rejected => if e.state ≠ .intent then some "rejection after dispatch" else none
    | .resolved => some "a first revision cannot be a resolution"
    | _ => if e.state ≠ .dispatched then some "result before dispatch" else none
  else
    match e.latest with
    | some prior =>
      if !prior.open_ || result.state == .rejected || result.priorDigest != prior.digest then
        some "a resolution must supersede an outcome_unknown revision"
      else none
    | none => none

/-- `RecordResult`. -/
def recordResult (s : Store) (id : String) (result : ResultRecord) : JournalIo (Reply × Store) :=
  match result.state with
  | .other text => refuse s (.invalidTransition ("unknown report state \"" ++ text ++ "\""))
  | _ =>
    if blank result.digest then refuse s (.invalid "result requires a digest")
    else if (result.payload.length : ℤ) > o.maxResultBytes then refuse s .entryTooLarge
    else
      match s.contents.entries[id]? with
      | none => refuse s .notFound
      | some e =>
        match resultError e result with
        | some detail => refuse s (.invalidTransition detail)
        | none =>
          appendAnswer codec o s { kind := .result, id := id, result := some result }

/-- `Ack`. -/
def ack (codec : Codec) (o : Options) (s : Store) (id : String) (revision : ℤ)
    (rejected : Bool) : JournalIo (Reply × Store) :=
  match s.contents.entries[id]? with
  | none => refuse s .notFound
  | some e =>
    if revision < 1 ∨ revision > (e.results.length : ℤ) then
      refuse s (.invalidTransition ("ack of revision " ++ toString revision))
    else if revision ≤ e.ackedRevision ∧ rejected = false then pure ({}, s)
    else do
      match ← appendLocked codec o s
          { kind := .ack, id := id, revision := revision, rejected := rejected } with
      | (some err, s) => refuse s err
      | (none, s) =>
        if (s.size : ℤ) > o.compactAfterBytes then
          -- Compaction failure must not turn a durable ack into an error.
          let (_, s) ← compactLocked codec o s
          pure ({}, s)
        else pure ({}, s)

/-- `Compact`. -/
def compact (s : Store) : JournalIo (Reply × Store) := do
  let r ← compactLocked codec o s
  pure (answer r)

/-! ### The end of a journal -/

/-- `zeroFile`, from an offset on: overwrite with zeros, a mebibyte at a time. -/
def zeroFrom (site : Site) (inode size offset : ℕ) : JournalIo (Option IoError) :=
  if offset < size then do
    match ← Disk.writeAt site inode (List.replicate (min (size - offset) (2 ^ 20)) 0) offset with
    | some cause => pure (some cause)
    | none => zeroFrom site inode size (offset + min (size - offset) (2 ^ 20))
  else pure none
termination_by size - offset

/-- `zeroFile`. -/
def zeroFile (writeSite syncSite : Site) (inode size : ℕ) : JournalIo (Option IoError) := do
  match ← zeroFrom writeSite inode size 0 with
  | some cause => pure (some cause)
  | none => Disk.sync syncSite inode

/-- The first half of `destroyLogLocked`: overwrite the named file, if it can be
opened; what fails here is ignored. -/
def wipeLog : JournalIo Unit := do
  let disk ← Io.look
  match disk.dir .journalLog with
  | none => pure ()
  | some inode =>
    match ← Disk.access .destroyOpen with
    | some _ => pure ()
    | none =>
      let _ ← zeroFile .destroyWrite .destroySync inode (disk.files inode).data.length
      pure ()

/-- `destroyLogLocked`. -/
def destroyLogLocked : JournalIo (Option Err × Store) := do
  let s := { s with file := none }
  wipeLog
  match ← Disk.remove .destroyRemove .journalLog with
  | some cause => pure (some (.io cause), s)
  | none => pure (none, { s with size := 0 })

/-- Keep only some entries, and no tombstone. -/
def Store.prune (keep : String → EntryState → Bool) : Store :=
  { s with contents := { s.contents with entries := s.contents.entries.filter keep, tombs := ∅ } }

/-- `Decommission`. -/
def decommission (s : Store) : JournalIo (Reply × Store) :=
  match s.denied with
  | some denied => pure ({ err := some (.denied denied), count := s.contents.entries.size }, s)
  | none =>
    let s := s.prune fun _ e => e.state != .acked
    let kept := s.contents.entries.size
    if kept > 0 then
      match s.file with
      | none => pure ({ err := some (.invalid "journal is closed"), count := kept }, s)
      | some _ => do
          let (err, s) ← compactLocked codec o s
          pure ({ err := err, count := kept }, s)
    else do
      let (err, s) ← destroyLogLocked s
      pure ({ err := err }, s)

/-- The end of `HandOff` when entries of other tenants remain: rewrite the log
without the removed ones, then overwrite the old file. -/
def rewriteAndWipe (s : Store) (removed : ℕ) : JournalIo (Reply × Store) := do
  let disk ← Io.look
  match disk.dir .journalLog with
  | none => pure ({ err := some (.io ⟨false, "file does not exist"⟩), count := removed }, s)
  | some old =>
    match ← Disk.access .handOffOpen with
    | some cause => pure ({ err := some (.io cause), count := removed }, s)
    | none =>
      match ← Disk.access .handOffStat with
      | some cause => pure ({ err := some (.io cause), count := removed }, s)
      | none =>
        match ← compactLocked codec o s with
        | (some err, s) => pure ({ err := some err, count := removed }, s)
        | (none, s) =>
          let cause ← zeroFile .handOffWrite .handOffSync old (disk.files old).data.length
          pure ({ err := cause.map .io, count := removed }, s)

/-- `HandOff`. -/
def handOff (s : Store) (tenantID : String) : JournalIo (Reply × Store) :=
  match s.denied with
  | some denied => refuse s (.denied denied)
  | none =>
    if blank tenantID then refuse s (.invalid "a handoff names the prior tenant")
    else
      let before := s.contents.entries.size
      let s := s.prune fun _ e => e.intent.tenantID != tenantID
      let removed := before - s.contents.entries.size
      if s.contents.entries.size = 0 then do
        let (err, s) ← destroyLogLocked s
        pure ({ err := err, count := removed }, s)
      else
        match s.file with
        | none => pure ({ err := some (.invalid "journal is closed"), count := removed }, s)
        | some _ => rewriteAndWipe codec o s removed

/-- One call of the store. -/
def call (s : Store) : Call → JournalIo (Reply × Store)
  | .admit_ free intent => admit_ codec o s free intent
  | .markDispatched id => markDispatched codec o s id
  | .recordExecutor id ref => recordExecutor codec o s id ref
  | .recordResult id result => recordResult codec o s id result
  | .ack id revision rejected => ack codec o s id revision rejected
  | .noteGeneration generation => noteGeneration codec o s generation
  | .compact => compact codec o s
  | .decommission => decommission codec o s
  | .handOff tenantID => handOff codec o s tenantID

end TechStack.Journal
