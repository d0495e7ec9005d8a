import TechStack.Lib.Bytes
import TechStack.Lib.Text

/-!
# The Guard journal: data model

The types of `pkg/agent/journal`: what a command's intent, its executor and its
result revisions record, the record as it is written to the log, and the state
of one command that is derived from them.

Instants are integers, nanoseconds since Go's zero time, so that zero is the
unset instant (`IsZero`); durations are nanoseconds.  JSON fragments the journal
carries but never reads (`hint`, `payload`) are byte strings.
-/

namespace TechStack.Journal

open Lib

/-- `Time.IsZero`: the unset instant. -/
def isZero (t : ℤ) : Bool := t == 0

/-- The derived durable state of one command. -/
inductive State where
  | intent
  | dispatched
  | resultPending
  | outcomeUnknown
  | acked
  deriving DecidableEq

/-- The report states a result record carries; any other text is kept as such. -/
inductive ReportState where
  | terminal
  | outcomeUnknown
  | rejected
  | resolved
  | other (text : String)
  deriving DecidableEq

/-- Why a journal refuses new writes. -/
inductive Reason where
  | corrupt
  | schema
  | full
  | writeFailed
  | permissions
  | unavailable
  deriving DecidableEq

/-- The journal refuses new writes. -/
structure DeniedError where
  reason : Reason
  detail : String
  deriving DecidableEq

/-- An error of the operating system: whether it says that the volume is full,
and its text. -/
structure IoError where
  noSpace : Bool
  message : String
  deriving DecidableEq

/-- What a journal operation can answer besides success. -/
inductive Err where
  | tombstoned
  | digestConflict
  | entryTooLarge
  | invalidTransition (detail : String)
  | notFound
  | denied (error : DeniedError)
  | io (cause : IoError)
  | marshal (message : String)
  | invalid (message : String)
  deriving DecidableEq

/-- The minimum durable identity of an admitted command. -/
structure Intent where
  commandID : String
  tenantID : String
  workerID : String
  operation : String
  mutating : Bool
  generation : ℤ
  payloadDigest : String
  authorityExpiresAt : ℤ
  contractVersion : String
  resourceKey : String
  hint : Bytes
  deriving DecidableEq

/-- The executor process group of a dispatched command. -/
structure ExecutorRef where
  pid : ℤ
  pgid : ℤ
  startTicks : ℕ
  deriving DecidableEq

/-- One immutable outcome revision. -/
structure ResultRecord where
  revision : ℤ
  state : ReportState
  digest : String
  priorDigest : String
  reason : String
  resolution : String
  truncated : Bool
  sensitiveOmitted : Bool
  payload : Bytes
  at_ : ℤ
  deriving DecidableEq

/-- `ResultRecord.Open`: the revision leaves the outcome unsettled. -/
def ResultRecord.open_ (r : ResultRecord) : Bool :=
  r.state == .outcomeUnknown ||
    (r.state == .resolved && r.resolution == "operator_escalation")

/-- A result revision without its payload, as compaction keeps acknowledged
ones. -/
def ResultRecord.dropPayload (r : ResultRecord) : ResultRecord := { r with payload := [] }

/-- One command in memory: the entry and the time of its last acknowledgement. -/
@[ext] structure EntryState where
  intent : Intent
  state : State
  intentAt : ℤ
  dispatchedAt : ℤ
  executor : Option ExecutorRef
  results : List ResultRecord
  ackedRevision : ℤ
  rejected : Bool
  ackedAt : ℤ
  deriving DecidableEq

namespace EntryState

/-- `Entry.Latest`: the newest result revision. -/
def latest (e : EntryState) : Option ResultRecord := e.results.getLast?

/-- The state `recompute` derives from an entry's other fields. -/
def derivedState (e : EntryState) : State :=
  match e.latest with
  | some last =>
    if last.open_ then .outcomeUnknown
    else if e.ackedRevision ≥ last.revision then .acked
    else .resultPending
  | none => if !isZero e.dispatchedAt then .dispatched else .intent

/-- `entryState.recompute`. -/
def recompute (e : EntryState) : EntryState := { e with state := e.derivedState }

/-- An entry that holds nothing but its intent. -/
def ofIntent (intent : Intent) (at_ : ℤ) : EntryState where
  intent := intent
  state := .intent
  intentAt := at_
  dispatchedAt := 0
  executor := none
  results := []
  ackedRevision := 0
  rejected := false
  ackedAt := 0

/-- The derived state looks at three fields only. -/
lemma derivedState_congr {e e' : EntryState} (results : e.results = e'.results)
    (acked : e.ackedRevision = e'.ackedRevision)
    (dispatched : e.dispatchedAt = e'.dispatchedAt) : e.derivedState = e'.derivedState := by
  simp only [derivedState, latest, results, acked, dispatched]

end EntryState

/-- What a compacted command leaves behind to reject its replay. -/
structure Tombstone where
  digest : String
  expiresAt : ℤ
  deriving DecidableEq

/-- The kinds of log record; any other text is kept as such. -/
inductive Kind where
  | gen
  | intent
  | dispatched
  | executor
  | result
  | ack
  | tombstone
  | other (text : String)
  deriving DecidableEq

/-- One log record.  Which of the optional parts is present depends on the kind;
the reader checks it. -/
structure Record where
  kind : Kind
  id : String := ""
  at_ : ℤ := 0
  intent : Option Intent := none
  executor : Option ExecutorRef := none
  result : Option ResultRecord := none
  revision : ℤ := 0
  rejected : Bool := false
  generation : ℤ := 0
  tombstone : Option Tombstone := none
  deriving DecidableEq

/-- The bounds of a journal. -/
structure Options where
  maxBytes : ℤ
  maxResultBytes : ℤ
  maxIntentBytes : ℤ
  clockMargin : ℤ
  minTombstone : ℤ
  compactAfterBytes : ℤ

/-- `Options.withDefaults`: a bound that is not positive selects the shipped one
(`pkg/guardcompat`). -/
def Options.withDefaults (o : Options) : Options where
  maxBytes := if o.maxBytes ≤ 0 then 256 * 2 ^ 20 else o.maxBytes
  maxResultBytes := if o.maxResultBytes ≤ 0 then 24 * 2 ^ 20 else o.maxResultBytes
  maxIntentBytes := if o.maxIntentBytes ≤ 0 then 64 * 2 ^ 10 else o.maxIntentBytes
  clockMargin := if o.clockMargin ≤ 0 then 15 * 60 * 10 ^ 9 else o.clockMargin
  minTombstone := if o.minTombstone ≤ 0 then 3600 * 10 ^ 9 else o.minTombstone
  compactAfterBytes := if o.compactAfterBytes ≤ 0 then 8 * 2 ^ 20 else o.compactAfterBytes

/-- `maxRecordExtra`: the headroom over `maxResultBytes` for the JSON envelope. -/
def maxRecordExtra : ℤ := 2 ^ 20

/-- The bound the writer puts on a frame and the reader on a payload. -/
def Options.maxRecord (o : Options) : ℤ := o.maxResultBytes + maxRecordExtra

end TechStack.Journal
