import TechStack.Telemetry.Acceptance

/-!
# From the spool to the control plane

`agent.go`, `ingest.go`: the Guard sends what is oldest in its spool and removes what is
acknowledged; the control plane hands the records of a batch above its cursor to the
sinks and moves the cursor.  Requests and answers travel on their own and may be lost,
several batches may be on their way or being ingested at the same time, and the spool is
filled meanwhile.

All file, cursor and sink operations succeed here.  A batch may be refused by the check
of its contents or because its body does not fit; the label says whether it fits.  The
sinks are a list of the records of which something was passed to them.
-/

namespace TechStack.Telemetry

open Std (ExtTreeMap)
open Lib

/-- `Cursor`. -/
structure Cursor where
  epoch : String
  lastSequence : ℕ

/-- `CursorStore.Advance`: within an epoch the cursor never goes back. -/
def Cursor.advance (old new : Cursor) : Cursor :=
  if old.epoch = new.epoch then ⟨new.epoch, max old.lastSequence new.lastSequence⟩ else new

/-- How many samples `sinkSamples` makes of a record: one of a marker, and those that `Filter`
admits of data. -/
def sinkSamples (record : Record) : ℕ :=
  if record.gap.isSome then 1 else (filterSamples record.samples).1.length

/-- Something of the record goes to a sink: its drive observations, or a sample. -/
def Record.passes (record : Record) : Bool := record.driveHealth.isSome || 0 < sinkSamples record

/-- A run of `Ingest`: its batch, what is still to be handled, the sequence that the cursor
had when it was read, and the one to acknowledge. -/
structure IngestRun where
  records : List Record
  rest : List Record
  last : ℕ
  acked : ℕ

/-- What the control plane answers to a batch: an acknowledgement, or that it is not
acceptable. -/
structure Response where
  records : List Record
  acked : Option ℕ

/-- The Guard, the control plane and what is on its way between them. -/
structure Link where
  dir : Dir
  spool : Spool
  requests : List (List Record)
  ingests : List IngestRun
  responses : List Response
  cursor : Cursor
  /-- The records of which something was passed to the sinks. -/
  passed : List Record

/-- The steps of the link; numbers choose among what is on its way. -/
inductive Move where
  | append (atTime : ℤ) (samples : List Sample) (drives : Option Bytes)
  /-- `Flush` peeks and sends. -/
  | flush
  | loseRequest (i : ℕ)
  /-- `Ingest` takes up a request: it decodes, checks and reads the cursor. -/
  | receive (i : ℕ) (now : ℤ) (fits : Bool)
  /-- `Ingest` handles the next record. -/
  | handle (i : ℕ)
  /-- `Ingest` moves the cursor and answers. -/
  | finish (i : ℕ)
  | loseResponse (i : ℕ)
  /-- `Flush` gets its answer. -/
  | answer (i : ℕ)

namespace Link

variable (codec : Codec) (validDrives : Bytes → ℤ → Bool)

/-- The sequence up to which the control plane skips what it is sent. -/
def cursorAt (link : Link) : ℕ :=
  if link.cursor.epoch = trimSpace link.spool.epoch then link.cursor.lastSequence else 0

/-- A call of the spool. -/
def callSpool (op : Op) (link : Link) : Option (Answer × Link) :=
  match (call codec link.spool op).run calm link.dir [] with
  | (some (s, answer), w) => some (answer, { link with dir := w.device, spool := s })
  | (none, _) => none

/-- `Flush`, up to the request: nothing is sent when nothing is waiting. -/
def flush (link : Link) : Option Link := do
  let (answer, link) ← link.callSpool codec (.peek maxRecordsPerBatch flushBytes)
  match answer with
  | .peeked (.ok out) =>
    if out = [] then some link else some { link with requests := link.requests ++ [out] }
  | _ => some link

/-- `Ingest`, up to the loop. -/
def receive (i : ℕ) (now : ℤ) (fits : Bool) (link : Link) : Option Link := do
  let records ← link.requests[i]?
  let link := { link with requests := link.requests.eraseIdx i }
  if fits = true ∧ (batchOf link.spool records).validate validDrives now = .ok () then
    some { link with
      ingests := link.ingests ++ [⟨records, records, link.cursorAt, link.cursorAt⟩] }
  else some { link with responses := link.responses ++ [⟨records, none⟩] }

/-- One turn of the loop of `Ingest`. -/
def handle (i : ℕ) (link : Link) : Option Link := do
  let run ← link.ingests[i]?
  match run.rest with
  | [] => none
  | record :: rest =>
    if record.sequence ≤ run.last then
      some { link with ingests := link.ingests.set i { run with rest := rest } }
    else
      some { link with
        ingests := link.ingests.set i { run with rest := rest, acked := record.sequence }
        passed := if record.passes then link.passed ++ [record] else link.passed }

/-- The end of `Ingest`; the cursor of the epoch is moved if there is something to move,
or if it was another epoch's. -/
def finish (i : ℕ) (link : Link) : Option Link := do
  let run ← link.ingests[i]?
  if run.rest = [] then
    some { link with
      ingests := link.ingests.eraseIdx i
      cursor := link.cursor.advance ⟨trimSpace link.spool.epoch, run.acked⟩
      responses := link.responses ++ [⟨run.records, some run.acked⟩] }
  else none

/-- The last sequence of a batch. -/
def lastOf (records : List Record) : ℕ := (records.getLast?.map Record.sequence).getD 0

/-- `Flush`, from the answer on. -/
def answer (i : ℕ) (link : Link) : Option Link := do
  let response ← link.responses[i]?
  let link := { link with responses := link.responses.eraseIdx i }
  match response.acked with
  | none =>
    -- The answer to a batch that is refused does not say that drive health is
    -- supported, so a batch that carries some stays where it is.
    if response.records.any fun record => record.driveHealth.isSome then some link
    else (link.callSpool codec (.discard (lastOf response.records) .rejected)).map Prod.snd
  | some acked =>
    let acked := min acked (lastOf response.records)
    if acked = 0 then some link
    else (link.callSpool codec (.ack acked)).map Prod.snd

/-- One step. -/
def act (link : Link) : Move → Option Link
  | .append atTime samples drives =>
    (link.callSpool codec (.append atTime samples drives)).map Prod.snd
  | .flush => link.flush codec
  | .loseRequest i =>
    if i < link.requests.length then some { link with requests := link.requests.eraseIdx i }
    else none
  | .receive i now fits => link.receive validDrives i now fits
  | .handle i => link.handle i
  | .finish i => link.finish i
  | .loseResponse i =>
    if i < link.responses.length then some { link with responses := link.responses.eraseIdx i }
    else none
  | .answer i => link.answer codec i

end Link

/-- A new spool, and a control plane that knows nothing of it. -/
def Link.start (codec : Codec) (cfg : Config) (random : Fin 12 → UInt8) (cursor : Cursor) : Link :=
  ⟨saved codec (fresh cfg random) ∅, fresh cfg random, [], [], [], cursor, []⟩

/-- The link as a machine. -/
def delivery (codec : Codec) (validDrives : Bytes → ℤ → Bool) : Machine Link Move where
  init link := ∃ cfg random cursor, link = Link.start codec cfg random cursor ∧
    cursor.epoch ≠ link.spool.epoch
  step link move link' := link.act codec validDrives move = some link'

end TechStack.Telemetry
