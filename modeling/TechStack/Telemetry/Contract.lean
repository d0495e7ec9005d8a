import TechStack.Lib.Bytes
import TechStack.Lib.Text

/-!
# Guard telemetry: contract

`contract.go`: what a Guard may send, the bounds of a batch, and the check that the
control plane makes of one.

Instants are integers, nanoseconds since Go's zero time.  A sample's value is a rational,
or `none` when it is not finite.  The structured drive observations are carried as the
JSON they are; what the control plane demands of them (`drivehealth.Collection.Validate`)
is a parameter.
-/

namespace TechStack.Telemetry

open Lib

/-! ### Bounds -/

def maxBatchBytes : ℕ := 1048576
def maxRecordsPerBatch : ℕ := 64
def maxSamplesPerRecord : ℕ := 600
def maxSamplesPerBatch : ℕ := 6000
def maxLabelValueBytes : ℕ := 128

/-- Five minutes. -/
def maxClockSkew : ℤ := 5 * 60 * 1000000000

/-- Fifteen days. -/
def maxRecordAge : ℤ := 15 * 24 * 3600 * 1000000000

/-- `BatchSchema`. -/
def batchSchema : String := "kombify.guard-telemetry/v1"

/-! ### Samples -/

/-- One data point.  The labels are in the order of their keys, as they are written. -/
structure Sample where
  name : String
  value : Option ℚ
  labels : List (String × String)
  deriving DecidableEq

/-- `contract`: the label keys that each metric may carry. -/
def contract : List (String × List String) :=
  [("node_cpu_usage_percent", ["core", "origin"]),
    ("node_load_1", ["origin"]),
    ("node_load_5", ["origin"]),
    ("node_load_15", ["origin"]),
    ("node_memory_total_bytes", ["origin"]),
    ("node_memory_used_bytes", ["origin"]),
    ("node_memory_available_bytes", ["origin"]),
    ("node_memory_cached_bytes", ["origin"]),
    ("node_memory_buffers_bytes", ["origin"]),
    ("node_memory_usage_percent", ["origin"]),
    ("node_swap_total_bytes", ["origin"]),
    ("node_swap_used_bytes", ["origin"]),
    ("node_swap_usage_percent", ["origin"]),
    ("node_disk_total_bytes", ["mount", "origin"]),
    ("node_disk_used_bytes", ["mount", "origin"]),
    ("node_disk_free_bytes", ["mount", "origin"]),
    ("node_disk_usage_percent", ["mount", "origin"]),
    ("node_uptime_seconds", ["origin"]),
    ("container_running", ["container_name", "origin"]),
    ("container_cpu_usage_percent", ["container_name", "origin"]),
    ("container_memory_usage_bytes", ["container_name", "origin"]),
    ("container_memory_limit_bytes", ["container_name", "origin"]),
    ("container_memory_usage_percent", ["container_name", "origin"])]

def isDigit (c : Char) : Bool := '0' ≤ c && c ≤ '9'

def isLower (c : Char) : Bool := 'a' ≤ c && c ≤ 'z'

def isUpper (c : Char) : Bool := 'A' ≤ c && c ≤ 'Z'

/-- `coreValue`: `total`, or one to four digits. -/
def coreValue (value : String) : Bool :=
  value == "total" ||
    (1 ≤ value.toList.length && value.toList.length ≤ 4 && value.toList.all isDigit)

/-- `containerNameValue`. -/
def containerNameValue (value : String) : Bool :=
  match value.toList with
  | [] => false
  | first :: rest =>
    (isDigit first || isLower first || isUpper first) && rest.length ≤ 127 &&
      rest.all fun c => isDigit c || isLower c || isUpper c || c == '_' || c == '.' || c == '-'

/-- `validLabel`. -/
def validLabel (key value : String) : Bool :=
  if key = "core" then coreValue value
  else if key = "container_name" then containerNameValue value
  else if key = "mount" then
    value ≠ "" && value.utf8ByteSize ≤ maxLabelValueBytes && value.toList.head? == some '/' &&
      !value.toList.any fun c => c.toNat == 0 || c.toNat == 10 || c.toNat == 13
  else if key = "origin" then value == "guard" || value == "otlp"
  else false

/-- `Admit`. -/
def admitSample (sample : Sample) : Bool :=
  match contract.lookup sample.name with
  | none => false
  | some allowed =>
    sample.value.isSome && sample.labels.length ≤ allowed.length &&
      (sample.labels.all fun label => allowed.contains label.1 && validLabel label.1 label.2) &&
      sample.labels.any fun label => label.1 == "origin"

/-- `Filter`: the admitted samples, and how many were dropped. -/
def filterSamples (samples : List Sample) : List Sample × ℕ :=
  (samples.filter admitSample, (samples.filter fun sample => !admitSample sample).length)

/-! ### Records -/

/-- Why a marker stands for lost data. -/
inductive GapReason where
  | spoolBudget
  | rejected
  | other (text : String)
  deriving DecidableEq

/-- The reason as it is written. -/
def GapReason.text : GapReason → String
  | .spoolBudget => "spool_budget"
  | .rejected => "rejected"
  | .other text => text

/-- `gapReasonValue`. -/
def gapReasonValue (reason : GapReason) : Bool :=
  let chars := reason.text.toList
  1 ≤ chars.length && chars.length ≤ 32 &&
    chars.all fun c => isLower c || isDigit c || c == '_'

/-- A marker that telemetry between two instants was not kept. -/
structure Gap where
  fromTime : ℤ
  toTime : ℤ
  fromSequence : ℕ
  toSequence : ℕ
  reason : GapReason
  deriving DecidableEq

/-- One collection cycle, or a gap marker. -/
structure Record where
  sequence : ℕ
  «at» : ℤ
  samples : List Sample := []
  gap : Option Gap := none
  driveHealth : Option Bytes := none
  deriving DecidableEq

/-- What the Guard posts. -/
structure Batch where
  schemaVersion : String
  sourceEpoch : String
  records : List Record

/-! ### The check of a batch -/

/-- Why a batch is not acceptable: `schema … is not …`, `the source epoch is missing`,
`a batch carries between 1 and … records`, `record sequences must increase`, `record …
has no usable time`, `record … carries … samples`, `record … has invalid drive
observations`, `record … holds a malformed gap marker`, `the batch carries … samples`. -/
inductive Invalid where
  | schema (got : String)
  | epoch
  | records
  | order
  | time (sequence : ℕ)
  | samples (sequence count : ℕ)
  | drives (sequence : ℕ)
  | gap (sequence : ℕ)
  | total (count : ℕ)
  deriving DecidableEq

/-- A marker is malformed. -/
def malformedGap (record : Record) (gap : Gap) : Bool :=
  record.samples ≠ [] || record.driveHealth.isSome || !gapReasonValue gap.reason ||
    gap.fromTime = 0 || gap.toTime < gap.fromTime || gap.toSequence < gap.fromSequence ||
    gap.toTime - gap.fromTime > maxRecordAge

section Validate

variable (validDrives : Bytes → ℤ → Bool)

/-- One turn of the loop of `Validate`, after the record with the sequence `last`. -/
def validateRecord (now : ℤ) (last : ℕ) (record : Record) : Except Invalid Unit :=
  if record.sequence ≤ last then .error .order
  else if record.at = 0 ∨ record.at > now + maxClockSkew ∨ now - record.at > maxRecordAge then
    .error (.time record.sequence)
  else if record.samples.length > maxSamplesPerRecord then
    .error (.samples record.sequence record.samples.length)
  else if record.driveHealth.any fun drives => !validDrives drives now then
    .error (.drives record.sequence)
  else if record.gap.any (malformedGap record) then .error (.gap record.sequence)
  else .ok ()

/-- The loop of `Validate`; it answers how many samples there are. -/
def validateRecords (now : ℤ) : ℕ → List Record → Except Invalid ℕ
  | _, [] => .ok 0
  | last, record :: rest => do
      validateRecord validDrives now last record
      let total ← validateRecords now record.sequence rest
      return record.samples.length + total

/-- `Batch.Validate`. -/
def Batch.validate (now : ℤ) (batch : Batch) : Except Invalid Unit :=
  if batch.schemaVersion ≠ batchSchema then .error (.schema batch.schemaVersion)
  else if trimSpace batch.sourceEpoch = "" ∨ (trimSpace batch.sourceEpoch).utf8ByteSize > 64 then
    .error .epoch
  else if batch.records = [] ∨ batch.records.length > maxRecordsPerBatch then .error .records
  else
    match validateRecords validDrives now 0 batch.records with
    | .error err => .error err
    | .ok total => if total > maxSamplesPerBatch then .error (.total total) else .ok ()

end Validate

end TechStack.Telemetry
