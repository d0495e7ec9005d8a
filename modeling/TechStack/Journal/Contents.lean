import TechStack.Journal.Types
import TechStack.Lib.OrdMap

/-!
# What a journal holds, and how a record changes it

`Contents` is the in-memory state of a `Store` that its log determines: the
entries, the deduplication tombstones and the highest credential generation.
`apply` is the store's `apply`: every record, whether it was just appended or is
being replayed, changes the contents through it and through nothing else.

`compactRecords` is the pure part of `compactLocked`: the records the rewritten
log consists of.  Maps are iterated in key order there, as the source sorts the
keys first.
-/

namespace TechStack.Journal

open Lib Std

/-- The part of a store's state that its log determines. -/
structure Contents where
  entries : ExtTreeMap String EntryState compare := ∅
  tombs : ExtTreeMap String Tombstone compare := ∅
  highGen : ℤ := 0

namespace EntryState

/-- A `dispatched` record. -/
def dispatch (e : EntryState) (at_ : ℤ) : EntryState :=
  { e with dispatchedAt := at_ }.recompute

/-- An `executor` record; the source does not recompute the state here. -/
def setExecutor (e : EntryState) (ref : ExecutorRef) : EntryState :=
  { e with executor := some ref }

/-- A `result` record. -/
def addResult (e : EntryState) (result : ResultRecord) : EntryState :=
  { e with results := e.results ++ [result] }.recompute

/-- An `ack` record: the acknowledged revision only moves forward, and its time
with it. -/
def acknowledge (e : EntryState) (at_ : ℤ) (revision : ℤ) (rejected : Bool) :
    EntryState :=
  { e with
    ackedRevision := max e.ackedRevision revision
    ackedAt := if revision > e.ackedRevision then at_ else e.ackedAt
    rejected := e.rejected || rejected }.recompute

section Acknowledge

variable (e : EntryState) (t revision : ℤ) (rejected : Bool)

@[simp] lemma acknowledge_intent : (e.acknowledge t revision rejected).intent = e.intent := rfl

@[simp] lemma acknowledge_intentAt :
    (e.acknowledge t revision rejected).intentAt = e.intentAt := rfl

@[simp] lemma acknowledge_dispatchedAt :
    (e.acknowledge t revision rejected).dispatchedAt = e.dispatchedAt := rfl

@[simp] lemma acknowledge_executor :
    (e.acknowledge t revision rejected).executor = e.executor := rfl

@[simp] lemma acknowledge_results :
    (e.acknowledge t revision rejected).results = e.results := rfl

@[simp] lemma acknowledge_ackedRevision :
    (e.acknowledge t revision rejected).ackedRevision = max e.ackedRevision revision := rfl

@[simp] lemma acknowledge_rejected :
    (e.acknowledge t revision rejected).rejected = (e.rejected || rejected) := rfl

lemma acknowledge_ackedAt : (e.acknowledge t revision rejected).ackedAt =
      if revision > e.ackedRevision then t else e.ackedAt := rfl

lemma acknowledge_state : (e.acknowledge t revision rejected).state =
      (e.acknowledge t revision rejected).derivedState := rfl

end Acknowledge

end EntryState

variable {c c' : Contents} {records : List Record}

namespace Contents

/-- Raise the highest generation seen. -/
def noteGeneration (c : Contents) (generation : ℤ) : Contents :=
  { c with highGen := max c.highGen generation }

/-- Replace the entry of a command. -/
def setEntry (c : Contents) (id : String) (e : EntryState) : Contents :=
  { c with entries := c.entries.insert id e }

/-- `Store.apply`. -/
def apply (c : Contents) (rec : Record) : Except String Contents :=
  match rec.kind with
  | .gen => .ok (c.noteGeneration rec.generation)
  | .intent =>
    match rec.intent with
    | none => .error "intent without identity"
    | some intent =>
      if intent.commandID = "" then .error "intent without identity"
      else match c.entries[intent.commandID]? with
        | some _ => .error "duplicate intent"
        | none =>
          .ok ((c.setEntry intent.commandID
            (EntryState.ofIntent intent rec.at_).recompute).noteGeneration
              intent.generation)
  | .dispatched =>
    match c.entries[rec.id]? with
    | none => .error "dispatched marker without intent"
    | some e => .ok (c.setEntry rec.id (e.dispatch rec.at_))
  | .executor =>
    match c.entries[rec.id]?, rec.executor with
    | some e, some ref => .ok (c.setEntry rec.id (e.setExecutor ref))
    | _, _ => .error "executor record without intent"
  | .result =>
    match c.entries[rec.id]?, rec.result with
    | some e, some result =>
      if result.revision ≠ (e.results.length : ℤ) + 1 then
        .error "result record out of order"
      else .ok (c.setEntry rec.id (e.addResult result))
    | _, _ => .error "result record out of order"
  | .ack =>
    match c.entries[rec.id]? with
    | none => .error "ack for unknown revision"
    | some e =>
      if rec.revision < 1 ∨ rec.revision > (e.results.length : ℤ) then
        .error "ack for unknown revision"
      else .ok (c.setEntry rec.id (e.acknowledge rec.at_ rec.revision rec.rejected))
  | .tombstone =>
    match rec.tombstone with
    | none => .error "tombstone without identity"
    | some tomb =>
      if rec.id = "" then .error "tombstone without identity"
      else .ok { c with
        entries := c.entries.erase rec.id
        tombs := c.tombs.insert rec.id tomb }
  | .other text => .error ("unknown record kind \"" ++ text ++ "\"")

/-- Apply records in order; the first refusal ends it. -/
def applyAll (c : Contents) (records : List Record) : Except String Contents :=
  records.foldlM apply c

/-- Apply records in order up to the first refusal: the contents reached, and
the refusal if there was one. -/
def applyWhile (c : Contents) : List Record → Contents × Option String
  | [] => (c, none)
  | rec :: records =>
    match c.apply rec with
    | .ok c' => applyWhile c' records
    | .error message => (c, some message)

section

variable (c : Contents) (id : String) (e : EntryState) (generation : ℤ)

@[simp] lemma setEntry_entries_self :
    (c.setEntry id e).entries[id]? = some e := by
  simp [setEntry]

lemma setEntry_entries (other : String) :
    (c.setEntry id e).entries[other]? = if id = other then some e else c.entries[other]? := by
  simp [setEntry, ExtTreeMap.getElem?_insert]

@[simp] lemma setEntry_tombs : (c.setEntry id e).tombs = c.tombs := rfl

@[simp] lemma setEntry_highGen : (c.setEntry id e).highGen = c.highGen := rfl

@[simp] lemma noteGeneration_entries : (c.noteGeneration generation).entries = c.entries := rfl

@[simp] lemma noteGeneration_tombs : (c.noteGeneration generation).tombs = c.tombs := rfl

@[simp] lemma noteGeneration_highGen :
    (c.noteGeneration generation).highGen = max c.highGen generation := rfl

lemma setEntry_setEntry (e' : EntryState) : (c.setEntry id e).setEntry id e' = c.setEntry id e' := by
  unfold setEntry
  congr 1
  refine ExtTreeMap.ext_getElem? fun other => ?_
  simp only [ExtTreeMap.getElem?_insert]
  split <;> rfl

end

lemma noteGeneration_of_le {c : Contents} {generation : ℤ} (low : generation ≤ c.highGen) :
    c.noteGeneration generation = c := by
  rw [noteGeneration, max_eq_left low]

@[simp] lemma applyAll_nil (c : Contents) : c.applyAll [] = .ok c := rfl

lemma applyAll_cons (c : Contents) (rec : Record) (records : List Record) :
    c.applyAll (rec :: records) = (c.apply rec >>= fun c' => c'.applyAll records) := rfl

lemma applyAll_append (c : Contents) (front back : List Record) :
    c.applyAll (front ++ back) = (c.applyAll front >>= fun c' => c'.applyAll back) := by
  simp [applyAll, List.foldlM_append]

section

variable (applied : c.applyAll records = .ok c')
include applied

lemma applyAll_concat_ok (rec : Record) : c.applyAll (records ++ [rec]) = c'.apply rec := by
  rw [applyAll_append, applied]
  change c'.applyAll [rec] = c'.apply rec
  rw [applyAll_cons]
  cases c'.apply rec <;> rfl

/-- An initial part of records that apply applies. -/
lemma applyAll_take (k : ℕ) : ∃ c'', c.applyAll (records.take k) = .ok c'' := by
  rw [← List.take_append_drop k records, applyAll_append] at applied
  cases front : c.applyAll (records.take k) with
  | error message => rw [front] at applied; cases applied
  | ok c'' => exact ⟨c'', rfl⟩

lemma applyWhile_eq_of_applyAll : c.applyWhile records = (c', none) := by
  induction records generalizing c with
  | nil => cases applied; rfl
  | cons rec records ih =>
    rw [applyAll_cons] at applied
    cases first : c.apply rec with
    | error message => rw [first] at applied; cases applied
    | ok next =>
      rw [first] at applied
      simp only [applyWhile, first]
      exact ih applied

end

end Contents

/-! ### Compaction, as far as it is pure -/

variable (o : Options)

/-- `Store.horizon`: until when a completed command must be remembered. -/
def horizon (e : EntryState) : ℤ :=
  let byAuthority := e.intent.authorityExpiresAt + o.clockMargin
  let byAck := e.ackedAt + o.minTombstone
  if byAck > byAuthority then byAck else byAuthority

lemma horizon_eq_max (e : EntryState) : horizon o e =
      max (e.intent.authorityExpiresAt + o.clockMargin) (e.ackedAt + o.minTombstone) := by
  simp only [horizon]
  split <;> omega

/-- The result revision as compaction rewrites it: acknowledged ones lose their
payload. -/
def rewriteResult (ackedRevision : ℤ) (result : ResultRecord) : ResultRecord :=
  if result.revision ≤ ackedRevision then result.dropPayload else result

/-- The record of a rewritten result revision. -/
def resultRecord (id : String) (ackedRevision : ℤ) (result : ResultRecord) : Record :=
  { kind := .result, id := id, at_ := result.at_,
    result := some (rewriteResult ackedRevision result) }

/-- What compaction writes of an entry before its results: the intent, and the
dispatch marker and the executor if there are any. -/
def headerRecords (id : String) (e : EntryState) : List Record :=
  [{ kind := .intent, at_ := e.intentAt, intent := some e.intent }] ++
  (if !isZero e.dispatchedAt then
    [{ kind := .dispatched, id := id, at_ := e.dispatchedAt }] else []) ++
  (match e.executor with
    | some ref => [{ kind := .executor, id := id, at_ := e.dispatchedAt, executor := some ref }]
    | none => [])

/-- What compaction writes of an entry after its results. -/
def ackRecords (id : String) (e : EntryState) : List Record :=
  if e.ackedRevision > 0 then
    [{ kind := .ack, id := id, at_ := e.ackedAt, revision := e.ackedRevision,
       rejected := e.rejected }]
  else []

/-- The records compaction writes for an entry it keeps. -/
def entryRecords (id : String) (e : EntryState) : List Record :=
  headerRecords id e ++ e.results.map (resultRecord id e.ackedRevision) ++ ackRecords id e

/-- The tombstone compaction leaves for an acknowledged entry, unless its
horizon has passed. -/
def tombstoneOf (now : ℤ) (e : EntryState) : Option Tombstone :=
  if e.state = .acked ∧ now < horizon o e then
    some { digest := e.intent.payloadDigest, expiresAt := horizon o e }
  else none

/-- The tombstones after compaction: those not yet expired, and one for every
acknowledged entry whose horizon lies ahead. -/
def compactTombs (now : ℤ) (c : Contents) : ExtTreeMap String Tombstone compare :=
  c.entries.foldl (OrdMap.insertWith fun _ e => tombstoneOf o now e)
    (c.tombs.filter fun _ tomb => now < tomb.expiresAt)

/-- The records of the compacted log. -/
def compactRecords (now : ℤ) (c : Contents) : List Record :=
  (if c.highGen > 0 then [{ kind := .gen, at_ := now, generation := c.highGen }] else []) ++
  c.entries.toList.flatMap (fun p => if p.2.state = .acked then [] else entryRecords p.1 p.2) ++
  (compactTombs o now c).toList.map
    (fun p => { kind := .tombstone, id := p.1, at_ := now, tombstone := some p.2 })

end TechStack.Journal
