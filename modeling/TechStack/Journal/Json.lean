import TechStack.Journal.Format
import TechStack.Lib.Json

/-!
# The JSON form of records

What `encoding/json` writes for the record types of the journal, for texts that
need no escaping.  How an instant is written is a parameter, since only a few
instants ever occur in one journal.

`Codec.ofKnown` makes a codec of it that knows finitely many records.  The
round trip it has to satisfy comes down to those records having different texts.
-/

namespace TechStack.Journal

open Lib Lib.Json

namespace Json

section Records

variable (time : ℤ → String)

def instant (t : ℤ) : Bytes := quoted (time t)

def intent (i : Intent) : Bytes :=
  object (member "command_id" (quoted i.commandID) ++ member "tenant_id" (quoted i.tenantID) ++
    member "worker_id" (quoted i.workerID) ++ member "operation" (quoted i.operation) ++
    member "mutating" (bool i.mutating) ++ member "generation" (int i.generation) ++
    member "payload_digest" (quoted i.payloadDigest) ++
    member "authority_expires_at" (instant time i.authorityExpiresAt) ++
    member "contract_version" (quoted i.contractVersion) ++
    member "resource_key" (quoted i.resourceKey) ++
    omitEmpty i.hint.isEmpty (member "hint" i.hint))

def executor (ref : ExecutorRef) : Bytes :=
  object (member "pid" (int ref.pid) ++ member "pgid" (int ref.pgid) ++
    omitEmpty (ref.startTicks == 0) (member "start_ticks" (int ref.startTicks)))

def reportState : ReportState → String
  | .terminal => "terminal"
  | .outcomeUnknown => "outcome_unknown"
  | .rejected => "rejected"
  | .resolved => "resolved"
  | .other text => text

def result (r : ResultRecord) : Bytes :=
  object (member "revision" (int r.revision) ++ member "state" (quoted (reportState r.state)) ++
    member "digest" (quoted r.digest) ++
    omitEmpty (r.priorDigest == "") (member "prior_digest" (quoted r.priorDigest)) ++
    omitEmpty (r.reason == "") (member "reason" (quoted r.reason)) ++
    omitEmpty (r.resolution == "") (member "resolution" (quoted r.resolution)) ++
    omitEmpty (!r.truncated) (member "truncated" (bool r.truncated)) ++
    omitEmpty (!r.sensitiveOmitted) (member "sensitive_omitted" (bool r.sensitiveOmitted)) ++
    omitEmpty r.payload.isEmpty (member "payload" r.payload) ++
    member "at" (instant time r.at_))

def tombstone (tomb : Tombstone) : Bytes :=
  object (member "digest" (quoted tomb.digest) ++
    member "expires_at" (instant time tomb.expiresAt))

def kind : Kind → String
  | .gen => "gen"
  | .intent => "intent"
  | .dispatched => "dispatched"
  | .executor => "executor"
  | .result => "result"
  | .ack => "ack"
  | .tombstone => "tombstone"
  | .other text => text

/-- A record. -/
def record (rec : Record) : Bytes :=
  object (member "k" (quoted (kind rec.kind)) ++
    omitEmpty (rec.id == "") (member "id" (quoted rec.id)) ++
    member "at" (instant time rec.at_) ++ optional "intent" (intent time) rec.intent ++
    optional "executor" executor rec.executor ++ optional "result" (result time) rec.result ++
    omitEmpty (rec.revision == 0) (member "rev" (int rec.revision)) ++
    omitEmpty (!rec.rejected) (member "rejected" (bool rec.rejected)) ++
    omitEmpty (rec.generation == 0) (member "gen" (int rec.generation)) ++
    optional "tombstone" (tombstone time) rec.tombstone)

end Records

end Json

/-- The codec that writes records as JSON and knows some of them, which have
different texts; it fails on all others. -/
def Codec.ofKnown (time : ℤ → String) (known : List Record)
    (distinct : (known.map (Json.record time)).Nodup) : Codec where
  marshal rec :=
    if rec ∈ known then .ok (Json.record time rec) else .error "json: unsupported value"
  unmarshal payload :=
    match known.find? fun rec => Json.record time rec = payload with
    | some rec => .ok rec
    | none => .error "unexpected end of JSON input"
  roundTrip rec payload marshalled := by
    split at marshalled <;> cases marshalled
    case isTrue isKnown =>
      cases back : known.find? fun other => Json.record time other = Json.record time rec with
      | none => simpa using List.find?_eq_none.mp back rec isKnown
      | some other =>
        have sameText : Json.record time other = Json.record time rec := by
          simpa using List.find?_some back
        exact congrArg Except.ok (List.inj_on_of_nodup_map distinct
          (List.mem_of_find?_eq_some back) isKnown sameText)

lemma Codec.ofKnown_marshal {time : ℤ → String} {known : List Record}
    {distinct : (known.map (Json.record time)).Nodup} {rec : Record} (isKnown : rec ∈ known) :
    (Codec.ofKnown time known distinct).marshal rec = .ok (Json.record time rec) :=
  if_pos isKnown

end TechStack.Journal
