import TechStack.Journal.Compaction
import TechStack.Lib.TornLog

/-!
# The journal file

A journal file is a sixteen-byte header followed by frames: the length of a
payload, its CRC-32C, and the payload, which is the JSON form of a record.  The
JSON package is a parameter (`Codec`), restricted to the records that it reads back
as they were; this is an assumption on what callers write, not a property of JSON.

Writer and reader bound different things.  `appendLocked` bounds the *frame* by
`Options.maxRecord`, `decodeRecord` the *payload* by the same number, and
compaction bounds nothing.  `Frame.Bounded` is the writer's bound and
`Frame.Fits` the reader's.

The main results say what replay makes of a file that consists of frames and of
an `Ending`, that is nothing or a part of a bounded frame:

* `replay_image` — if all frames fit and their records apply, replay succeeds,
  finds the end of the last frame, and says torn iff something follows it;
* `fits_of_replay` — replay succeeds in no other way;
* `replayPrefixOnly_image` — what a refused file leaves readable is what an
  initial part of its records gives.
-/

namespace TechStack.Journal

open List Lib TornLog

/-- `encoding/json` on the records that callers are assumed to write: those whose payloads are
compact JSON, byte for byte as `json.Marshal` puts it, and whose texts are valid UTF-8.  The package
would change others on the way (a payload is compacted and escaped, an invalid byte replaced), so
they have no encoding here. -/
structure Codec where
  marshal : Record → Except String Bytes
  unmarshal : Bytes → Except String Record
  /-- Reading back what was written, which is what the assumption gives. -/
  roundTrip : ∀ rec payload, marshal rec = .ok payload → unmarshal payload = .ok rec

/-- The magic `KGJRNL1` and a line feed. -/
def magic : Bytes := [0x4B, 0x47, 0x4A, 0x52, 0x4E, 0x4C, 0x31, 0x0A]

/-- `SchemaVersion`. -/
def schemaVersion : ℕ := 1

def headerSize : ℕ := 16

def recHeaderLen : ℕ := 8

/-- The header of every file this build writes. -/
def header : Bytes := magic ++ putUint32 schemaVersion ++ [0, 0, 0, 0]

@[simp] lemma length_header : header.length = headerSize := rfl

variable (codec : Codec)

/-- `encodeRecord`. -/
def encodeRecord (rec : Record) : Except Err Bytes :=
  match codec.marshal rec with
  | .error message => .error (.marshal message)
  | .ok payload =>
    if payload.length > 4294967295 then .error .entryTooLarge
    else .ok (putUint32 payload.length ++ putUint32 (crc32c payload).toNat ++ payload)

/-- What `decodeRecord` finds at an offset. -/
inductive Decoded where
  /-- `errTornTail`: the file ends inside a record. -/
  | torn
  | corrupt (message : String)
  | record (rec : Record) (next : ℕ)

/-- `decodeRecord`. -/
def decodeRecord (data : Bytes) (offset : ℕ) (maxRecord : ℤ) : Decoded :=
  let total := data.length
  if total - offset < recHeaderLen then .torn
  else
    let length := uint32 (data.drop offset)
    let sum := uint32 (data.drop (offset + 4))
    if (length : ℤ) > maxRecord then
      .corrupt ("record at offset " ++ toString offset ++ " declares " ++ toString length
        ++ " bytes")
    else
      let stop := offset + recHeaderLen + length
      if stop > total then .torn
      else
        let payload := (data.drop (offset + recHeaderLen)).take length
        if (crc32c payload).toNat ≠ sum then
          if stop = total then .torn
          else .corrupt ("checksum mismatch at offset " ++ toString offset)
        else
          match codec.unmarshal payload with
          | .error message =>
            .corrupt ("record at offset " ++ toString offset ++ " is not valid: " ++ message)
          | .ok rec => .record rec stop

/-- A decoded record advances the offset. -/
lemma lt_of_decodeRecord {codec : Codec} {data : Bytes} {offset : ℕ} {maxRecord : ℤ}
    {rec : Record} {next : ℕ}
    (decoded : decodeRecord codec data offset maxRecord = .record rec next) : offset < next := by
  unfold decodeRecord recHeaderLen at decoded
  grind

/-- What `replay` reports: the size of the durable prefix, whether an incomplete
record follows it, and the contents. -/
structure Replayed where
  good : ℕ
  torn : Bool
  contents : Contents

/-- The loop of `replay`. -/
def replayFrom (codec : Codec) (o : Options) (data : Bytes) (c : Contents) (offset : ℕ) :
    Except String Replayed :=
  if offset < data.length then
    match decoded : decodeRecord codec data offset o.maxRecord with
    | .torn => .ok ⟨offset, true, c⟩
    | .corrupt message => .error message
    | .record rec next =>
      match c.apply rec with
      | .error message => .error ("record at offset " ++ toString offset ++ ": " ++ message)
      | .ok c' => replayFrom codec o data c' next
  else .ok ⟨offset, false, c⟩
termination_by data.length - offset
decreasing_by
  have := lt_of_decodeRecord decoded
  omega

/-- `replay`, on empty maps. -/
def replay (o : Options) (data : Bytes) : Except String Replayed :=
  replayFrom codec o data {} headerSize

/-- The loop of `replayPrefixOnly`. -/
def replayPrefixFrom (codec : Codec) (o : Options) (data : Bytes) (c : Contents)
    (offset : ℕ) : Contents :=
  if offset + recHeaderLen ≤ data.length then
    match decoded : decodeRecord codec data offset o.maxRecord with
    | .torn => c
    | .corrupt _ => c
    | .record rec next =>
      match c.apply rec with
      | .error _ => c
      | .ok c' => replayPrefixFrom codec o data c' next
  else c
termination_by data.length - offset
decreasing_by
  have := lt_of_decodeRecord decoded
  unfold recHeaderLen at *
  omega

/-- `replayPrefixOnly`, on empty maps. -/
def replayPrefixOnly (o : Options) (data : Bytes) : Contents :=
  replayPrefixFrom codec o data {} headerSize

/-! ### Frames -/

/-- A record together with its encoding. -/
structure Frame (codec : Codec) where
  record : Record
  bytes : Bytes
  encoded : encodeRecord codec record = .ok bytes

/-- The frame of a record whose payload is known. -/
def Frame.ofPayload {codec : Codec} (record : Record) (payload : Bytes)
    (marshalled : codec.marshal record = .ok payload) (short : payload.length ≤ 4294967295) :
    Frame codec where
  record := record
  bytes := putUint32 payload.length ++ putUint32 (crc32c payload).toNat ++ payload
  encoded := by
    unfold encodeRecord
    rw [marshalled]
    exact if_neg (Nat.not_lt.mpr short)

variable {codec : Codec} {o : Options}

/-- The writer's bound: the frame is at most `maxRecord` long. -/
def Frame.Bounded (o : Options) (f : Frame codec) : Prop := (f.bytes.length : ℤ) ≤ o.maxRecord

/-- The reader's bound: the payload is at most `maxRecord` long. -/
def Frame.Fits (o : Options) (f : Frame codec) : Prop :=
  (f.bytes.length : ℤ) ≤ o.maxRecord + recHeaderLen

instance (f : Frame codec) : Decidable (f.Bounded o) :=
  inferInstanceAs (Decidable ((f.bytes.length : ℤ) ≤ o.maxRecord))

variable {f : Frame codec}

lemma Frame.Bounded.fits (bounded : f.Bounded o) : f.Fits o := by
  unfold Frame.Bounded at bounded
  unfold Frame.Fits
  omega

/-- The shape of a frame. -/
lemma Frame.shape (f : Frame codec) : ∃ payload,
    codec.marshal f.record = .ok payload ∧ payload.length < 4294967296 ∧
      f.bytes = putUint32 payload.length ++ putUint32 (crc32c payload).toNat ++ payload := by
  have encoded := f.encoded
  unfold encodeRecord at encoded
  split at encoded
  · cases encoded
  case h_2 payload marshalled =>
    split at encoded
    · cases encoded
    case isFalse short =>
      exact ⟨payload, marshalled, by omega, (Except.ok.inj encoded).symm⟩

lemma Frame.recHeaderLen_le (f : Frame codec) : recHeaderLen ≤ f.bytes.length := by
  obtain ⟨payload, -, -, shape⟩ := f.shape
  simp only [shape, recHeaderLen, length_append, length_putUint32]
  omega

variable (log : List (Frame codec))

/-- The bytes of a log without its header. -/
def body : Bytes := (log.map Frame.bytes).flatten

/-- The file a log makes. -/
def image : Bytes := header ++ body log

/-- The records of a log. -/
def records : List Record := log.map Frame.record

@[simp] lemma body_nil : body ([] : List (Frame codec)) = [] := rfl

@[simp] lemma body_cons (f : Frame codec) (log : List (Frame codec)) :
    body (f :: log) = f.bytes ++ body log := rfl

@[simp] lemma image_nil : image ([] : List (Frame codec)) = header := by simp [image]

lemma image_concat (f : Frame codec) : image (log ++ [f]) = image log ++ f.bytes := by
  simp [image, body]

@[simp] lemma records_concat (f : Frame codec) :
    records (log ++ [f]) = records log ++ [f.record] := by
  simp [records]

lemma headerSize_le_image : headerSize ≤ (image log).length := by
  simp [image]

/-- What may follow the last frame of a file: nothing, or a part of a frame
within the writer's bound. -/
def Ending (codec : Codec) (o : Options) (tail : Bytes) : Prop :=
  tail = [] ∨ ∃ f : Frame codec, f.Bounded o ∧ Cut tail f.bytes

/-- An initial part of a bounded frame is the frame or an ending. -/
lemma ending_take (bounded : f.Bounded o) (n : ℕ) :
    f.bytes.take n = f.bytes ∨ Ending codec o (f.bytes.take n) :=
  (eq_or_cut_of_initial ( take_prefix n f.bytes)).imp_right fun cut => .inr ⟨f, bounded, cut⟩

/-! ### Reading one frame -/

/-- The reader sees the frame's own length where the frame begins. -/
lemma uint32_frame (f : Frame codec) {payload : Bytes} (short : payload.length < 4294967296)
    (shape : f.bytes = putUint32 payload.length ++ putUint32 (crc32c payload).toNat ++ payload)
    (n : ℕ) (whole : recHeaderLen ≤ n) (rest : Bytes) :
    uint32 (f.bytes.take n ++ rest) = payload.length := by
  have split : f.bytes.take n ++ rest = putUint32 payload.length ++
      ((putUint32 (crc32c payload).toNat ++ payload).take (n - 4) ++ rest) := by
    rw [shape, append_assoc, take_append, length_putUint32,
      take_of_length_le (by rw [length_putUint32]; unfold recHeaderLen at whole; omega),
      append_assoc]
  rw [split]
  exact uint32_putUint32_append short _

/-- A frame that fits is read back. -/
lemma decodeRecord_frame (fits : f.Fits o) (front rest : Bytes) :
    decodeRecord codec (front ++ f.bytes ++ rest) front.length o.maxRecord =
      .record f.record (front.length + f.bytes.length) := by
  obtain ⟨payload, marshalled, short, shape⟩ := f.shape
  have length : f.bytes.length = recHeaderLen + payload.length := by
    simp [shape, recHeaderLen]
    omega
  have word := uint32_frame f short shape f.bytes.length f.recHeaderLen_le rest
  rw [take_length] at word
  have sum : uint32 (((f.bytes ++ rest).drop 4)) = (crc32c payload).toNat := by
    rw [shape, append_assoc, append_assoc, drop_left' (by simp)]
    exact uint32_putUint32_append (crc32c payload).toNat_lt _
  have content : ((f.bytes ++ rest).drop recHeaderLen).take payload.length = payload := by
    rw [shape, append_assoc, drop_left' (by simp [recHeaderLen]), take_left]
  have payloadFits : ¬ (payload.length : ℤ) > o.maxRecord := by
    unfold Frame.Fits at fits
    omega
  unfold decodeRecord
  simp only [append_assoc, length_append, drop_left,
    drop_length_add_append, word, sum, content]
  rw [if_neg (by omega), if_neg payloadFits, if_neg (by omega), if_neg (by simp)]
  simp only [codec.roundTrip _ _ marshalled, length, Nat.add_assoc]

/-- A frame that does not fit makes the file corrupt. -/
lemma decodeRecord_unfit (unfit : ¬ f.Fits o) (front rest : Bytes) :
    ∃ message, decodeRecord codec (front ++ f.bytes ++ rest) front.length o.maxRecord =
      .corrupt message := by
  obtain ⟨payload, -, short, shape⟩ := f.shape
  have length : f.bytes.length = recHeaderLen + payload.length := by
    simp [shape, recHeaderLen]
    omega
  have word := uint32_frame f short shape f.bytes.length f.recHeaderLen_le rest
  rw [take_length] at word
  have tooLong : (payload.length : ℤ) > o.maxRecord := by
    unfold Frame.Fits at unfit
    omega
  unfold decodeRecord
  simp only [append_assoc, length_append, drop_left, word]
  rw [if_neg (by omega), if_pos tooLong]
  exact ⟨_, rfl⟩

variable {tail : Bytes}

/-- A part of a frame that fits is a torn tail. -/
lemma decodeRecord_cut (fits : f.Fits o) (cut : Cut tail f.bytes) (front : Bytes) :
    decodeRecord codec (front ++ tail) front.length o.maxRecord = .torn := by
  obtain ⟨payload, -, short, shape⟩ := f.shape
  have length : f.bytes.length = recHeaderLen + payload.length := by
    simp [shape, recHeaderLen]
    omega
  have partial' := cut.short
  unfold decodeRecord
  by_cases headless : tail.length < recHeaderLen
  · rw [if_pos (by rw [length_append]; omega)]
  · have word := uint32_frame f short shape tail.length (by omega) []
    rw [← cut.eq_take, append_nil] at word
    have payloadFits : ¬ (payload.length : ℤ) > o.maxRecord := by
      unfold Frame.Fits at fits
      omega
    simp only [length_append, drop_left, word]
    rw [if_neg (by omega), if_neg payloadFits, if_pos (by omega)]

/-! ### Reading a file -/

section Replay

variable {data : Bytes} {c : Contents} {offset next : ℕ} {rec : Record}

lemma replayFrom_of_record (inside : offset < data.length)
    (decoded : decodeRecord codec data offset o.maxRecord = .record rec next) :
    replayFrom codec o data c offset = match c.apply rec with
      | .error message => .error ("record at offset " ++ toString offset ++ ": " ++ message)
      | .ok c' => replayFrom codec o data c' next := by
  rw [replayFrom, if_pos inside]
  split
  · simp_all
  · simp_all
  case h_3 rec' next' decoded' =>
    obtain ⟨rfl, rfl⟩ := Decoded.record.inj (decoded.symm.trans decoded')
    rfl

lemma replayFrom_of_torn (inside : offset < data.length)
    (decoded : decodeRecord codec data offset o.maxRecord = .torn) :
    replayFrom codec o data c offset = .ok ⟨offset, true, c⟩ := by
  rw [replayFrom, if_pos inside]
  split <;> simp_all

lemma replayFrom_of_corrupt {message : String} (inside : offset < data.length)
    (decoded : decodeRecord codec data offset o.maxRecord = .corrupt message) :
    replayFrom codec o data c offset = .error message := by
  rw [replayFrom, if_pos inside]
  split <;> simp_all

lemma replayPrefixFrom_of_record (inside : offset + recHeaderLen ≤ data.length)
    (decoded : decodeRecord codec data offset o.maxRecord = .record rec next) :
    replayPrefixFrom codec o data c offset = match c.apply rec with
      | .error _ => c
      | .ok c' => replayPrefixFrom codec o data c' next := by
  rw [replayPrefixFrom, if_pos inside]
  split
  · simp_all
  · simp_all
  case h_3 rec' next' decoded' =>
    obtain ⟨rfl, rfl⟩ := Decoded.record.inj (decoded.symm.trans decoded')
    rfl

lemma replayPrefixFrom_of_refused
    (refused : ∀ rec next, decodeRecord codec data offset o.maxRecord ≠ .record rec next) :
    replayPrefixFrom codec o data c offset = c := by
  rw [replayPrefixFrom]
  split
  · split
    · rfl
    · rfl
    case h_3 rec next decoded => exact absurd decoded (refused rec next)
  · rfl

end Replay

/-- Where the file ends, replay ends; a part of a frame is reported as torn. -/
lemma replayFrom_ending (ending : Ending codec o tail) (front : Bytes) (c : Contents) :
    replayFrom codec o (front ++ tail) c front.length = .ok ⟨front.length, !tail.isEmpty, c⟩ := by
  rcases ending with rfl | ⟨f, bounded, cut⟩
  · rw [replayFrom, if_neg (by simp)]
    rfl
  · cases tail with
    | nil =>
      rw [replayFrom, if_neg (by simp)]
      rfl
    | cons b tail =>
      rw [replayFrom_of_torn (by simp) (decodeRecord_cut bounded.fits cut front)]
      rfl

/-- The step of every induction over a log: its first frame is read. -/
lemma decodeRecord_cons (fits : f.Fits o) (front : Bytes) (log : List (Frame codec))
    (tail : Bytes) :
    decodeRecord codec (front ++ (body (f :: log) ++ tail)) front.length o.maxRecord =
      .record f.record (front ++ f.bytes).length := by
  rw [body_cons, length_append, append_assoc, ← append_assoc front]
  exact decodeRecord_frame fits front (body log ++ tail)

lemma cons_inside (f : Frame codec) (front : Bytes) (log : List (Frame codec)) (tail : Bytes) :
    front.length + recHeaderLen ≤ (front ++ (body (f :: log) ++ tail)).length := by
  have := f.recHeaderLen_le
  simp only [body_cons, length_append]
  omega

lemma append_body_cons (f : Frame codec) (front : Bytes) (log : List (Frame codec)) (tail : Bytes) :
    front ++ (body (f :: log) ++ tail) = (front ++ f.bytes) ++ (body log ++ tail) := by
  simp

variable {log : List (Frame codec)}

/-- **Replay of a log whose frames fit.** -/
lemma replayFrom_body (fits : ∀ f ∈ log, f.Fits o) (ending : Ending codec o tail)
    (front : Bytes) {c c' : Contents} (applied : c.applyAll (records log) = .ok c') :
    replayFrom codec o (front ++ (body log ++ tail)) c front.length =
      .ok ⟨front.length + (body log).length, !tail.isEmpty, c'⟩ := by
  induction log generalizing front c with
  | nil =>
    cases applied
    exact replayFrom_ending ending front c'
  | cons f log ih =>
    have inside := cons_inside f front log tail
    rw [replayFrom_of_record (by unfold recHeaderLen at inside; omega)
      (decodeRecord_cons (fits f (by simp)) front log tail)]
    rw [records, map_cons, Contents.applyAll_cons] at applied
    cases first : c.apply f.record with
    | error message => rw [first] at applied; cases applied
    | ok next =>
      rw [first] at applied
      rw [append_body_cons]
      simp only
      rw [ih (fun g mem => fits g (by simp [mem])) (front ++ f.bytes) applied]
      simp [Nat.add_assoc]

/-- Replay succeeds only on a log whose frames fit and whose records apply. -/
lemma fits_of_replayFrom (front : Bytes) {c : Contents} {r : Replayed}
    (replayed : replayFrom codec o (front ++ (body log ++ tail)) c front.length = .ok r) :
    (∀ f ∈ log, f.Fits o) ∧ ∃ c', c.applyAll (records log) = .ok c' := by
  induction log generalizing front c with
  | nil => exact ⟨by simp, c, rfl⟩
  | cons f log ih =>
    have inside : front.length < (front ++ (body (f :: log) ++ tail)).length := by
      have := cons_inside f front log tail
      unfold recHeaderLen at this
      omega
    by_cases fits : f.Fits o
    · rw [replayFrom_of_record inside (decodeRecord_cons fits front log tail)] at replayed
      cases first : c.apply f.record with
      | error message => simp only [first] at replayed; cases replayed
      | ok next =>
        simp only [first] at replayed
        rw [append_body_cons] at replayed
        obtain ⟨rest, c', applied⟩ := ih (front ++ f.bytes) replayed
        refine ⟨by simpa [fits] using rest, c', ?_⟩
        rw [records, map_cons, Contents.applyAll_cons, first]
        exact applied
    · obtain ⟨message, corrupt⟩ := decodeRecord_unfit fits front (body log ++ tail)
      rw [append_assoc, ← append_assoc f.bytes, ← body_cons] at corrupt
      rw [replayFrom_of_corrupt inside corrupt] at replayed
      cases replayed

/-- What stays readable of a file is what an initial part of its records gives. -/
lemma replayPrefixFrom_body (log : List (Frame codec)) (ending : Ending codec o tail)
    (front : Bytes) (c : Contents) :
    ∃ k, c.applyAll (records (log.take k)) =
      .ok (replayPrefixFrom codec o (front ++ (body log ++ tail)) c front.length) := by
  induction log generalizing front c with
  | nil =>
    refine ⟨0, ?_⟩
    rw [replayPrefixFrom_of_refused]
    · rfl
    · intro rec next
      rcases ending with rfl | ⟨f, bounded, cut⟩
      · simp [decodeRecord, recHeaderLen]
      · rw [body_nil, nil_append, decodeRecord_cut bounded.fits cut front]
        simp
  | cons f log ih =>
    by_cases fits : f.Fits o
    · rw [replayPrefixFrom_of_record (cons_inside f front log tail)
        (decodeRecord_cons fits front log tail)]
      cases first : c.apply f.record with
      | error message => exact ⟨0, rfl⟩
      | ok next =>
        obtain ⟨k, applied⟩ := ih (front ++ f.bytes) next
        refine ⟨k + 1, ?_⟩
        rw [take_succ_cons, records, map_cons, Contents.applyAll_cons, first,
          append_body_cons]
        exact applied
    · obtain ⟨message, corrupt⟩ := decodeRecord_unfit fits front (body log ++ tail)
      rw [append_assoc, ← append_assoc f.bytes, ← body_cons] at corrupt
      refine ⟨0, ?_⟩
      rw [replayPrefixFrom_of_refused fun rec next => by rw [corrupt]; simp]
      rfl

/-- **Replay of a journal file whose frames fit**: it succeeds, and finds the
end of the last frame. -/
lemma replay_image (fits : ∀ f ∈ log, f.Fits o) (ending : Ending codec o tail) {c : Contents}
    (applied : Contents.applyAll {} (records log) = .ok c) :
    replay codec o (image log ++ tail) = .ok ⟨(image log).length, !tail.isEmpty, c⟩ := by
  have read := replayFrom_body fits ending header applied
  rw [length_header] at read
  rw [replay, image, append_assoc, read, length_append, length_header]

/-- Replay of a journal file succeeds in no other way. -/
lemma fits_of_replay {r : Replayed} (replayed : replay codec o (image log ++ tail) = .ok r) :
    (∀ f ∈ log, f.Fits o) ∧ ∃ c, Contents.applyAll {} (records log) = .ok c := by
  rw [replay, image, append_assoc, ← length_header] at replayed
  exact fits_of_replayFrom header replayed

/-- What a refused file leaves readable. -/
lemma replayPrefixOnly_image (log : List (Frame codec)) (ending : Ending codec o tail) :
    ∃ k, Contents.applyAll {} (records (log.take k)) =
      .ok (replayPrefixOnly codec o (image log ++ tail)) := by
  have read := replayPrefixFrom_body log ending header {}
  rw [length_header] at read
  rw [replayPrefixOnly, image, append_assoc]
  exact read

end TechStack.Journal
