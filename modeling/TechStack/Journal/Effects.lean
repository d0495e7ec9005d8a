import TechStack.Journal.Store

/-!
# What the programs of the store can do

One lemma for each program of `Journal.Store` that touches the disk: all its
possible results, with the disk and the trace each of them leaves.  Everything
that is proved about runs later is proved from these lists; nothing below this
file looks at a system call again.

* `AppendPost` — an append is refused before it writes, dies or fails on the
  way, or makes the record durable.
* `CompactPost` — a compaction stops before its new log has the log's name,
  dies or fails between that and the sync of the directory, or completes.
* `LoadPost` — opening a journal.
* `WipePost` — overwriting a log with zeros.
-/

namespace TechStack.Journal

open List Lib Io File Disk Store

variable {codec : Codec} {o : Options} {oracle : Oracle Site IoError} {disk : Disk Name}
  {trace : List Event} {s : Store}

/-! ### Appending -/

/-- The frame of a record, stamped with the time of the clock, goes to the store's file. -/
structure Frames (o : Options) (oracle : Oracle Site IoError) (s : Store) (rec : Record)
    (inode : ℕ) (f : Frame codec) (t : ℤ) : Prop where
  handle : s.file = some inode
  reads : oracle.Reads t
  stamped : f.record = { rec with at_ := t }
  bounded : f.Bounded o

/-- What `appendLocked` can do to a store that accepts writes. -/
inductive AppendPost (codec : Codec) (o : Options) (oracle : Oracle Site IoError) (s : Store)
    (rec : Record) (disk : Disk Name) (trace : List Event) :
    Option (Option Err × Store) → Disk Name → List Event → Prop where
  /-- The record cannot be encoded, or is too large. -/
  | refused (err : Err) : AppendPost codec o oracle s rec disk trace (some (some err, s)) disk trace
  /-- The store has no file. -/
  | detached (denied : DeniedError) : s.file = none →
      AppendPost codec o oracle s rec disk trace
        (some (some (.denied denied), { s with denied := some denied })) disk trace
  /-- The process died. -/
  | died {inode : ℕ} {f : Frame codec} {file : File} {t : ℤ}
      (writes : Frames o oracle s rec inode f t)
      (touched : (disk.files inode).Touched f.bytes file) :
      AppendPost codec o oracle s rec disk trace none (disk.setFile inode file) trace
  /-- The write or the sync failed; unless the file could not be cut back, it
  reads as before. -/
  | failed {inode : ℕ} {f : Frame codec} {file : File} {t : ℤ} (denied : DeniedError)
      (writes : Frames o oracle s rec inode f t)
      (touched : (disk.files inode).Touched f.bytes file)
      (left : file.data = (disk.files inode).data ∨ oracle.FailsAt .appendTruncate ∧
        (oracle.FailsAt .appendSync ∨ file.data ≠ (disk.files inode).data ++ f.bytes)) :
      AppendPost codec o oracle s rec disk trace
        (some (some (.denied denied), { s with denied := some denied }))
        (disk.setFile inode file) trace
  /-- The record is durable and applied. -/
  | done {inode : ℕ} {f : Frame codec} {contents : Contents} {t : ℤ}
      (writes : Frames o oracle s rec inode f t)
      (applied : s.contents.apply f.record = .ok contents) :
      AppendPost codec o oracle s rec disk trace
        (some (none, { s with contents := contents, size := s.size + f.bytes.length }))
        (disk.setFile inode (File.settled ((disk.files inode).data ++ f.bytes)))
        (trace ++ [.appended f.record])

variable {inode : ℕ}

lemma always_onFile {op : ℕ → JournalIo (Option IoError)}
    {Q : Option (Option IoError) → Disk Name → List Event → Prop} (handle : s.file = some inode)
    (holds : Always oracle (op inode) disk trace Q) :
    Always oracle (onFile s.file op) disk trace Q := by
  rw [handle]
  exact holds

variable {rec : Record}

/-- `failWriteLocked` cuts the file back, or fails to. -/
lemma always_failWriteLocked {f : Frame codec} {file : File} {t : ℤ} {cause : IoError}
    (writes : Frames o oracle s rec inode f t) (size : s.size = (disk.files inode).data.length)
    (touched : (disk.files inode).Touched f.bytes file)
    (whole : oracle.FailsAt .appendSync ∨ file.data ≠ (disk.files inode).data ++ f.bytes) :
    Always oracle (failWriteLocked s cause) (disk.setFile inode file) trace
      (AppendPost codec o oracle s rec disk trace) := by
  obtain ⟨touched', back⟩ := touched_truncate touched
  rw [← size] at touched' back
  unfold failWriteLocked
  refine always_bind (always_onFile writes.handle (always_truncate ?_ ?_ ?_ ?_))
  · rw [setFile_files_self, setFile_setFile]
    exact always_pure (.failed _ writes touched' (.inl back))
  · intro truncErr fails
    exact always_pure (.failed _ writes touched (.inr ⟨fails, whole⟩))
  · exact fun _ => .died writes touched
  · intro _
    rw [setFile_files_self, setFile_setFile]
    exact .died writes touched'

/-- `appendFrame` on a store with a file. -/
lemma always_appendFrame {f : Frame codec} {t : ℤ} (writes : Frames o oracle s rec inode f t)
    (size : s.size = (disk.files inode).data.length)
    (applies : ∃ contents, s.contents.apply f.record = .ok contents) :
    Always oracle (appendFrame s f.record f.bytes) disk trace
      (AppendPost codec o oracle s rec disk trace) := by
  have shape := f.recHeaderLen_le
  unfold recHeaderLen at shape
  have part := fun n => touched_write (disk.files inode) f.bytes n
  have data : ∀ n, ((disk.files inode).write s.size (f.bytes.take n)).data =
      (disk.files inode).data ++ f.bytes.take n := by
    intro n
    rw [size, write_data, splice_length]
  have whole := data f.bytes.length
  rw [take_length] at whole
  rw [← size] at part
  have all := part f.bytes.length
  rw [take_length] at all
  unfold appendFrame
  refine always_bind (always_onFile writes.handle (always_writeAt ?_ ?_ ?_))
  · refine always_bind (always_onFile writes.handle (always_sync ?_ ?_ ?_))
    · rw [setFile_files_self, setFile_setFile, whole]
      obtain ⟨contents, applied⟩ := applies
      simp only [applied]
      refine always_bind (always_emit (always_pure ?_))
      exact .done writes applied
    · intro cause fails
      exact always_failWriteLocked writes size all (.inl fails)
    · exact fun _ => .died writes all
  · intro cause n _ short
    refine always_failWriteLocked writes size (part n) (.inr ?_)
    rw [data n]
    intro same
    have lengths := congrArg List.length (append_cancel_left same)
    rw [length_take] at lengths
    omega
  · exact fun n _ => .died writes (part n)

/-- **What an append can do.** -/
lemma always_appendLocked (accepts : s.denied = none)
    (size : ∀ inode, s.file = some inode → s.size = (disk.files inode).data.length)
    (applies : ∀ t, ∃ contents, s.contents.apply { rec with at_ := t } = .ok contents) :
    Always oracle (appendLocked codec o s rec) disk trace
      (AppendPost codec o oracle s rec disk trace) := by
  unfold appendLocked
  rw [accepts]
  refine always_bind (always_now fun t reads => ?_)
  cases encoded : encodeRecord codec { rec with at_ := t } with
  | error err =>
    simp only [encoded]
    exact always_pure (.refused err)
  | ok buf =>
    simp only [encoded]
    split
    · exact always_pure (.refused _)
    case isFalse bounded =>
      let f : Frame codec := ⟨{ rec with at_ := t }, buf, encoded⟩
      cases handle : s.file with
      | none =>
        have nil : ∀ op, onFile s.file op = pure (some errInvalid) := by
          intro op
          rw [handle]
          rfl
        unfold appendFrame failWriteLocked
        rw [nil, nil]
        exact always_bind (always_pure (always_bind (always_pure (always_pure
          (.detached _ handle)))))
      | some inode =>
        exact always_appendFrame (f := f) ⟨handle, reads, rfl, Int.not_lt.mp bounded⟩
          (size inode handle) (applies t)

/-! ### Compaction -/

/-- Only files that did not exist before were touched. -/
structure Undisturbed (before after : Disk Name) : Prop where
  dir : after.dir = before.dir
  durableDir : after.durableDir = before.durableDir
  next : before.next ≤ after.next
  files : ∀ inode < before.next, after.files inode = before.files inode

lemma Undisturbed.refl (disk : Disk Name) : Undisturbed disk disk :=
  ⟨rfl, rfl, Nat.le_refl _, fun _ _ => rfl⟩

/-- A new log, rewritten at `now` from the contents `c`, has the log's name. -/
structure Rewritten (o : Options) (c : Contents) (now : ℤ) (log : List (Frame codec))
    (before after : Disk Name) : Prop where
  records : records log = compactRecords o now c
  file : after.files before.next = File.settled (image log)
  files : ∀ inode < before.next, after.files inode = before.files inode
  next : after.next = before.next + 1
  dir : after.dir .journalLog = some before.next
  durableDir : ∀ entry ∈ after.durableDir .journalLog,
    entry ∈ before.durableDir .journalLog ∨ entry = some before.next

/-- What `compactLocked` can do to a store that accepts writes. -/
inductive CompactPost (codec : Codec) (o : Options) (oracle : Oracle Site IoError) (s : Store)
    (disk : Disk Name) (trace : List Event) :
    Option (Option Err × Store) → Disk Name → List Event → Prop where
  /-- Something failed before the new log got its name. -/
  | unpublished {disk' : Disk Name} (err : Err) (same : Undisturbed disk disk') :
      CompactPost codec o oracle s disk trace (some (some err, s)) disk' trace
  /-- The process died before that. -/
  | interrupted {disk' : Disk Name} (same : Undisturbed disk disk') :
      CompactPost codec o oracle s disk trace none disk' trace
  /-- The process died after that. -/
  | died {disk' : Disk Name} {now : ℤ} {log : List (Frame codec)} (reads : oracle.Reads now)
      (rewritten : Rewritten o s.contents now log disk disk') :
      CompactPost codec o oracle s disk trace none disk' (trace ++ [.published now s.contents])
  /-- The sync of the directory failed: the store keeps its old file. -/
  | unsynced {disk' : Disk Name} {now : ℤ} {log : List (Frame codec)} (cause : IoError)
      (reads : oracle.Reads now) (fails : oracle.FailsAt .compactSyncDir)
      (rewritten : Rewritten o s.contents now log disk disk') :
      CompactPost codec o oracle s disk trace (some (some (.io cause), s)) disk'
        (trace ++ [.published now s.contents])
  /-- The new log is the store's file, and memory is what it replays to. -/
  | completed {disk' : Disk Name} {now : ℤ} {log : List (Frame codec)}
      (reads : oracle.Reads now) (rewritten : Rewritten o s.contents now log disk disk')
      (settled : disk'.durableDir .journalLog = {some disk.next}) :
      CompactPost codec o oracle s disk trace
        (some (none, { s with
          file := some disk.next
          size := (image log).length
          contents := compacted o now s.contents }))
        disk' (trace ++ [.published now s.contents, .compacted now])

/-- Writing the records of a log: on success the file holds their frames. -/
lemma always_writeRecords (tmp : ℕ) (recs : List Record) (offset : ℕ) (disk : Disk Name)
    (size : offset = (disk.files tmp).data.length) :
    Always oracle (writeRecords codec tmp recs offset) disk trace fun result disk' trace' =>
      trace' = trace ∧ ∃ file, disk' = disk.setFile tmp file ∧
        ∀ total, result = some (.ok total) → ∃ log : List (Frame codec), records log = recs ∧
          file.data = (disk.files tmp).data ++ body log ∧ total = file.data.length := by
  induction recs generalizing offset disk with
  | nil =>
    refine always_pure ⟨rfl, disk.files tmp, by simp [setFile], ?_⟩
    rintro total ⟨⟩
    exact ⟨[], rfl, by simp, size⟩
  | cons rec recs ih =>
    unfold writeRecords
    cases encoded : encodeRecord codec rec with
    | error err => exact always_pure ⟨rfl, disk.files tmp, by simp [setFile], by simp⟩
    | ok buf =>
      let f : Frame codec := ⟨rec, buf, encoded⟩
      have data : ((disk.files tmp).write offset buf).data = (disk.files tmp).data ++ buf := by
        rw [size, write_data, splice_length]
      refine always_bind (always_writeAt ?_ ?_ ?_)
      · refine (ih (offset + buf.length) _ ?_).mono ?_
        · rw [setFile_files_self, data, length_append, size]
        · rintro result disk' trace' ⟨rfl, file, rfl, complete⟩
          refine ⟨rfl, file, by rw [setFile_setFile], fun total success => ?_⟩
          obtain ⟨log, recorded, grown, length⟩ := complete total success
          refine ⟨f :: log, by simp [records, f, ← recorded], ?_, length⟩
          rw [grown, setFile_files_self, data, append_assoc]
          rfl
      · exact fun cause n _ _ => always_pure ⟨rfl, _, rfl, by simp⟩
      · exact fun n _ => ⟨rfl, _, rfl, by simp⟩

/-- Writing a whole log into an empty file. -/
lemma always_writeLog (tmp : ℕ) (recs : List Record) (disk : Disk Name)
    (empty : (disk.files tmp).data = []) :
    Always oracle (writeLog codec tmp recs) disk trace fun result disk' trace' =>
      trace' = trace ∧ ∃ file, disk' = disk.setFile tmp file ∧
        ∀ total, result = some (.ok total) → ∃ log : List (Frame codec), records log = recs ∧
          file.data = image log ∧ total = (image log).length := by
  have data : ((disk.files tmp).write 0 header).data = header := by
    simp [splice, empty]
  unfold writeLog
  refine always_bind (always_writeAt ?_ ?_ ?_)
  · refine (always_writeRecords tmp recs headerSize _ ?_).mono ?_
    · rw [setFile_files_self, data, length_header]
    · rintro result disk' trace' ⟨rfl, file, rfl, complete⟩
      refine ⟨rfl, file, by rw [setFile_setFile], fun total success => ?_⟩
      obtain ⟨log, recorded, grown, length⟩ := complete total success
      rw [setFile_files_self, data] at grown
      exact ⟨log, recorded, grown, by rw [length, grown]; rfl⟩
  · exact fun cause n _ _ => always_pure ⟨rfl, _, rfl, by simp⟩
  · exact fun n _ => ⟨rfl, _, rfl, by simp⟩

lemma undisturbed_create (disk : Disk Name) : Undisturbed disk disk.create :=
  ⟨rfl, rfl, Nat.le_succ _, fun _ old => disk.create_files_of_lt old⟩

variable {before after : Disk Name}

lemma undisturbed_setFile (same : Undisturbed before after) (file : File)
    : Undisturbed before (after.setFile before.next file) where
  dir := same.dir
  durableDir := same.durableDir
  next := same.next
  files inode old := by
    rw [setFile_files_of_ne _ _ (Nat.ne_of_lt old)]
    exact same.files inode old

/-- The disk after the new log, written and synced, got its name. -/
lemma rewritten_link (disk : Disk Name) {c : Contents} {now : ℤ} {log : List (Frame codec)}
    (recorded : records log = compactRecords o now c) :
    Rewritten o c now log disk
      ((disk.create.setFile disk.next (settled (image log))).link .journalLog
        (some disk.next)) where
  records := recorded
  file := by simp
  files inode old := by
    rw [link_files, setFile_files_of_ne _ _ (Nat.ne_of_lt old)]
    exact disk.create_files_of_lt old
  next := rfl
  dir := link_dir_self _ _ _
  durableDir entry mem := mem_link_durableDir_self.mp mem

/-- Syncing the directory leaves one entry that can survive. -/
lemma Rewritten.settleDir {c : Contents} {now : ℤ} {log : List (Frame codec)}
    (rewritten : Rewritten o c now log before after) :
    Rewritten o c now log before after.settleDir ∧
      after.settleDir.durableDir .journalLog = {some before.next} := by
  have only : after.settleDir.durableDir .journalLog = {some before.next} := by
    rw [settleDir_durableDir, rewritten.dir]
  refine ⟨⟨rewritten.records, rewritten.file, rewritten.files, rewritten.next,
    rewritten.dir, ?_⟩, only⟩
  intro entry mem
  rw [only] at mem
  exact Or.inr mem

/-- Memory is rebuilt as the compacted contents, without an inconsistency. -/
lemma always_adopt (sound : Sound s.contents) {now : ℤ} {tmp size : ℕ}
    {Q : Option (Option Err × Store) → Disk Name → List Event → Prop}
    (holds : Q (some (none, { s with
      file := some tmp, size := size, contents := compacted o now s.contents }))
      disk (trace ++ [.compacted now])) :
    Always oracle (adopt s now (compactRecords o now s.contents) tmp size) disk trace Q := by
  have rebuilt := Contents.applyWhile_eq_of_applyAll (grown_compactRecords sound o now).applyAll
  have generation : (compacted o now s.contents).noteGeneration s.contents.highGen =
      compacted o now s.contents := Contents.noteGeneration_of_le (Int.le_refl _)
  unfold adopt
  simp only [rebuilt, generation]
  exact always_bind (always_emit (always_pure holds))

/-- **What a compaction can do.** -/
lemma always_compactLocked (accepts : s.denied = none) (sound : Sound s.contents) :
    Always oracle (compactLocked codec o s) disk trace
      (CompactPost codec o oracle s disk trace) := by
  unfold compactLocked
  rw [accepts]
  refine always_bind (always_now fun now reads => ?_)
  refine always_bind (always_createTemp ?_ ?_ ?_ ?_)
  · refine always_bind ((always_writeLog disk.next _ disk.create (by simp)).mono ?_)
    rintro (_ | err | total) disk' trace' ⟨rfl, file, rfl, complete⟩
    · exact .interrupted (undisturbed_setFile (undisturbed_create disk) file)
    · exact always_pure (.unpublished err (undisturbed_setFile (undisturbed_create disk) file))
    · obtain ⟨log, recorded, data, rfl⟩ := complete total rfl
      have same := undisturbed_setFile (undisturbed_create disk) file
      have same' := undisturbed_setFile (undisturbed_create disk) (settled (image log))
      have rewritten := rewritten_link disk recorded
      unfold publish
      refine always_bind (always_sync ?_ ?_ ?_)
      · rw [setFile_files_self, setFile_setFile, data]
        refine always_bind (always_rename ?_ ?_ ?_ ?_)
        · refine always_bind (always_syncDir ?_ ?_ ?_)
          · obtain ⟨settled, only⟩ := rewritten.settleDir
            refine always_adopt sound ?_
            rw [append_assoc]
            exact .completed reads settled only
          · exact fun cause fails => always_pure (.unsynced cause reads fails rewritten)
          · exact fun _ => .died reads rewritten
        · exact fun cause _ => always_pure (.unpublished _ same')
        · exact fun _ => .interrupted same'
        · exact fun _ => .died reads rewritten
      · exact fun cause _ => always_pure (.unpublished _ same)
      · exact fun _ => .interrupted same
  · exact fun cause _ => always_pure (.unpublished _ (.refl disk))
  · exact fun _ => .interrupted (.refl disk)
  · exact fun _ => .interrupted (undisturbed_create disk)

/-! ### Opening -/

/-- What `load` replays from the log's name: nothing or a short file is an empty
journal, and some files are refused. -/
def recovered (codec : Codec) (o : Options) : Option Bytes → Option Contents
  | none => some {}
  | some data =>
    if data.length < headerSize then some {}
    else if data.take magic.length ≠ magic then none
    else if uint32 (data.drop magic.length) > schemaVersion ∨
        uint32 (data.drop magic.length) < 1 then none
    else match replay codec o data with
      | .error _ => none
      | .ok r => some r.contents

/-- A file with the header of a journal. -/
structure Headed (data : Bytes) : Prop where
  long : headerSize ≤ data.length
  magical : data.take magic.length = magic

/-- A file that `load` replays. -/
structure Replays (codec : Codec) (o : Options) (data : Bytes) (r : Replayed) : Prop
    extends Headed data where
  replayed : replay codec o data = .ok r
  recovered : recovered codec o (some data) = some r.contents

/-- A new log is being started under the log's name: the file is empty, or holds
a part of the header. -/
structure Started (before after : Disk Name) (inode : ℕ) : Prop where
  blank : before.dir .journalLog = none ∧ inode = before.next ∨
    before.dir .journalLog = some inode ∧ (before.files inode).data.length < headerSize
  dir : after.dir .journalLog = some inode
  durableDir : ∀ entry ∈ after.durableDir .journalLog,
    entry ∈ before.durableDir .journalLog ∨ entry = some inode
  next : before.next ≤ after.next
  below : inode < before.next ∨ inode < after.next ∨ before.dir .journalLog = some inode
  files : ∀ other < before.next, other ≠ inode → after.files other = before.files other
  data : ∃ n, (after.files inode).data = header.take n
  durable : ∀ content ∈ (after.files inode).durable,
    before.dir .journalLog = some inode ∧ content ∈ (before.files inode).durable ∨
      ∃ n, content = header.take n

/-- What `load` can do. -/
inductive LoadPost (codec : Codec) (o : Options) (oracle : Oracle Site IoError)
    (disk : Disk Name) (trace : List Event) :
    Option Store → Disk Name → List Event → Prop where
  | died {site : Site} (dies : oracle.DiesAt site) :
      LoadPost codec o oracle disk trace none disk trace
  /-- A system call failed before anything was written. -/
  | unavailable {st : Store} (denied : st.denied ≠ none) (contents : st.contents = {}) :
      oracle.FailsAt .loadRead ∨ oracle.FailsAt .createOpen →
      LoadPost codec o oracle disk trace (some st) disk trace
  /-- The file is refused; what replays cleanly stays readable. -/
  | unreadable {inode : ℕ} {st : Store} (denied : st.denied ≠ none)
      (named : disk.dir .journalLog = some inode)
      (refused : recovered codec o (some (disk.files inode).data) = none)
      (contents : st.contents = {} ∨ Headed (disk.files inode).data ∧
        st.contents = replayPrefixOnly codec o (disk.files inode).data) :
      LoadPost codec o oracle disk trace (some st) disk trace
  /-- The file was replayed but could not be opened for writing. -/
  | unopened {inode : ℕ} {st : Store} {r : Replayed} (denied : st.denied ≠ none)
      (named : disk.dir .journalLog = some inode)
      (replays : Replays codec o (disk.files inode).data r)
      (contents : st.contents = r.contents) (fails : oracle.FailsAt .loadOpen) :
      LoadPost codec o oracle disk trace (some st) disk trace
  /-- The process died while a new log was being started. -/
  | starting {inode : ℕ} {disk' : Disk Name} {site : Site} (dies : oracle.DiesAt site)
      (started : Started disk disk' inode) :
      LoadPost codec o oracle disk trace none disk' trace
  /-- A new log could not be started. -/
  | unstarted {inode : ℕ} {disk' : Disk Name} {st : Store} (denied : st.denied ≠ none)
      (contents : st.contents = {}) (started : Started disk disk' inode)
      (fails : oracle.FailsAt .createOpen ∨ oracle.FailsAt .createWrite ∨
        oracle.FailsAt .createSync ∨ oracle.FailsAt .createSyncDir) :
      LoadPost codec o oracle disk trace (some st) disk' trace
  /-- A new log was started. -/
  | started {inode : ℕ} {disk' : Disk Name} (started : Started disk disk' inode)
      (file : disk'.files inode = File.settled header)
      (settled : disk'.durableDir .journalLog = {some inode}) :
      LoadPost codec o oracle disk trace (some { file := some inode, size := headerSize }) disk'
        (trace ++ [.opened {}])
  /-- The process died, or a system call failed, while a torn tail was cut off. -/
  | repairing {inode : ℕ} {st : Option Store} {r : Replayed} {file : File}
      (denied : ∀ s, st = some s → s.denied ≠ none ∧ s.contents = r.contents ∧
        (oracle.FailsAt .tornTruncate ∨ oracle.FailsAt .tornSync))
      (died : st = none → oracle.Dies)
      (named : disk.dir .journalLog = some inode)
      (replays : Replays codec o (disk.files inode).data r) (torn : r.torn = true)
      (left : file = disk.files inode ∨ file = (disk.files inode).truncate r.good) :
      LoadPost codec o oracle disk trace st (disk.setFile inode file) trace
  /-- The log is open for writing. -/
  | opened {inode schema : ℕ} {r : Replayed} {file : File}
      (named : disk.dir .journalLog = some inode)
      (replays : Replays codec o (disk.files inode).data r)
      (left : r.torn = false ∧ file = disk.files inode ∨
        r.torn = true ∧ file = File.settled ((disk.files inode).data.take r.good)) :
      LoadPost codec o oracle disk trace
        (some { file := some inode, size := r.good, contents := r.contents,
                tornRepaired := r.torn, schema := schema })
        (disk.setFile inode file) (trace ++ [.opened r.contents])

/-- The name of the log as `openTruncated` leaves it. -/
lemma started_reset (blank : disk.dir .journalLog = none ∧ inode = disk.next ∨
      disk.dir .journalLog = some inode ∧ (disk.files inode).data.length < headerSize) :
    Started disk (disk.reset .journalLog) inode ∧
      ((disk.reset .journalLog).files inode).data = [] := by
  rcases blank with ⟨absent, rfl⟩ | ⟨named, short⟩
  · have made : disk.reset .journalLog = disk.create.link .journalLog (some disk.next) := by
      simp only [reset, absent]
    rw [made]
    refine ⟨?_, by simp⟩
    exact {
      blank := .inl ⟨absent, rfl⟩
      dir := link_dir_self _ _ _
      durableDir := fun entry mem => mem_link_durableDir_self.mp mem
      next := Nat.le_succ _
      below := .inr (.inl (Nat.lt_succ_self _))
      files := fun other old _ => disk.create_files_of_lt old
      data := ⟨0, by simp⟩
      durable := fun content mem => .inr ⟨0, by simpa using mem⟩ }
  · have emptied : disk.reset .journalLog = disk.setFile inode ((disk.files inode).truncate 0) := by
      simp only [reset, named]
    rw [emptied]
    refine ⟨?_, by simp⟩
    exact {
      blank := .inr ⟨named, short⟩
      dir := named
      durableDir := fun entry mem => .inl mem
      next := Nat.le_refl _
      below := .inr (.inr named)
      files := fun other _ different => setFile_files_of_ne _ _ different
      data := ⟨0, by simp⟩
      durable := by
        intro content mem
        rw [setFile_files_self] at mem
        refine (mem_truncate_durable.mp mem).imp (fun before => ⟨named, before⟩) ?_
        intro empty
        exact ⟨0, by simpa using empty⟩ }

/-- Replacing the new file by one that holds a part of the header. -/
lemma Started.setFile (started : Started before after inode) (file : File)
    (data : ∃ n, file.data = header.take n) (durable : ∀ content ∈ file.durable,
      content ∈ (after.files inode).durable ∨ ∃ n, content = header.take n) :
    Started before (after.setFile inode file) inode where
  blank := started.blank
  dir := started.dir
  durableDir := started.durableDir
  next := started.next
  below := started.below
  files other old different := by
    rw [setFile_files_of_ne _ _ different]
    exact started.files other old different
  data := by simpa using data
  durable content mem := by
    rw [setFile_files_self] at mem
    rcases durable content mem with earlier | part
    · exact started.durable content earlier
    · exact Or.inr part

lemma Started.settleDir (started : Started before after inode) :
    Started before after.settleDir inode ∧
      after.settleDir.durableDir .journalLog = {some inode} := by
  have only : after.settleDir.durableDir .journalLog = {some inode} := by
    rw [settleDir_durableDir, started.dir]
  refine ⟨{ started with durableDir := ?_ }, only⟩
  intro entry mem
  rw [only] at mem
  exact Or.inr mem

/-- Starting a new log where there is none yet, or only a part of a header. -/
lemma always_startLog (blank : disk.dir .journalLog = none ∧ inode = disk.next ∨
      disk.dir .journalLog = some inode ∧ (disk.files inode).data.length < headerSize) :
    Always oracle (startLog {}) disk trace (LoadPost codec o oracle disk trace) := by
  obtain ⟨started, empty⟩ := started_reset blank
  have target : (disk.dir .journalLog).getD disk.next = inode := by
    rcases blank with ⟨absent, rfl⟩ | ⟨named, -⟩
    · rw [absent, Option.getD_none]
    · rw [named, Option.getD_some]
  have data : ∀ buf, (((disk.reset .journalLog).files inode).write 0 buf).data = buf := by
    intro buf
    simp [splice, empty]
  -- Any part of the header may have reached the file.
  have part : ∀ n, Started disk ((disk.reset .journalLog).setFile inode
      (((disk.reset .journalLog).files inode).write 0 (header.take n))) inode := by
    intro n
    refine started.setFile _ ⟨n, data _⟩ fun content mem => ?_
    refine (mem_write_durable.mp mem).imp_right ?_
    rintro ⟨k, rfl⟩
    exact ⟨min k n, by simp [splice, empty, take_take]⟩
  have whole := part header.length
  rw [take_length] at whole
  have synced := started.setFile (settled header)
    ⟨header.length, by rw [take_length]; rfl⟩ fun content mem =>
      .inr ⟨header.length, by rw [take_length]; exact mem⟩
  unfold startLog createLog
  refine always_bind (always_bind (always_openTruncated ?_ ?_ ?_ ?_))
  · rw [target]
    refine always_bind (always_writeAt ?_ ?_ ?_)
    · refine always_bind (always_sync ?_ ?_ ?_)
      · rw [setFile_files_self, setFile_setFile, data]
        refine always_bind (always_syncDir ?_ ?_ ?_)
        · obtain ⟨settled, only⟩ := synced.settleDir
          refine always_bind (always_emit (always_pure (always_pure ?_)))
          exact .started settled (by simp) only
        · intro cause fails
          exact always_pure (always_pure
            (.unstarted (by simp [deny]) rfl synced (.inr (.inr (.inr fails)))))
        · exact fun dies => .starting dies synced
      · intro cause fails
        exact always_pure (always_pure
          (.unstarted (by simp [deny]) rfl whole (.inr (.inr (.inl fails)))))
      · exact fun dies => .starting dies whole
    · intro cause n fails _
      exact always_pure (always_pure
        (.unstarted (by simp [deny]) rfl (part n) (.inr (.inl fails))))
    · exact fun n dies => .starting dies (part n)
  · intro cause fails
    exact ⟨always_pure (always_pure (.unavailable (by simp [deny]) rfl (.inr fails))),
      always_pure (always_pure (.unstarted (by simp [deny]) rfl started (.inl fails)))⟩
  · exact fun dies => .died dies
  · exact fun dies => .starting dies started

lemma setFile_self (disk : Disk Name) (inode : ℕ) :
    disk.setFile inode (disk.files inode) = disk := by
  simp [setFile]

/-- Opening a log that replays. -/
lemma always_openLog {inode schema : ℕ} {r : Replayed} (named : disk.dir .journalLog = some inode)
    (replays : Replays codec o (disk.files inode).data r) :
    Always oracle (openLog { schema := schema } inode r) disk trace
      (LoadPost codec o oracle disk trace) := by
  have repairing : ∀ st : Option Store, (∀ s, st = some s → s.denied ≠ none ∧
      s.contents = r.contents ∧ (oracle.FailsAt .tornTruncate ∨ oracle.FailsAt .tornSync)) →
      (st = none → oracle.Dies) → r.torn = true →
      LoadPost codec o oracle disk trace st disk trace := by
    intro st denied died torn
    have same : LoadPost codec o oracle disk trace st
        (disk.setFile inode (disk.files inode)) trace :=
      .repairing denied died named replays torn (.inl rfl)
    rwa [setFile_self] at same
  unfold openLog
  refine always_bind (always_access ?_ ?_ ?_)
  · cases torn : r.torn with
    | false =>
      refine always_bind (always_emit (always_pure ?_))
      have done : LoadPost codec o oracle disk trace
          (some { file := some inode, size := r.good, contents := r.contents,
                  tornRepaired := r.torn, schema := schema })
          (disk.setFile inode (disk.files inode)) (trace ++ [.opened r.contents]) :=
        .opened named replays (.inl ⟨torn, rfl⟩)
      rw [torn, setFile_self] at done
      exact done
    | true =>
      refine always_bind (always_truncate ?_ ?_ ?_ ?_)
      · refine always_bind (always_sync ?_ ?_ ?_)
        · rw [setFile_files_self, setFile_setFile]
          refine always_bind (always_emit (always_pure ?_))
          rw [← torn]
          exact .opened named replays (.inr ⟨torn, rfl⟩)
        · intro cause fails
          refine always_pure (.repairing ?_ (by simp) named replays torn (.inr rfl))
          rintro s ⟨⟩
          exact ⟨by simp [deny], rfl, .inr fails⟩
        · exact fun dies =>
            .repairing (by simp) (fun _ => ⟨_, dies⟩) named replays torn (.inr rfl)
      · intro cause fails
        refine always_pure (repairing _ ?_ (by simp) torn)
        rintro s ⟨⟩
        exact ⟨by simp [deny], rfl, .inl fails⟩
      · exact fun dies => repairing none (by simp) (fun _ => ⟨_, dies⟩) torn
      · exact fun dies =>
          .repairing (by simp) (fun _ => ⟨_, dies⟩) named replays torn (.inr rfl)
  · intro cause fails
    exact always_pure (.unopened (by simp [deny]) named replays rfl fails)
  · exact fun dies => .died dies

lemma always_loadData (named : disk.dir .journalLog = some inode) :
    Always oracle (loadData codec o inode (disk.files inode).data) disk trace
      (LoadPost codec o oracle disk trace) := by
  unfold loadData
  split
  case isTrue header =>
    split
    case isTrue short => exact always_startLog (.inr ⟨named, short⟩)
    case isFalse long =>
      refine always_pure (.unreadable (by simp [deny]) named ?_ (.inl rfl))
      rw [recovered, if_neg long, if_pos (header.resolve_left long)]
  case isFalse header =>
    obtain ⟨long, magical⟩ := not_or.mp header
    have headed : Headed (disk.files inode).data := ⟨Nat.not_lt.mp long, not_not.mp magical⟩
    simp only
    split
    case isTrue schema =>
      refine always_pure (.unreadable (by simp [deny]) named ?_ (.inl rfl))
      rw [recovered, if_neg long, if_neg magical, if_pos schema]
    case isFalse schema =>
      cases replayed : replay codec o (disk.files inode).data with
      | error message =>
        refine always_pure (.unreadable (by simp [deny]) named ?_ (.inr ⟨headed, rfl⟩))
        rw [recovered, if_neg long, if_neg magical, if_neg schema, replayed]
      | ok r =>
        refine always_openLog named { headed with replayed := replayed, recovered := ?_ }
        rw [recovered, if_neg long, if_neg magical, if_neg schema, replayed]

/-- **What opening a journal can do.** -/
lemma always_load (oracle : Oracle Site IoError) (disk : Disk Name) (trace : List Event) :
    Always oracle (load codec o) disk trace (LoadPost codec o oracle disk trace) := by
  unfold load
  refine always_bind (always_access ?_ ?_ ?_)
  · refine always_bind (always_look ?_)
    cases named : disk.dir .journalLog with
    | none =>
      simp only [named]
      exact always_startLog (.inl ⟨named, rfl⟩)
    | some inode =>
      simp only [named]
      exact always_loadData named
  · exact fun cause fails =>
      always_pure (.unavailable (by simp [deny]) rfl (.inl fails))
  · exact fun dies => .died dies

/-! ### The end of a journal -/

/-- The first byte was overwritten: no journal file begins like that. -/
def Wiped (content : Bytes) : Prop := ∃ rest, content = 0 :: rest

/-- What overwriting a file with zeros may have made of it. -/
def WipePost (disk : Disk Name) (trace : List Event) (inode : ℕ) (disk' : Disk Name)
    (trace' : List Event) : Prop :=
  trace' = trace ∧ ∃ file, disk' = disk.setFile inode file ∧
    ∀ content ∈ file.durable, content ∈ (disk.files inode).durable ∨ Wiped content

lemma WipePost.trans {disk disk' disk'' : Disk Name} {trace trace' trace'' : List Event}
    (first : WipePost disk trace inode disk' trace')
    (second : WipePost disk' trace' inode disk'' trace'') :
    WipePost disk trace inode disk'' trace'' := by
  obtain ⟨rfl, file, rfl, durable⟩ := first
  obtain ⟨rfl, file', rfl, durable'⟩ := second
  refine ⟨rfl, file', by rw [setFile_setFile], fun content mem => ?_⟩
  rcases durable' content mem with earlier | wiped
  · exact durable content (by simpa using earlier)
  · exact Or.inr wiped

/-- Writing zeros where the file is already wiped, or from its start. -/
lemma splice_zeros {data : Bytes} {offset : ℕ} (front : offset = 0 ∨ Wiped data) (k : ℕ) :
    splice data offset (List.replicate k 0) = data ∨
      Wiped (splice data offset (List.replicate k 0)) := by
  rcases offset with _ | offset
  · cases k with
    | zero => exact Or.inl (by simp)
    | succ k => exact Or.inr ⟨_, by simp only [splice, take_zero, nil_append,
        Nat.zero_sub, replicate_zero, replicate_succ, cons_append]; rfl⟩
  · obtain ⟨rest, rfl⟩ := front.resolve_left (Nat.succ_ne_zero offset)
    exact Or.inr ⟨_, by simp only [splice, take_succ_cons, cons_append]; rfl⟩

/-- One write of zeros. -/
lemma wipePost_write {inode offset : ℕ}
    (front : offset = 0 ∨ Wiped (disk.files inode).data) (k : ℕ) :
    WipePost disk trace inode
      (disk.setFile inode ((disk.files inode).write offset (List.replicate k 0))) trace := by
  refine ⟨rfl, _, rfl, fun content mem => ?_⟩
  rcases mem_write_durable.mp mem with earlier | ⟨n, rfl⟩
  · exact Or.inl earlier
  · rw [take_replicate]
    refine (splice_zeros front _).imp_left fun same => ?_
    rw [same]
    exact (disk.files inode).data_mem

lemma always_zeroFrom {site : Site} {inode size : ℕ} (offset : ℕ) (disk : Disk Name)
    (front : offset = 0 ∨ Wiped (disk.files inode).data) :
    Always oracle (zeroFrom site inode size offset) disk trace
      fun _ disk' trace' => WipePost disk trace inode disk' trace' := by
  induction remaining : size - offset using Nat.strong_induction_on generalizing offset disk with
  | _ m ih =>
    rw [zeroFrom]
    split
    case isFalse =>
      exact always_pure ⟨rfl, disk.files inode, (setFile_self _ _).symm, fun _ => .inl⟩
    case isTrue more =>
      have part : ∀ k, WipePost disk trace inode
          (disk.setFile inode ((disk.files inode).write offset (List.replicate k 0))) trace :=
        wipePost_write front
      refine always_bind (always_writeAt ?_ ?_ ?_)
      · have wiped : Wiped (splice (disk.files inode).data offset
            (List.replicate (min (size - offset) (2 ^ 20)) 0)) := by
          obtain ⟨k, positive⟩ : ∃ k, min (size - offset) (2 ^ 20) = k + 1 :=
            ⟨min (size - offset) (2 ^ 20) - 1, by omega⟩
          rcases offset with _ | offset
          · rw [positive]
            exact ⟨_, by simp only [splice, take_zero, nil_append,
              Nat.zero_sub, replicate_zero, replicate_succ, cons_append]; rfl⟩
          · obtain ⟨rest, zero⟩ := front.resolve_left (Nat.succ_ne_zero offset)
            rw [zero]
            exact ⟨_, by simp only [splice, take_succ_cons, cons_append]; rfl⟩
        refine (ih _ (by omega) _ _ (.inr (by simpa using wiped)) rfl).mono ?_
        exact fun result disk' trace' later => (part _).trans later
      · intro cause n _ _
        rw [take_replicate]
        exact always_pure (part _)
      · intro n _
        rw [take_replicate]
        exact part _

/-- **What overwriting a file can do.** -/
lemma always_zeroFile {writeSite syncSite : Site} {inode size : ℕ} :
    Always oracle (zeroFile writeSite syncSite inode size) disk trace
      fun _ disk' trace' => WipePost disk trace inode disk' trace' := by
  unfold zeroFile
  refine always_bind ((always_zeroFrom 0 disk (.inl rfl)).mono ?_)
  rintro (_ | _ | cause) disk' trace' wiped
  · exact wiped
  · refine always_sync ?_ (fun _ _ => wiped) (fun _ => wiped)
    refine wiped.trans ⟨rfl, _, rfl, fun content mem => ?_⟩
    rw [settled_durable, Set.mem_singleton_iff] at mem
    exact Or.inl (mem ▸ (disk'.files inode).data_mem)
  · exact always_pure wiped

/-- `wipeLog` has overwritten the log to some extent, or not at all. -/
def LogWiped (disk : Disk Name) (trace : List Event) (disk' : Disk Name) : Prop :=
  disk' = disk ∨ ∃ inode, disk.dir .journalLog = some inode ∧ WipePost disk trace inode disk' trace

/-- What `destroyLogLocked` can do: the log is overwritten to some extent and
loses its name, or keeps it. -/
inductive DestroyPost (oracle : Oracle Site IoError) (s : Store) (disk : Disk Name)
    (trace : List Event) : Option (Option Err × Store) → Disk Name → List Event → Prop where
  | died {disk' : Disk Name} (wiped : LogWiped disk trace disk') :
      DestroyPost oracle s disk trace none disk' trace
  | diedRemoved {disk' : Disk Name} (wiped : LogWiped disk trace disk') :
      DestroyPost oracle s disk trace none (disk'.link .journalLog none) trace
  | failed {disk' : Disk Name} (cause : IoError) (fails : oracle.FailsAt .destroyRemove)
      (wiped : LogWiped disk trace disk') :
      DestroyPost oracle s disk trace (some (some (.io cause), { s with file := none })) disk' trace
  | done {disk' : Disk Name} (wiped : LogWiped disk trace disk') :
      DestroyPost oracle s disk trace (some (none, { s with file := none, size := 0 }))
        (disk'.link .journalLog none) trace

lemma always_wipeLog : Always oracle wipeLog disk trace fun _ disk' trace' => trace' = trace ∧
      LogWiped disk trace disk' := by
  unfold wipeLog
  refine always_bind (always_look ?_)
  cases named : disk.dir .journalLog with
  | none =>
    simp only [named]
    exact always_pure ⟨rfl, .inl rfl⟩
  | some inode =>
    simp only [named]
    refine always_bind (always_access ?_ ?_ ?_)
    · refine always_bind (always_zeroFile.mono ?_)
      rintro (_ | result) disk' trace' wiped
      · obtain rfl := wiped.1
        exact ⟨rfl, .inr ⟨inode, named, wiped⟩⟩
      · obtain rfl := wiped.1
        exact always_pure ⟨rfl, .inr ⟨inode, named, wiped⟩⟩
    · exact fun _ _ => always_pure ⟨rfl, .inl rfl⟩
    · exact fun _ => ⟨rfl, .inl rfl⟩

/-- **What destroying the log can do.** -/
lemma always_destroyLogLocked :
    Always oracle (destroyLogLocked s) disk trace (DestroyPost oracle s disk trace) := by
  unfold destroyLogLocked
  refine always_bind (always_wipeLog.mono ?_)
  rintro (_ | _) disk' trace' ⟨rfl, wiped⟩
  · exact .died wiped
  · refine always_bind (always_remove ?_ ?_ ?_ ?_)
    · exact always_pure (.done wiped)
    · exact fun cause fails => always_pure (.failed cause fails wiped)
    · exact fun _ => .died wiped
    · exact fun _ => .diedRemoved wiped

end TechStack.Journal
