import TechStack.Journal.Ledger
import TechStack.Journal.Recovery
import TechStack.Lib.Slots

/-!
# The log holds the ledger

The life of a journal whose process may die in any system call, and in which any
system call may fail but one: the sync of the directory after a compaction.  In
such a life the file with the log's name always holds the contents of the ledger,
of the ledger with a rewritten log taken over, or of the ledger and one record
more (`Consistent.pending`); an open store that accepts writes has exactly the
ledger in memory, and the named log is its file (`Consistent.current`).

The invariant is stated for the frames of the log satisfying `Q`, so that what
depends on the reader's bound and what does not are proved in one go.  Frames that
were appended are `Bounded`; those that a compaction wrote are whatever they are,
which is why the published logs of a history occur as a condition.
-/

namespace TechStack.Journal

open List Lib Io Disk Contents

variable {codec : Codec} {o : Options} {oracle : Oracle Site IoError} {disk disk' : Disk Name}
  {trace trace' : List Event} {s : Store} {T : ℤ → Prop} {Q : Frame codec → Prop} {c : Contents}

/-- A log file, or none, that holds the contents: a torn ending does not count. -/
def Holds (codec : Codec) (o : Options) (Q : Frame codec → Prop) : Option Bytes → Contents → Prop
  | none, c => c = {}
  | some data, c => data.length < headerSize ∧ c = {} ∨
      ∃ (log : List (Frame codec)) (tail : Bytes), data = image log ++ tail ∧
        Ending codec o tail ∧ (∀ f ∈ log, Q f) ∧ Contents.applyAll {} (records log) = .ok c

/-- The named log is the store's file, and memory is what it replays to. -/
structure Current (codec : Codec) (Q : Frame codec → Prop) (disk : Disk Name) (s : Store)
    (inode : ℕ) (log : List (Frame codec)) : Prop where
  handle : s.file = some inode
  named : disk.dir .journalLog = some inode
  data : (disk.files inode).data = image log
  size : s.size = (image log).length
  frames : ∀ f ∈ log, Q f
  applied : Contents.applyAll {} (records log) = .ok s.contents

/-- The log holds the ledger. -/
structure Consistent (codec : Codec) (o : Options) (T : ℤ → Prop) (Q : Frame codec → Prop)
    (disk : Disk Name) (trace : List Event) (store : Option Store) : Prop where
  lawful : Lawful o T trace
  below : ∀ inode, disk.dir .journalLog = some inode → inode < disk.next
  pending : ∃ c, Holds codec o Q (disk.read .journalLog) c ∧ Pending o (ledger o trace) c
  current : ∀ s, store = some s → s.denied = none →
    s.contents = (ledger o trace).contents ∧ ∃ inode log, Current codec Q disk s inode log

/-- The frames of the logs that compactions published satisfy `Q`. -/
def Published (o : Options) (Q : Frame codec → Prop) (trace : List Event) : Prop :=
  ∀ now c, .published now c ∈ trace → ∀ f : Frame codec, f.record ∈ compactRecords o now c → Q f

lemma Published.of_append {more : List Event} (published : Published o Q (trace ++ more)) :
    Published o Q trace :=
  fun now c ran => published now c (mem_append_left _ ran)

variable {inode : ℕ}

lemma read_of_named (disk : Disk Name) (named : disk.dir .journalLog = some inode) :
    disk.read .journalLog = some (disk.files inode).data := by
  simp [Disk.read, named]

variable {log : List (Frame codec)}

lemma Holds.of_log (frames : ∀ f ∈ log, Q f) (applied : applyAll {} (records log) = .ok c) :
    Holds codec o Q (some (image log)) c :=
  .inr ⟨log, [], by simp, .inl rfl, frames, applied⟩

/-- A store that stops accepting writes, or closes, keeps the invariant. -/
lemma Consistent.denies {store store' : Option Store}
    (consistent : Consistent codec o T Q disk trace store)
    (denied : ∀ s, store' = some s → s.denied ≠ none) :
    Consistent codec o T Q disk trace store' :=
  { consistent with current := fun s isOpen accepts => absurd accepts (denied s isOpen) }

lemma Consistent.sound (consistent : Consistent codec o T Q disk trace (some s))
    (accepts : s.denied = none) : Sound s.contents := by
  rw [(consistent.current s rfl accepts).1]
  exact consistent.lawful.tidy.sound

/-! ### Appending -/

/-- What an append that did not complete leaves of a log. -/
lemma holds_append {f : Frame codec} {data : Bytes} {c c' : Contents} (frames : ∀ f ∈ log, Q f)
    (bounded : f.Bounded o) (within : Q f) (replayed : applyAll {} (records log) = .ok c)
    (applied : c.apply f.record = .ok c') (part : ∃ n, data = image log ++ f.bytes.take n) :
    Holds codec o Q (some data) c ∨ Holds codec o Q (some data) c' := by
  obtain ⟨n, rfl⟩ := part
  rcases ending_take bounded n with whole | ending
  · refine .inr ?_
    rw [whole, ← image_concat]
    refine .of_log (forall_mem_snoc frames within) ?_
    rw [records_concat, applyAll_concat_ok replayed, applied]
  · exact .inl (.inr ⟨log, _, rfl, ending, frames, replayed⟩)

variable {rec : Record} {result : Option (Option Err × Store)}

lemma Consistent.append {c₀ : Contents}
    (consistent : Consistent codec o T Q disk trace (some s)) (accepts : s.denied = none)
    (clock : ∀ t, oracle.Reads t → T t) (within : ∀ f : Frame codec, f.Bounded o → Q f)
    (guarded : Guarded c₀ s.contents rec)
    (post : AppendPost codec o oracle s rec disk trace result disk' trace') :
    Consistent codec o T Q disk' trace' (left result) := by
  obtain ⟨memory, inode, log, current⟩ := consistent.current s rfl accepts
  -- A part of the frame may have reached the file.
  have touched : ∀ {f : Frame codec} {file : File} {t : ℤ} {store : Option Store},
      Frames o oracle s rec inode f t →
      (disk.files inode).Touched f.bytes file → (∀ s, store = some s → s.denied ≠ none) →
      Consistent codec o T Q (disk.setFile inode file) trace store := by
    rintro f file t store ⟨-, -, stamped, bounded⟩ touched denied
    obtain ⟨contents, applied⟩ := guarded.applies t
    rw [← stamped] at applied
    have part := touched.data
    rw [current.data] at part
    refine ⟨consistent.lawful, consistent.below, ?_,
      fun s isOpen accepts => absurd accepts (denied s isOpen)⟩
    rw [read_of_named (disk.setFile inode file) current.named, setFile_files_self]
    have admissible := guarded.admissible t
    rw [← stamped, memory] at admissible
    rw [memory] at applied
    rcases holds_append current.frames bounded (within f bounded) current.applied
      (memory ▸ applied) part with holds | holds
    · exact ⟨s.contents, holds, memory ▸ .settled⟩
    · exact ⟨contents, holds, .inFlight admissible applied⟩
  cases post with
  | refused err => exact consistent
  | detached denied nil =>
    cases current.handle.symm.trans nil
  | died writes part | failed denied writes part remains =>
    cases current.handle.symm.trans writes.handle
    exact touched writes part (by simp [left])
  | @done _ f contents t writes applied =>
    obtain ⟨handle, reads, stamped, bounded⟩ := writes
    cases current.handle.symm.trans handle
    have admissible := guarded.admissible t
    rw [← stamped, memory] at admissible
    have time : f.record.at_ = t := by rw [stamped]
    have next : ledger o (trace ++ [.appended f.record]) = { contents := contents } := by
      rw [ledger_concat, Ledger.next, ← memory, applied]
    have longer : ∀ g ∈ log ++ [f], Q g := forall_mem_snoc current.frames (within f bounded)
    have replayed : applyAll {} (records (log ++ [f])) = .ok contents := by
      rw [records_concat, applyAll_concat_ok current.applied, applied]
    have data : (disk.files inode).data ++ f.bytes = image (log ++ [f]) := by
      rw [current.data, image_concat]
    refine ⟨lawful_concat.mpr ⟨consistent.lawful, admissible, time ▸ clock t reads⟩,
      consistent.below, ⟨contents, ?_, by rw [next]; exact .settled⟩, ?_⟩
    · rw [read_of_named (disk.setFile inode _) current.named, setFile_files_self,
        File.settled_data, data]
      exact .of_log longer replayed
    · rintro _ ⟨⟩ -
      refine ⟨by rw [next], inode, log ++ [f], current.handle, current.named, ?_, ?_, longer,
        replayed⟩
      · rw [setFile_files_self, File.settled_data, data]
      · rw [image_concat, length_append, ← current.size]

/-! ### Compaction -/

lemma Undisturbed.read (same : Undisturbed disk disk')
    (below : ∀ inode, disk.dir .journalLog = some inode → inode < disk.next) :
    disk'.read .journalLog = disk.read .journalLog := by
  cases named : disk.dir .journalLog with
  | none => simp [Disk.read, same.dir, named]
  | some inode => simp [Disk.read, same.dir, named, same.files inode (below inode named)]

variable {store : Option Store}

lemma Consistent.undisturbed (consistent : Consistent codec o T Q disk trace store)
    (same : Undisturbed disk disk') :
    Consistent codec o T Q disk' trace store where
  lawful := consistent.lawful
  below inode named := (consistent.below inode (same.dir ▸ named)).trans_le same.next
  pending := by rw [same.read consistent.below]; exact consistent.pending
  current s isOpen accepts := by
    obtain ⟨memory, inode, log, current⟩ := consistent.current s isOpen accepts
    refine ⟨memory, inode, log, { current with named := ?_, data := ?_ }⟩
    · rw [same.dir, current.named]
    · rw [same.files inode (consistent.below inode current.named), current.data]

/-- The named log after a compaction, with the event that says so. -/
lemma Consistent.rewritten {now : ℤ} (consistent : Consistent codec o T Q disk trace (some s))
    (accepts : s.denied = none) (rewritten : Rewritten o s.contents now log disk disk')
    (published : Published o Q (trace ++ [.published now s.contents])) :
    Consistent codec o T Q disk' (trace ++ [.published now s.contents]) none ∧
    (∀ f ∈ log, Q f) ∧
    applyAll {} (records log) = .ok (compacted o now s.contents) := by
  obtain ⟨memory, -⟩ := consistent.current s rfl accepts
  have frames : ∀ f ∈ log, Q f := fun f mem =>
    published now s.contents (by simp) f (rewritten.records ▸ mem_map_of_mem mem)
  have replayed : applyAll {} (records log) = .ok (compacted o now s.contents) := by
    rw [rewritten.records]
    exact (grown_compactRecords (memory ▸ consistent.lawful.tidy.sound) o now).applyAll
  refine ⟨⟨lawful_concat.mpr ⟨consistent.lawful, memory⟩, ?_, ?_, by simp⟩, frames, replayed⟩
  · intro inode named
    cases rewritten.dir.symm.trans named
    rw [rewritten.next]
    exact Nat.lt_succ_self _
  · refine ⟨compacted o now s.contents, ?_, ?_⟩
    · rw [read_of_named _ rewritten.dir, rewritten.file]
      exact .of_log frames replayed
    · rw [ledger_concat, memory]
      exact .rewritten rfl

lemma Consistent.compaction (consistent : Consistent codec o T Q disk trace (some s))
    (accepts : s.denied = none) (synced : ¬ oracle.FailsAt .compactSyncDir)
    (post : CompactPost codec o oracle s disk trace result disk' trace')
    (published : Published o Q trace') : Consistent codec o T Q disk' trace' (left result) := by
  obtain ⟨memory, -⟩ := consistent.current s rfl accepts
  cases post with
  | unpublished err same => exact consistent.undisturbed same
  | interrupted same => exact (consistent.undisturbed same).denies (by simp [left])
  | died reads rewritten => exact (consistent.rewritten accepts rewritten published).1
  | unsynced cause reads fails rewritten => exact absurd fails synced
  | @completed _ now log reads rewritten settled =>
    rw [append_cons] at published ⊢
    obtain ⟨middle, frames, replayed⟩ :=
      consistent.rewritten accepts rewritten published.of_append
    have next : ledger o (trace ++ [.published now s.contents] ++ [.compacted now]) =
        { contents := compacted o now s.contents } := by
      rw [ledger_concat, ledger_concat, memory]
      rfl
    refine ⟨lawful_concat.mpr ⟨middle.lawful, by simp [Allowed, Ledger.next]⟩, middle.below,
      ⟨compacted o now s.contents, ?_, by rw [next]; exact .settled⟩, ?_⟩
    · rw [read_of_named _ rewritten.dir, rewritten.file]
      exact .of_log frames replayed
    · rintro _ ⟨⟩ -
      exact ⟨by rw [next], disk.next, log, rfl, rewritten.dir, by rw [rewritten.file]; rfl, rfl,
        frames, replayed⟩

/-! ### Opening -/

/-- What replaying a file finds that holds contents. -/
lemma Holds.of_replays {data : Bytes} {r : Replayed} (holds : Holds codec o Q (some data) c)
    (replays : Replays codec o data r) : r.contents = c ∧
      ∃ (log : List (Frame codec)) (tail : Bytes), data = image log ++ tail ∧
        (∀ f ∈ log, Q f) ∧ applyAll {} (records log) = .ok c ∧
        r.good = (image log).length ∧ r.torn = !tail.isEmpty := by
  rcases holds with ⟨short, -⟩ | ⟨log, tail, rfl, ending, frames, applied⟩
  · exact absurd replays.long (Nat.not_le.mpr short)
  · obtain ⟨fits, -⟩ := fits_of_replay replays.replayed
    have same := replays.replayed.symm.trans (replay_image fits ending applied)
    cases same
    exact ⟨rfl, log, tail, rfl, frames, applied, rfl, rfl⟩

/-- A file that `load` starts anew held nothing. -/
lemma Holds.of_started (started : Started disk disk' inode)
    (holds : Holds codec o Q (disk.read .journalLog) c) : c = {} := by
  rcases started.blank with ⟨absent, -⟩ | ⟨named, short⟩
  · simpa [Disk.read, absent, Holds] using holds
  · rw [read_of_named disk named] at holds
    rcases holds with ⟨-, empty⟩ | ⟨log, tail, data, -⟩
    · exact empty
    · have long := headerSize_le_image log
      have total := congrArg List.length data
      rw [length_append] at total
      omega

/-- A part of a header holds nothing. -/
lemma holds_header (n : ℕ) : Holds codec o Q (some (header.take n)) {} := by
  rcases Nat.lt_or_ge n headerSize with short | long
  · exact .inl ⟨by rw [length_take, length_header]; omega, rfl⟩
  · have whole : header.take n = image ([] : List (Frame codec)) := by
      rw [image_nil, take_of_length_le (by rw [length_header]; exact long)]
    rw [whole]
    exact .of_log (by simp) rfl

section

variable (consistent : Consistent codec o T Q disk trace none)
include consistent

lemma Consistent.started (started : Started disk disk' inode) :
    Consistent codec o T Q disk' trace none ∧ Pending o (ledger o trace) {} := by
  obtain ⟨c, holds, pending⟩ := consistent.pending
  obtain rfl := holds.of_started started
  obtain ⟨n, data⟩ := started.data
  refine ⟨⟨consistent.lawful, ?_, ⟨{}, ?_, pending⟩, by simp⟩, pending⟩
  · intro other named
    cases started.dir.symm.trans named
    rcases started.below with old | new | before
    · exact old.trans_le started.next
    · exact new
    · exact (consistent.below _ before).trans_le started.next
  · rw [read_of_named _ started.dir, data]
    exact holds_header n

/-- A log without its torn ending holds the same. -/
lemma Consistent.repaired {file : File} (named : disk.dir .journalLog = some inode)
    (frames : ∀ f ∈ log, Q f) (applied : applyAll {} (records log) = .ok c)
    (pending : Pending o (ledger o trace) c) (data : file.data = image log) :
    Consistent codec o T Q (disk.setFile inode file) trace none := by
  refine ⟨consistent.lawful, consistent.below, ⟨c, ?_, pending⟩, by simp⟩
  rw [read_of_named (disk.setFile inode file) named, setFile_files_self, data]
  exact .of_log frames applied

lemma Consistent.load (post : LoadPost codec o oracle disk trace store disk' trace') :
    Consistent codec o T Q disk' trace' store := by
  cases post with
  | died => exact consistent
  | unavailable denied | unreadable denied | unopened denied =>
    exact consistent.denies (by rintro _ ⟨⟩; exact denied)
  | starting dies started => exact (consistent.started started).1
  | unstarted denied contents started =>
    exact (consistent.started started).1.denies (by rintro _ ⟨⟩; exact denied)
  | @started inode _ started file settled =>
    obtain ⟨consistent', pending⟩ := consistent.started started
    have next : ledger o (trace ++ [.opened {}]) = {} := by rw [ledger_concat]; rfl
    have data : (disk'.files inode).data = image ([] : List (Frame codec)) := by
      rw [file, image_nil, File.settled_data]
    refine ⟨lawful_concat.mpr ⟨consistent.lawful, pending⟩, consistent'.below, ⟨{}, ?_, ?_⟩, ?_⟩
    · rw [read_of_named _ started.dir, data]
      exact .of_log (by simp) rfl
    · rw [next]
      exact .settled
    · rintro _ ⟨⟩ -
      exact ⟨by rw [next], inode, [], rfl, started.dir, data, by rw [image_nil, length_header],
        by simp, rfl⟩
  | @repairing inode st r file denied died named replays torn left =>
    obtain ⟨c, holds, pending⟩ := consistent.pending
    rw [read_of_named disk named] at holds
    obtain ⟨-, log, tail, data, frames, applied, good, -⟩ := holds.of_replays replays
    suffices Consistent codec o T Q (disk.setFile inode file) trace none from
      this.denies fun s isOpen => (denied s isOpen).1
    rcases left with rfl | rfl
    · rw [setFile_self]
      exact consistent
    · refine consistent.repaired named frames applied pending ?_
      rw [File.truncate_data, data, good, take_left]
  | @opened inode schema r file named replays left =>
    obtain ⟨c, holds, pending⟩ := consistent.pending
    rw [read_of_named disk named] at holds
    obtain ⟨rfl, log, tail, data, frames, applied, good, torn⟩ := holds.of_replays replays
    have cut : file.data = image log := by
      rcases left with ⟨whole, rfl⟩ | ⟨-, rfl⟩
      · have empty : tail = [] := by simpa [whole] using torn
        rw [data, empty, append_nil]
      · rw [File.settled_data, data, good, take_left]
    have repaired := consistent.repaired named frames applied pending cut
    have next : ledger o (trace ++ [.opened r.contents]) = { contents := r.contents } := by
      rw [ledger_concat]; rfl
    refine ⟨lawful_concat.mpr ⟨consistent.lawful, pending⟩, repaired.below,
      ⟨r.contents, ?_, by rw [next]; exact .settled⟩, ?_⟩
    · rw [read_of_named (disk.setFile inode file) named, setFile_files_self, cut]
      exact .of_log frames applied
    · rintro _ ⟨⟩ -
      refine ⟨by rw [next], inode, log, rfl, named, ?_, good, frames, applied⟩
      rw [setFile_files_self, cut]

end

lemma LoadPost.published (post : LoadPost codec o oracle disk trace store disk' trace')
    (published : Published o Q trace') : Published o Q trace := by
  cases post with
  | started => exact published.of_append
  | opened => exact published.of_append
  | _ => exact published

/-! ### Calls and runs -/

variable {call : Call}

/-- A call that answers without an error wrote its record, or had nothing to
write. -/
lemma CallPost.recorded {reply : Reply} {s' : Store}
    (post : CallPost codec o oracle s call disk trace (some (reply, s')) disk' trace')
    (record : call.record = some rec) (success : reply.err = none) :
    call.Held s.contents ∨ Recorded call rec trace' := by
  have appended : ∀ {s₀ : Store} {disk₀ : Disk Name} {trace₀ : List Event} {rec' : Record}
      {inner : Option (Option Err × Store)},
      AppendPost codec o oracle s₀ rec' disk₀ trace₀ inner disk' trace' →
      Reports inner (some (reply, s')) → call.record = some rec' → Recorded call rec trace' := by
    intro s₀ disk₀ trace₀ rec' inner post reports record'
    cases record.symm.trans record'
    rcases inner with _ | ⟨err, s₁⟩
    · cases reports
    · obtain ⟨-, rfl⟩ := reports
      rw [success] at post
      cases post with
      | @done _ f _ t writes => exact ⟨trace₀, t, [], by rw [writes.stamped], .inl rfl⟩
  cases post with
  | idle held => exact .inl (held success)
  | append accepts record' guarded post reports => exact .inr (appended post reports record')
  | @compact _ _ _ inner accepts post stops reports =>
    rcases inner with _ | ⟨err, s₁⟩
    · cases reports
    · obtain ⟨-, rfl⟩ := reports
      exact absurd (by rw [success]) (stops (by simp [record]) s₁)
  | full accepts admits post err => exact absurd success err
  | compactAppend accepts admits first guarded post reports =>
    exact .inr (appended post reports (by rw [admits]; rfl))
  | appendCompact accepts acks record' guarded first post ignores =>
    cases record.symm.trans record'
    cases first with
    | @done _ f _ t writes =>
      have stamped := writes.stamped
      refine .inr ⟨trace, t, ?_⟩
      cases post with
      | unpublished => exact ⟨[], by rw [stamped], .inl rfl⟩
      | interrupted => cases ignores
      | died => cases ignores
      | unsynced =>
        refine ⟨[_], by rw [stamped, append_assoc]; rfl, .inr ⟨⟨_, _, _, acks⟩, ?_⟩⟩
        simp [Event.Compacts]
      | completed =>
        refine ⟨[_, _], by rw [stamped, append_assoc]; rfl, .inr ⟨⟨_, _, _, acks⟩, ?_⟩⟩
        simp [Event.Compacts]

lemma AppendPost.published (post : AppendPost codec o oracle s rec disk trace result disk' trace')
    (published : Published o Q trace') : Published o Q trace := by
  cases post with
  | done => exact published.of_append
  | _ => exact published

lemma CompactPost.published (post : CompactPost codec o oracle s disk trace result disk' trace')
    (published : Published o Q trace') : Published o Q trace := by
  cases post with
  | died | unsynced | completed => exact published.of_append
  | _ => exact published

lemma CallPost.published {result : Option (Reply × Store)}
    (post : CallPost codec o oracle s call disk trace result disk' trace')
    (published : Published o Q trace') : Published o Q trace := by
  cases post with
  | idle => exact published
  | append _ _ _ post _ | compact _ post _ _ | full _ _ post _ => exact post.published published
  | compactAppend _ _ first _ post _ => exact first.published (post.published published)
  | appendCompact _ _ _ _ first post _ => exact first.published (post.published published)

/-- A life in which the process may die and most system calls may fail: the
machine keeps its power, the journal is not ended, the directory can be synced
after a compaction, and the clock reads times in `T`. -/
def Steady (T : ℤ → Prop) (_ : System) : Label → Prop
  | .open_ _ => True
  | .call c oracle =>
    ¬ c.Ends ∧ ¬ oracle.FailsAt .compactSyncDir ∧ ∀ t, oracle.Reads t → T t
  | .exit => True
  | .powerCut => False

lemma kept_consistent (c₀ : Contents) (within : ∀ f : Frame codec, f.Bounded o → Q f)
    (synced : ¬ oracle.FailsAt .compactSyncDir) (clock : ∀ t, oracle.Reads t → T t) :
    Kept codec o oracle c₀ fun disk trace store =>
      Healthy codec o disk store ∧
        (Published o Q trace → Consistent codec o T Q disk trace store) where
  writable inv := inv.1.writable
  append := by
    rintro disk trace s rec result disk' trace' ⟨healthy, consistent⟩ accepts guarded post
    refine ⟨healthy.append accepts guarded post, fun published => ?_⟩
    exact (consistent (post.published published)).append accepts clock within guarded post
  compaction := by
    rintro disk trace s result disk' trace' ⟨healthy, consistent⟩ accepts post
    refine ⟨healthy.compaction post, fun published => ?_⟩
    exact (consistent (post.published published)).compaction accepts synced post published

lemma Consistent.returned {reply : Reply} (consistent : Consistent codec o T Q disk trace store)
    (allowed : Allowed o T trace (.returned call reply)) :
    Consistent codec o T Q disk (trace ++ [.returned call reply]) store where
  lawful := lawful_concat.mpr ⟨consistent.lawful, allowed⟩
  below := consistent.below
  pending := by rw [ledger_concat]; exact consistent.pending
  current := by rw [ledger_concat]; exact consistent.current

/-- **In a steady life the log holds the ledger**, as long as compactions publish
frames in `Q`. -/
lemma consistent_of_reaches {opts : Options} {sys : System}
    (within : ∀ f : Frame codec, f.Bounded opts.withDefaults → Q f)
    (reached : (journal codec opts).Reaches (Steady T) sys)
    (published : Published opts.withDefaults Q sys.trace) :
    Consistent codec opts.withDefaults T Q sys.disk sys.trace sys.store := by
  induction reached with
  | init start =>
    obtain rfl : _ = _ := start
    exact ⟨.nil, by simp [Disk.empty], ⟨{}, by simp [Disk.read, Disk.empty, Holds], .settled⟩,
      by simp⟩
  | @step sys sys' label reached steady step ih =>
    have healthy := healthy_of_reaches (reached.mono fun _ _ _ => trivial)
    cases step with
    | open_ oracle closed =>
      rw [closed] at ih
      have post := openStore_post codec opts oracle sys
      exact (ih (post.published published)).load post
    | @call st c oracle isOpen =>
      obtain ⟨lasts, synced, clock⟩ := steady
      rw [isOpen] at ih healthy
      refine callStore_of_always (fun disk trace store => Published opts.withDefaults Q trace →
          Consistent codec opts.withDefaults T Q disk trace store) ?_ published
      have kept := kept_consistent st.contents within synced clock
      refine (always_call (kept.writable ⟨healthy, ih⟩) lasts).mono ?_
      rintro (_ | ⟨reply, s'⟩) disk' trace' post published
      · exact (kept.of_callPost ⟨healthy, ih⟩ post).2 published
      · refine ((kept.of_callPost ⟨healthy, ih⟩ post).2 published.of_append).returned ?_
        intro rec record success
        exact (post.recorded record success).imp_left fun held => ⟨_, held⟩
    | exit => exact (ih published).denies (by simp)
    | powerCut cut => exact absurd steady id

/-- The scripts of the sample are steady. -/
lemma Sample.steady_script {calls : List (ℤ × Call)} (steady : ∀ p ∈ calls, T p.1 ∧ ¬ p.2.Ends) :
    ∀ label ∈ Sample.script calls, ∀ sys, Steady T sys label := by
  rw [Sample.script, forall_mem_cons, forall_mem_map]
  refine ⟨fun _ => trivial, fun p mem sys => ⟨(steady p mem).2, ?_, ?_⟩⟩
  · exact Oracle.Faultless.not_failsAt (fun _ _ => rfl) _
  · rintro t ⟨-, rfl⟩
    exact (steady p mem).1

end TechStack.Journal
