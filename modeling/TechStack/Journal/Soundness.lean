import TechStack.Journal.System

/-!
# Every reachable journal is sound

The result chain holds in every state a journal can reach: through every
operation, every failing system call, every death of the process, every loss of
power and every reopening.

Memory and log can drift apart on the way.  `Decommission` and `HandOff` drop
entries from memory before they rewrite the log, and the rewriting may fail; a
failed sync of the directory leaves the store with a file that no longer has the
log's name.  The invariant `Healthy` therefore asks little of the log: each of
its initial parts, *if* it replays, gives sound contents (`PrefixSound`), and
what memory knows of a command, the log knows too (`Shadows`).  That is enough
for a record that was legal for memory to be legal for the log, if the log
accepts it at all.
-/

namespace TechStack.Journal

open Option List Lib Io TornLog Std Contents Disk

variable {codec : Codec} {o : Options} {oracle : Oracle Site IoError} {disk : Disk Name}
  {trace : List Event} {s : Store}

/-- Whatever initial part of the log replays gives sound contents. -/
def PrefixSound (log : List (Frame codec)) : Prop :=
  ∀ k c, Contents.applyAll {} (records (log.take k)) = .ok c → Sound c

/-- What `c` knows of a command, `c'` knows too. -/
def Covers (c' c : Contents) : Prop :=
  ∀ (id : String) (e : EntryState), c.entries[id]? = some e → c'.entries[id]? = some e

/-- The log, if it replays, knows every entry of the contents. -/
def Shadows (log : List (Frame codec)) (c : Contents) : Prop :=
  ∀ c', Contents.applyAll {} (records log) = .ok c' → Covers c' c

/-- The contents a file may have: too short to be a journal, overwritten, or the
frames of a prefix-sound log and an ending. -/
def GoodBytes (codec : Codec) (o : Options) (content : Bytes) : Prop :=
  content.length < headerSize ∨ Wiped content ∨
    ∃ (log : List (Frame codec)) (tail : Bytes), content = image log ++ tail ∧
      Ending codec o tail ∧ PrefixSound log

/-- Every content of a file that may survive is good. -/
def GoodFile (codec : Codec) (o : Options) (file : File) : Prop :=
  ∀ content ∈ file.durable, GoodBytes codec o content

/-- The store's file is good and holds the log the store believes in. -/
structure Attached (codec : Codec) (o : Options) (disk : Disk Name) (s : Store) (inode : ℕ) :
    Prop where
  below : inode < disk.next
  good : GoodFile codec o (disk.files inode)
  log : ∃ log : List (Frame codec), (disk.files inode).data = image log ∧
    s.size = (image log).length ∧ PrefixSound log ∧ Shadows log s.contents

/-- The invariant of all runs. -/
structure Healthy (codec : Codec) (o : Options) (disk : Disk Name) (store : Option Store) :
    Prop where
  named : ∀ inode, some inode ∈ disk.durableDir .journalLog →
    inode < disk.next ∧ GoodFile codec o (disk.files inode)
  sound : ∀ s, store = some s → Sound s.contents
  attached : ∀ s inode, store = some s → s.denied = none → s.file = some inode →
    Attached codec o disk s inode

/-! ### Records that are legal for memory -/

variable {rec : Record}

/-- A record that is legal for some contents is legal for contents that know
more, if these accept it. -/
lemma Legal.transfer {c c' c'' : Contents} (legal : Legal c rec) (covers : Covers c' c)
    (applied : c'.apply rec = .ok c'') : Effect c' rec c'' := by
  have legal' : Legal c' rec := by
    cases legal with
    | gen t generation => exact .gen t generation
    | intent t intent named absent =>
      refine .intent t intent named ?_
      by_contra known
      obtain ⟨e, found⟩ := ne_none_iff_exists'.mp known
      simp [apply, named, found] at applied
    | dispatched t id known state => exact .dispatched t id (covers id _ known) state
    | executor t id ref known state => exact .executor t id ref (covers id _ known) state
    | result t id r known allowed => exact .result t id r (covers id _ known) allowed
    | ack t id revision rejected known low high =>
      exact .ack t id revision rejected (covers id _ known) low high
  obtain ⟨reached, same, effect⟩ := legal_apply legal'
  obtain rfl := Except.ok.inj (applied.symm.trans same)
  exact effect

variable {c c' : Contents}

lemma Covers.setEntry (covers : Covers c' c) (id : String) (e : EntryState)
    : Covers (c'.setEntry id e) (c.setEntry id e) := by
  intro other found lookup
  rw [setEntry_entries] at lookup ⊢
  split at lookup
  case isTrue same => rw [if_pos same]; exact lookup
  case isFalse different => rw [if_neg different]; exact covers other found lookup

lemma Covers.noteGeneration (covers : Covers c' c) (g : ℤ) :
    Covers (c'.noteGeneration g) (c.noteGeneration g) := by
  intro other found lookup
  rw [noteGeneration_entries] at lookup ⊢
  exact covers other found lookup

/-- A record has the same effect on contents that know more. -/
lemma Covers.effect {c c' d d' : Contents} (covers : Covers c' c) (effect : Effect c rec d)
    (effect' : Effect c' rec d') : Covers d' d := by
  cases effect with
  | gen t generation => cases effect'; exact covers.noteGeneration generation
  | intent t intent named absent =>
    cases effect'
    exact (covers.setEntry _ _).noteGeneration _
  | dispatched t id known state =>
    cases effect' with
    | dispatched _ _ known' _ =>
      cases (covers id _ known).symm.trans known'
      exact covers.setEntry _ _
  | executor t id ref known state =>
    cases effect' with
    | executor _ _ _ known' _ =>
      cases (covers id _ known).symm.trans known'
      exact covers.setEntry _ _
  | result t id r known allowed =>
    cases effect' with
    | result _ _ _ known' _ =>
      cases (covers id _ known).symm.trans known'
      exact covers.setEntry _ _
  | ack t id revision rejected known low high =>
    cases effect' with
    | ack _ _ _ _ known' _ _ =>
      cases (covers id _ known).symm.trans known'
      exact covers.setEntry _ _

variable {log : List (Frame codec)}

/-- Appending a legal record to a log that shadows memory. -/
lemma append_log {f : Frame codec} (soundLog : PrefixSound log) (shadows : Shadows log c)
    (legal : Legal c f.record) (applied : c.apply f.record = .ok c') :
    PrefixSound (log ++ [f]) ∧ Shadows (log ++ [f]) c' := by
  -- A replay of the longer log is a replay of the shorter one and one record.
  have last : ∀ d, applyAll {} (records (log ++ [f])) = .ok d →
      ∃ d₀, applyAll {} (records log) = .ok d₀ ∧ Effect d₀ f.record d := by
    intro d replayed
    cases before : applyAll {} (records log) with
    | error message =>
      rw [records_concat, applyAll_append, before] at replayed
      cases replayed
    | ok d₀ =>
      rw [records_concat, applyAll_concat_ok before] at replayed
      exact ⟨d₀, rfl, legal.transfer (shadows d₀ before) replayed⟩
  refine ⟨?_, ?_⟩
  · intro k d replayed
    rcases Nat.lt_or_ge log.length k with beyond | inside
    · rw [take_of_length_le (by simpa using beyond)] at replayed
      obtain ⟨d₀, before, effect⟩ := last d replayed
      exact (soundLog log.length d₀ (by rwa [take_length])).effect effect
    · rw [take_append_of_le_length inside] at replayed
      exact soundLog k d replayed
  · intro d replayed
    obtain ⟨d₀, before, effect⟩ := last d replayed
    obtain ⟨reached, same, effect'⟩ := legal_apply legal
    obtain rfl := Except.ok.inj (applied.symm.trans same)
    exact (shadows d₀ before).effect effect' effect

/-- What an append may leave of a good log is good. -/
lemma goodBytes_append {c : Contents} {f : Frame codec} (soundLog : PrefixSound log)
    (shadows : Shadows log c) (legal : Legal c f.record) (bounded : f.Bounded o) (n : ℕ)
    : GoodBytes codec o (image log ++ f.bytes.take n) := by
  refine Or.inr (Or.inr ?_)
  rcases ending_take bounded n with whole | ending
  · obtain ⟨c', applied, -⟩ := legal_apply legal
    refine ⟨log ++ [f], [], ?_, .inl rfl, (append_log soundLog shadows legal applied).1⟩
    rw [whole, image_concat, append_nil]
  · exact ⟨log, f.bytes.take n, rfl, ending, soundLog⟩

/-- The records of a compaction make a prefix-sound log. -/
lemma prefixSound_of_grown {c : Contents} (grown : Grown {} (records log) c) : PrefixSound log := by
  intro k d replayed
  obtain ⟨d', initial⟩ := grown.take k
  have same : (records log).take k = records (log.take k) := by simp [records, map_take]
  rw [same] at initial
  obtain rfl := Except.ok.inj (replayed.symm.trans initial.applyAll)
  exact initial.sound sound_empty

/-! ### The invariant is kept -/

lemma goodFile_settled {content : Bytes} (good : GoodBytes codec o content) :
    GoodFile codec o (File.settled content) := by
  intro other mem
  rw [File.settled_durable, Set.mem_singleton_iff] at mem
  exact mem ▸ good

variable {store : Option Store}

/-- The process is gone. -/
lemma Healthy.dies (healthy : Healthy codec o disk store) : Healthy codec o disk none :=
  ⟨healthy.named, by simp, by simp⟩

/-- The store refuses writes from now on. -/
lemma Healthy.denies {s' : Store} (healthy : Healthy codec o disk (some s))
    (contents : s'.contents = s.contents) (denied : s'.denied ≠ none) :
    Healthy codec o disk (some s') where
  named := healthy.named
  sound := by
    rintro _ ⟨⟩
    exact contents ▸ healthy.sound s rfl
  attached := by
    rintro _ _ ⟨⟩ accepts
    exact absurd accepts denied

/-- One file is replaced by a good one. -/
lemma Healthy.setFile (healthy : Healthy codec o disk store) (inode : ℕ) {file : File}
    (good : GoodFile codec o file) :
    Healthy codec o (disk.setFile inode file) none := by
  refine ⟨fun other mem => ?_, by simp, by simp⟩
  obtain ⟨below, goodOther⟩ := healthy.named other mem
  refine ⟨below, ?_⟩
  by_cases same : other = inode
  · rw [same, setFile_files_self]; exact good
  · rw [setFile_files_of_ne _ _ same]; exact goodOther

/-- What is known of the disk alone, with a store added. -/
lemma Healthy.withStore {s : Store} (healthy : Healthy codec o disk none) (sound : Sound s.contents)
    (attached : ∀ inode, s.denied = none → s.file = some inode → Attached codec o disk s inode) :
    Healthy codec o disk (some s) :=
  ⟨healthy.named, by rintro _ ⟨⟩; exact sound, by rintro _ inode ⟨⟩; exact attached inode⟩

variable {result : Option (Option Err × Store)} {disk' : Disk Name} {trace' : List Event}

lemma Healthy.append {c₀ : Contents} (healthy : Healthy codec o disk (some s))
    (accepts : s.denied = none) (guarded : Guarded c₀ s.contents rec)
    (post : AppendPost codec o oracle s rec disk trace result disk' trace') :
    Healthy codec o disk' (left result) := by
  -- Whatever part of the frame reached the file, the file is good.
  have touched : ∀ {inode : ℕ} {f : Frame codec} {file : File} {t : ℤ},
      Frames o oracle s rec inode f t → (disk.files inode).Touched f.bytes file → GoodFile codec o file := by
    intro inode f file t writes touched content mem
    have attached := healthy.attached s inode rfl accepts writes.handle
    obtain ⟨log, data, -, soundLog, shadows⟩ := attached.log
    rcases touched.durable content mem with before | ⟨n, rfl⟩
    · exact attached.good content before
    · rw [data]
      exact goodBytes_append soundLog shadows (writes.stamped ▸ guarded.legal t) writes.bounded n
  cases post with
  | refused err => exact healthy
  | detached denied nil => exact healthy.denies rfl (by simp)
  | died writes part => exact healthy.setFile _ (touched writes part)
  | failed denied writes part left =>
    exact (healthy.setFile _ (touched writes part)).withStore (healthy.sound s rfl) (by simp)
  | @done inode f contents t writes applied =>
    obtain ⟨handle, reads, stamped, bounded⟩ := writes
    have before := healthy.attached s inode rfl accepts handle
    obtain ⟨log, data, size, soundLog, shadows⟩ := before.log
    have legal : Legal s.contents f.record := stamped ▸ guarded.legal t
    obtain ⟨soundLog', shadows'⟩ := append_log soundLog shadows legal applied
    have good : GoodBytes codec o (image log ++ f.bytes) := by
      simpa using goodBytes_append soundLog shadows legal bounded f.bytes.length
    rw [data]
    refine (healthy.setFile _ (goodFile_settled good)).withStore ?_ ?_
    · obtain ⟨reached, same, effect⟩ := legal_apply legal
      obtain rfl := Except.ok.inj (applied.symm.trans same)
      exact (healthy.sound s rfl).effect effect
    · intro other _ handle'
      cases handle.symm.trans handle'
      refine ⟨before.below, ?_, log ++ [f], ?_, ?_, soundLog', shadows'⟩
      · rw [setFile_files_self]; exact goodFile_settled good
      · rw [setFile_files_self, image_concat]; rfl
      · rw [image_concat, length_append, ← size]

variable {inode : ℕ}

lemma Attached.of_file (attached : Attached codec o disk s inode)
    (next : disk.next ≤ disk'.next) (same : disk'.files inode = disk.files inode) :
    Attached codec o disk' s inode where
  below := Nat.lt_of_lt_of_le attached.below next
  good := same ▸ attached.good
  log := same ▸ attached.log

lemma Healthy.undisturbed (healthy : Healthy codec o disk store) (same : Undisturbed disk disk') :
    Healthy codec o disk' store where
  named := by
    intro inode mem
    rw [same.durableDir] at mem
    obtain ⟨below, good⟩ := healthy.named inode mem
    exact ⟨Nat.lt_of_lt_of_le below same.next, same.files inode below ▸ good⟩
  sound := healthy.sound
  attached := by
    intro s inode isStore accepts handle
    have attached := healthy.attached s inode isStore accepts handle
    exact attached.of_file same.next (same.files inode attached.below)

/-- The rewritten log of sound contents is good, and replays to them. -/
lemma goodFile_of_rewritten {c : Contents} {now : ℤ}
    (rewritten : Rewritten o c now log disk disk') (sound : Sound c) :
    applyAll {} (records log) = .ok (compacted o now c) ∧ PrefixSound log ∧
      GoodFile codec o (disk'.files disk.next) := by
  have grown := grown_compactRecords sound o now
  rw [← rewritten.records] at grown
  have soundLog := prefixSound_of_grown grown
  refine ⟨grown.applyAll, soundLog, ?_⟩
  rw [rewritten.file]
  exact goodFile_settled (.inr (.inr ⟨log, [], by simp, .inl rfl, soundLog⟩))

/-- A store whose file is not touched, over a rewritten log. -/
lemma Healthy.rewritten {now : ℤ} (healthy : Healthy codec o disk (some s))
    (rewritten : Rewritten o s.contents now log disk disk') :
    Healthy codec o disk' (some s) where
  named := by
    intro inode mem
    rcases rewritten.durableDir _ mem with before | new
    · obtain ⟨below, good⟩ := healthy.named inode before
      exact ⟨by rw [rewritten.next]; omega, rewritten.files inode below ▸ good⟩
    · cases new
      exact ⟨by rw [rewritten.next]; omega, (goodFile_of_rewritten rewritten (healthy.sound s rfl)).2.2⟩
  sound := healthy.sound
  attached := by
    intro s' inode isStore accepts handle
    have attached := healthy.attached s' inode isStore accepts handle
    exact attached.of_file (by rw [rewritten.next]; omega) (rewritten.files inode attached.below)

lemma Healthy.compaction (healthy : Healthy codec o disk (some s))
    (post : CompactPost codec o oracle s disk trace result disk' trace') :
    Healthy codec o disk' (left result) := by
  cases post with
  | unpublished err same => exact healthy.undisturbed same
  | interrupted same => exact (healthy.undisturbed same).dies
  | died reads rewritten => exact (healthy.rewritten rewritten).dies
  | unsynced cause reads fails rewritten => exact healthy.rewritten rewritten
  | @completed _ now log reads rewritten settled =>
    obtain ⟨replays, soundLog, good⟩ := goodFile_of_rewritten rewritten (healthy.sound s rfl)
    refine (healthy.rewritten rewritten).dies.withStore ?_ ?_
    · exact soundLog log.length _ (by rwa [take_length])
    · rintro inode _ ⟨⟩
      refine ⟨by rw [rewritten.next]; omega, good, log, ?_, rfl, soundLog, ?_⟩
      · rw [rewritten.file]; rfl
      · intro c' replayed id e found
        obtain rfl := Except.ok.inj (replays.symm.trans replayed)
        exact found

/-! ### The end of a journal -/

/-- Dropping entries keeps contents sound. -/
lemma Sound.prune (sound : Sound s.contents) (keep : String → EntryState → Bool) :
    Sound (s.prune keep).contents where
  entry id e found := by
    rw [Store.prune, ExtTreeMap.getElem?_filter'] at found
    exact sound.entry id e (filter_eq_some_iff.mp found).1
  gen_nonneg := sound.gen_nonneg
  gen_le id e found := by
    rw [Store.prune, ExtTreeMap.getElem?_filter'] at found
    exact sound.gen_le id e (filter_eq_some_iff.mp found).1
  tomb_named := by simp [Store.prune]

/-- The log still knows what is left in memory. -/
lemma Healthy.prune (healthy : Healthy codec o disk (some s)) (accepts : s.denied = none)
    (keep : String → EntryState → Bool) : Healthy codec o disk (some (s.prune keep)) := by
  refine healthy.dies.withStore ((healthy.sound s rfl).prune keep) ?_
  intro inode _ handle
  have attached := healthy.attached s inode rfl accepts handle
  obtain ⟨log, data, size, soundLog, shadows⟩ := attached.log
  refine ⟨attached.below, attached.good, log, data, size, soundLog, ?_⟩
  intro c' replayed id e found
  rw [Store.prune, ExtTreeMap.getElem?_filter'] at found
  exact shadows c' replayed id e (filter_eq_some_iff.mp found).1

/-- Overwriting a good file leaves it good. -/
lemma WipePost.goodFile (wiped : WipePost disk trace inode disk' trace')
    (good : GoodFile codec o (disk.files inode)) :
    ∃ file, disk' = disk.setFile inode file ∧ GoodFile codec o file := by
  obtain ⟨-, file, rfl, durable⟩ := wiped
  refine ⟨file, rfl, fun content mem => ?_⟩
  rcases durable content mem with before | wiped
  · exact good content before
  · exact Or.inr (Or.inl wiped)

lemma Healthy.wiped (healthy : Healthy codec o disk store)
    (wiped : LogWiped disk trace disk') : Healthy codec o disk' none := by
  rcases wiped with rfl | ⟨inode, named, wiped⟩
  · exact healthy.dies
  · have mem : some inode ∈ disk.durableDir .journalLog := named ▸ disk.dir_mem .journalLog
    obtain ⟨file, rfl, good⟩ := wiped.goodFile (healthy.named inode mem).2
    exact healthy.setFile inode good

/-- Removing the name. -/
lemma Healthy.unlink (healthy : Healthy codec o disk none) :
    Healthy codec o (disk.link .journalLog none) none := by
  refine ⟨fun inode mem => ?_, by simp, by simp⟩
  rcases mem_link_durableDir_self.mp mem with before | new
  · exact healthy.named inode before
  · cases new

section

variable (healthy : Healthy codec o disk (some s))
include healthy

lemma Healthy.destroy (post : DestroyPost oracle s disk trace result disk' trace') :
    Healthy codec o disk' (left result) := by
  cases post with
  | died wiped => exact healthy.wiped wiped
  | diedRemoved wiped => exact (healthy.wiped wiped).unlink
  | failed cause fails wiped =>
    exact (healthy.wiped wiped).withStore (healthy.sound s rfl) (by simp)
  | done wiped =>
    exact (healthy.wiped wiped).unlink.withStore (healthy.sound s rfl) (by simp)

/-- Overwriting a file that is neither named nor open. -/
lemma Healthy.wipe (unnamed : some inode ∉ disk.durableDir .journalLog)
    (closed : s.file ≠ some inode) (wiped : WipePost disk trace inode disk' trace')
    : Healthy codec o disk' (some s) := by
  obtain ⟨-, file, rfl, -⟩ := wiped
  refine ⟨fun other mem => ?_, healthy.sound, fun s' other isStore accepts handle => ?_⟩
  · have different : other ≠ inode := fun same => unnamed (same ▸ mem)
    rw [setFile_files_of_ne _ _ different]
    exact healthy.named other mem
  · cases isStore
    have different : other ≠ inode := fun same => closed (same ▸ handle)
    exact (healthy.attached s other rfl accepts handle).of_file (Nat.le_refl _)
      (setFile_files_of_ne _ _ different)

lemma Healthy.writable : Writable disk s := by
  refine ⟨fun _ => healthy.sound _ rfl, fun accepts inode handle => ?_⟩
  obtain ⟨log, data, size, -⟩ := (healthy.attached _ inode rfl accepts handle).log
  rw [data, size]

end

/-- **The invariant survives every call.** -/
lemma keptToEnd_healthy (c₀ : Contents) :
    KeptToEnd codec o oracle c₀ fun disk _ store => Healthy codec o disk store where
  writable healthy := healthy.writable
  append healthy accepts guarded post := healthy.append accepts guarded post
  compaction healthy _ post := healthy.compaction post
  dies healthy := healthy.dies
  named {disk _ _ inode} healthy named :=
    (healthy.named inode (named ▸ disk.dir_mem .journalLog)).1
  prune keep healthy accepts := healthy.prune accepts keep
  destroy healthy _ post := healthy.destroy post
  wipe healthy unnamed closed wiped :=
    ⟨healthy.wipe unnamed closed wiped, (healthy.wipe unnamed closed wiped).dies⟩

/-! ### Opening -/

lemma prefixSound_nil : PrefixSound ([] : List (Frame codec)) := by
  intro k c replayed
  rw [take_nil] at replayed
  cases replayed
  exact sound_empty

/-- A part of a header is a good file. -/
lemma goodBytes_header (n : ℕ) : GoodBytes codec o (header.take n) := by
  rcases Nat.lt_or_ge n headerSize with short | long
  · refine Or.inl ?_
    rw [length_take, length_header]
    omega
  · refine Or.inr (Or.inr ⟨[], [], ?_, .inl rfl, prefixSound_nil⟩)
    rw [take_of_length_le (by rw [length_header]; exact long), image_nil, append_nil]

/-- A good file with a journal's header consists of frames and an ending. -/
lemma Headed.log_of_goodBytes {data : Bytes} (headed : Headed data)
    (good : GoodBytes codec o data) : ∃ (log : List (Frame codec)) (tail : Bytes),
      data = image log ++ tail ∧ Ending codec o tail ∧ PrefixSound log := by
  rcases good with short | ⟨rest, rfl⟩ | log
  · exact absurd headed.long (Nat.not_le.mpr short)
  · have magical := headed.magical
    simp [magic] at magical
  · exact log

/-- What replaying a good file finds. -/
lemma Replays.log_of_goodBytes {data : Bytes} {r : Replayed} (replays : Replays codec o data r)
    (good : GoodBytes codec o data) : ∃ (log : List (Frame codec)) (tail : Bytes),
      data = image log ++ tail ∧ PrefixSound log ∧
      applyAll {} (records log) = .ok r.contents ∧ r.good = (image log).length ∧
      r.torn = !tail.isEmpty := by
  obtain ⟨log, tail, rfl, ending, soundLog⟩ := replays.toHeaded.log_of_goodBytes good
  obtain ⟨fits, c, applied⟩ := fits_of_replay replays.replayed
  have same := replays.replayed.symm.trans (replay_image fits ending applied)
  cases same
  exact ⟨log, tail, rfl, soundLog, applied, rfl, rfl⟩

/-- A file just started is good, and so is everything else. -/
lemma Healthy.started (healthy : Healthy codec o disk none) (started : Started disk disk' inode) :
    Healthy codec o disk' none ∧ inode < disk'.next ∧ GoodFile codec o (disk'.files inode) := by
  have below : inode < disk'.next := by
    rcases started.below with old | new | named
    · exact Nat.lt_of_lt_of_le old started.next
    · exact new
    · have := (healthy.named inode (named ▸ disk.dir_mem .journalLog)).1
      exact Nat.lt_of_lt_of_le this started.next
  have good : GoodFile codec o (disk'.files inode) := by
    intro content mem
    rcases started.durable content mem with ⟨named, before⟩ | ⟨n, rfl⟩
    · exact (healthy.named inode (named ▸ disk.dir_mem .journalLog)).2 content before
    · exact goodBytes_header n
  refine ⟨⟨fun other mem => ?_, by simp, by simp⟩, below, good⟩
  rcases started.durableDir _ mem with before | new
  · obtain ⟨old, goodOther⟩ := healthy.named other before
    refine ⟨Nat.lt_of_lt_of_le old started.next, ?_⟩
    by_cases same : other = inode
    · exact same ▸ good
    · rw [started.files other old same]; exact goodOther
  · cases new
    exact ⟨below, good⟩

/-- **The invariant survives opening.** -/
lemma Healthy.load (healthy : Healthy codec o disk none)
    (post : LoadPost codec o oracle disk trace store disk' trace') :
    Healthy codec o disk' store := by
  -- The named file, if there is one, is good.
  have goodNamed : ∀ {inode : ℕ}, disk.dir .journalLog = some inode →
      inode < disk.next ∧ GoodFile codec o (disk.files inode) :=
    fun {inode} named => healthy.named inode (named ▸ disk.dir_mem .journalLog)
  have replayedSound : ∀ {inode : ℕ} {r : Replayed}, disk.dir .journalLog = some inode →
      Replays codec o (disk.files inode).data r → Sound r.contents := by
    intro inode r named replays
    obtain ⟨log, tail, -, soundLog, applied, -⟩ :=
      replays.log_of_goodBytes ((goodNamed named).2 _ (disk.files inode).data_mem)
    exact soundLog log.length _ (by rwa [take_length])
  have refused : ∀ {st : Store}, st.denied ≠ none → ∀ {inode : ℕ}, st.denied = none →
      st.file = some inode → Attached codec o disk' st inode :=
    fun {_} denied {_} accepts => absurd accepts denied
  cases post with
  | died dies => exact healthy
  | unavailable denied contents fails =>
    exact healthy.withStore (contents ▸ sound_empty) fun inode => refused denied
  | @unreadable inode st denied named unread contents =>
    refine healthy.withStore ?_ fun inode => refused denied
    rcases contents with empty | ⟨headed, readable⟩
    · exact empty ▸ sound_empty
    · obtain ⟨log, tail, data, ending, soundLog⟩ :=
        headed.log_of_goodBytes ((goodNamed named).2 _ (disk.files inode).data_mem)
      obtain ⟨k, applied⟩ := replayPrefixOnly_image log ending
      rw [readable, data]
      exact soundLog k _ applied
  | unopened denied named replays contents fails =>
    exact healthy.withStore (contents ▸ replayedSound named replays) fun inode => refused denied
  | starting dies started => exact (healthy.started started).1
  | unstarted denied contents started fails =>
    exact (healthy.started started).1.withStore (contents ▸ sound_empty) fun inode => refused denied
  | started started file settled =>
    obtain ⟨healthy', below, good⟩ := healthy.started started
    refine healthy'.withStore sound_empty ?_
    rintro other _ ⟨⟩
    refine ⟨below, good, [], by rw [file, image_nil]; rfl, by simp, prefixSound_nil, ?_⟩
    intro c' _ id e found
    simp at found
  | @repairing inode _ r file denied died named replays torn left =>
    have cut : GoodFile codec o file := by
      rcases left with rfl | rfl
      · exact (goodNamed named).2
      · intro content mem
        rcases File.mem_truncate_durable.mp mem with before | rfl
        · exact (goodNamed named).2 content before
        · obtain ⟨log, tail, data, soundLog, -, size, -⟩ :=
            replays.log_of_goodBytes ((goodNamed named).2 _ (disk.files inode).data_mem)
          rw [data, size, take_left]
          exact .inr (.inr ⟨log, [], by simp, .inl rfl, soundLog⟩)
    have healthy' := healthy.setFile inode cut
    cases store with
    | none => exact healthy'
    | some s =>
      obtain ⟨isDenied, contents, -⟩ := denied s rfl
      exact healthy'.withStore (contents ▸ replayedSound named replays)
        fun inode accepts => absurd accepts isDenied
  | @opened inode schema r file named replays left =>
    obtain ⟨below, goodOld⟩ := goodNamed named
    obtain ⟨log, tail, data, soundLog, applied, size, torn⟩ :=
      replays.log_of_goodBytes (goodOld _ (disk.files inode).data_mem)
    have good : GoodFile codec o file ∧ file.data = image log := by
      rcases left with ⟨untorn, rfl⟩ | ⟨-, rfl⟩
      · have empty : tail = [] := by simpa [untorn] using torn
        exact ⟨goodOld, by rw [data, empty, append_nil]⟩
      · rw [data, size, take_left]
        exact ⟨goodFile_settled (.inr (.inr ⟨log, [], by simp, .inl rfl, soundLog⟩)), rfl⟩
    refine (healthy.setFile inode good.1).withStore (replayedSound named replays) ?_
    rintro other _ ⟨⟩
    refine ⟨below, by rw [setFile_files_self]; exact good.1, log,
      by rw [setFile_files_self]; exact good.2, size, soundLog, ?_⟩
    intro c' replayed id e found
    obtain rfl := Except.ok.inj (applied.symm.trans replayed)
    exact found

/-- The invariant survives a loss of power. -/
lemma Healthy.powerCut (healthy : Healthy codec o disk store) (cut : Disk.PowerCut disk disk') :
    Healthy codec o disk' none := by
  refine ⟨fun inode mem => ?_, by simp, by simp⟩
  rw [cut.durableDir, Set.mem_singleton_iff] at mem
  obtain ⟨below, good⟩ := healthy.named inode (mem ▸ cut.dir .journalLog)
  obtain ⟨content, survives, file⟩ := cut.files inode
  exact ⟨cut.next ▸ below, file ▸ goodFile_settled (good content survives)⟩

/-- **Every reachable journal is healthy**: whatever the operations, the faults,
the deaths and the losses of power. -/
lemma healthy_of_reaches {opts : Options} {sys : System}
    (reached : (journal codec opts).Reaches (fun _ _ => True) sys) :
    Healthy codec opts.withDefaults sys.disk sys.store := by
  refine reached.invariant (fun sys => Healthy codec opts.withDefaults sys.disk sys.store) ?_ ?_
  · rintro sys rfl
    refine ⟨fun inode mem => ?_, by simp, by simp⟩
    cases mem
  · intro sys label sys' healthy _ step
    cases step with
    | open_ oracle closed =>
      rw [closed] at healthy
      exact healthy.load (openStore_post codec opts oracle sys)
    | @call st c oracle isOpen =>
      rw [isOpen] at healthy
      refine callStore_of_always (fun disk _ store => Healthy codec opts.withDefaults disk store)
        (((keptToEnd_healthy st.contents).call healthy).mono ?_)
      rintro (_ | ⟨reply, s'⟩) disk' trace' after
      · exact after
      · exact after
    | exit => exact healthy.dies
    | powerCut cut => exact healthy.powerCut cut

end TechStack.Journal
