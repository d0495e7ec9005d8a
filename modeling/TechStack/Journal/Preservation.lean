import TechStack.Journal.Durability

/-!
# What compaction preserves

A compaction that succeeds should change nothing but payloads of acknowledged
revisions, acknowledged entries and expired tombstones (`Preserves`), and the log
it leaves should replay to what it leaves in memory.  `compaction_preserves_iff`
says exactly when it does, for every store a journal can have:

* every rewritten record has to fit the reader.  An append checks the size of its
  frame; a compaction does not, and it stamps a result with the result's own time,
  whose text may be longer than that of the time it was appended at.
* no unexpired tombstone may stand beside an entry of its command, unless the entry
  is acknowledged and leaves the same tombstone.  The tombstone records come last in
  the new log and remove the entry, whatever its state.  Stores of this kind arise
  when a `HandOff` has cleared the tombstones in memory and then failed to rewrite
  the log: a tombstoned command can be admitted again.
-/

namespace TechStack.Journal

open Option Lib Io

variable {codec : Codec} {o : Options} {oracle : Oracle Site IoError} {disk disk' : Disk Name}
  {trace trace' : List Event} {s s' : Store} {c c' : Contents} {now : ℤ}

/-- What a compaction at `now` should leave of the contents. -/
structure Preserves (o : Options) (now : ℤ) (c c' : Contents) : Prop where
  /-- An entry that is not acknowledged loses nothing but payloads of acknowledged
  revisions. -/
  entries : ∀ (id : String) e, c.entries[id]? = some e → e.state ≠ .acked →
    c'.entries[id]? = some (settle e)
  generation : c'.highGen = c.highGen
  tombs : ∀ (id : String) tomb, c.tombs[id]? = some tomb → now < tomb.expiresAt →
    c'.tombs[id]? = some tomb
  /-- An acknowledged entry becomes a tombstone until its horizon. -/
  acked : ∀ (id : String) e, c.entries[id]? = some e → e.state = .acked → now < horizon o e →
    c'.tombs[id]? = some { digest := e.intent.payloadDigest, expiresAt := horizon o e }
  apart : Apart c'

/-- No unexpired tombstone contradicts an entry of its command. -/
def Unmixed (o : Options) (now : ℤ) (c : Contents) : Prop :=
  ∀ (id : String) e tomb, c.entries[id]? = some e → c.tombs[id]? = some tomb →
    now < tomb.expiresAt → e.state = .acked ∧
      (now < horizon o e →
        tomb = { digest := e.intent.payloadDigest, expiresAt := horizon o e })

lemma compactTombs_of_acked {id : String} {e : EntryState} (known : c.entries[id]? = some e)
    (acked : e.state = .acked) (early : now < horizon o e) :
    (compactTombs o now c)[id]? =
      some { digest := e.intent.payloadDigest, expiresAt := horizon o e } := by
  rw [compactTombs_getElem?, known, bind_some, tombstoneOf, if_pos ⟨acked, early⟩,
    some_or]

/-- The entry makes no tombstone, so the old one counts. -/
lemma compactTombs_of_unmade {id : String}
    (unmade : ∀ e, c.entries[id]? = some e → tombstoneOf o now e = none) :
    (compactTombs o now c)[id]? = c.tombs[id]?.filter fun tomb => now < tomb.expiresAt := by
  rw [compactTombs_getElem?]
  cases known : c.entries[id]? with
  | none => simp
  | some e => simp [unmade e known]

/-- **Compacted contents are preserved exactly if they were unmixed.** -/
lemma preserves_compacted_iff : Preserves o now c (compacted o now c) ↔ Unmixed o now c := by
  constructor
  · intro preserves id e tomb known buried early
    have tomb' := preserves.tombs id tomb buried early
    have acked : e.state = .acked := by
      by_contra unacked
      have entry := preserves.entries id e known unacked
      rcases preserves.apart id with gone | gone
      · rw [gone] at entry; cases entry
      · rw [gone] at tomb'; cases tomb'
    exact ⟨acked, fun ahead =>
      Option.some.inj (tomb'.symm.trans (preserves.acked id e known acked ahead))⟩
  · intro unmixed
    refine ⟨?_, rfl, ?_, fun id e known acked early => compactTombs_of_acked known acked early,
      apart_compacted now c⟩
    · intro id e known unacked
      have clear : (compactTombs o now c)[id]? = none := by
        rw [compactTombs_of_unmade]
        · cases buried : c.tombs[id]? with
          | none => rfl
          | some tomb =>
            refine filter_eq_none_iff.mpr ?_
            rintro _ ⟨⟩ early
            exact unacked (unmixed id e tomb known buried (by simpa using early)).1
        · intro e' known'
          cases known.symm.trans known'
          rw [tombstoneOf, if_neg fun both => unacked both.1]
      rw [compacted_entries_getElem?, known, bind_some, clear]
      simp [unacked]
    · intro id tomb buried early
      change (compactTombs o now c)[id]? = some tomb
      by_cases made : ∃ e, c.entries[id]? = some e ∧ e.state = .acked ∧ now < horizon o e
      · obtain ⟨e, known, acked, ahead⟩ := made
        rw [compactTombs_of_acked known acked ahead, (unmixed id e tomb known buried early).2 ahead]
      · rw [compactTombs_of_unmade, buried]
        · simp [early]
        · intro e known
          rw [tombstoneOf, if_neg fun both => made ⟨e, known, both⟩]

/-! ### The rewritten log -/

/-- A record has one frame only. -/
lemma Frame.bytes_eq {f g : Frame codec} (same : f.record = g.record) : f.bytes = g.bytes := by
  have encoded := f.encoded
  rw [same, g.encoded] at encoded
  exact (Except.ok.inj encoded).symm

/-- The log that a compaction wrote replays if and only if its records fit the
reader. -/
lemma recovered_iff_of_rewritten {log : List (Frame codec)} (sound : Sound c)
    (rewritten : Rewritten o c now log disk disk') :
    recovered codec o (disk'.read .journalLog) = some (compacted o now c) ↔
      ∀ f : Frame codec, f.record ∈ compactRecords o now c → f.Fits o := by
  have applied : Contents.applyAll {} (records log) = .ok (compacted o now c) := by
    rw [rewritten.records]
    exact (grown_compactRecords sound o now).applyAll
  have data : disk'.read .journalLog = some (image log ++ []) := by
    rw [read_of_named disk' rewritten.dir, rewritten.file, List.append_nil]
    rfl
  rw [data]
  constructor
  · intro replayed f mem
    have headed := headed_image log []
    -- The file was not refused, so replay went through all its frames.
    have fits : ∀ g ∈ log, g.Fits o := by
      rw [recovered, if_neg (Nat.not_lt.mpr headed.long),
        if_neg (not_not.mpr headed.magical)] at replayed
      split at replayed
      · cases replayed
      · cases result : replay codec o (image log ++ []) with
        | error message => rw [result] at replayed; cases replayed
        | ok r => exact (fits_of_replay result).1
    rw [← rewritten.records, records, List.mem_map] at mem
    obtain ⟨g, within, same⟩ := mem
    have fit := fits g within
    rwa [Frame.Fits, Frame.bytes_eq same] at fit
  · intro fits
    have within : ∀ f ∈ log, f.Fits o := fun f mem =>
      fits f (rewritten.records ▸ List.mem_map_of_mem mem)
    exact (replays_image within (.inl rfl) applied).recovered

/-- What a compaction of a sound store can answer. -/
lemma compactPost_of_run (accepts : s.denied = none) (sound : Sound s.contents)
    {result : Option (Option Err × Store)} {w : World (Disk Name) Site Event}
    (ran : (compactLocked codec o s).run oracle disk trace = (result, w)) :
    CompactPost codec o oracle s disk trace result w.device w.trace := by
  have post : Always oracle (compactLocked codec o s) disk trace _ :=
    always_compactLocked accepts sound
  have after := post.run
  rw [ran] at after
  exact after

/-- **What compaction preserves.**  For every store that accepts writes, in every
state a journal can reach: a compaction never finds its own records inconsistent,
and a compaction that succeeds at `now` preserves the contents and leaves a log
that replays to memory if and only if the rewritten records fit the reader and the
contents were unmixed. -/
theorem compaction_preserves_iff {opts : Options} {sys : System} {st : Store}
    (reached : (journal codec opts).Reaches (fun _ _ => True) sys)
    (isOpen : sys.store = some st) (accepts : st.denied = none) :
    (∀ (oracle : Oracle Site IoError) (err : Err) (st' : Store) (w : World (Disk Name) Site Event),
      (compactLocked codec opts.withDefaults st).run oracle sys.disk sys.trace =
        (some (some err, st'), w) → st'.denied = none) ∧
    ∀ (oracle : Oracle Site IoError) (now : ℤ) (st' : Store)
      (w : World (Disk Name) Site Event), (∀ t, oracle.Reads t → t = now) →
      (compactLocked codec opts.withDefaults st).run oracle sys.disk sys.trace =
        (some (none, st'), w) →
      (Preserves opts.withDefaults now st.contents st'.contents ∧
          recovered codec opts.withDefaults (w.device.read .journalLog) = some st'.contents ↔
        (∀ f : Frame codec, f.record ∈ compactRecords opts.withDefaults now st.contents →
          f.Fits opts.withDefaults) ∧
        Unmixed opts.withDefaults now st.contents) := by
  have healthy := healthy_of_reaches reached
  rw [isOpen] at healthy
  have sound := healthy.sound st rfl
  constructor
  · intro oracle err st' w ran
    have post := compactPost_of_run accepts sound ran
    generalize w.device = disk', w.trace = trace' at post
    cases post with
    | unpublished => exact accepts
    | unsynced => exact accepts
  · intro oracle now st' w clock ran
    have post := compactPost_of_run accepts sound ran
    generalize w.device = disk', w.trace = trace' at post ⊢
    cases post with
    | @completed _ now' log reads rewritten settled =>
      obtain rfl := clock now' reads
      rw [preserves_compacted_iff, recovered_iff_of_rewritten sound rewritten]
      exact and_comm

/-- In the sample, the refused and acknowledged command becomes a tombstone, and the
log replays to it. -/
theorem compaction_preserves_iff_refused :
    ∃ sys st st' w, (journal Sample.json Sample.options).Reaches (fun _ _ => True) sys ∧
      sys.store = some st ∧ st.contents.entries.contains "c1" = true ∧
      (compactLocked Sample.json Sample.options.withDefaults st).run (Sample.still Sample.jan1)
        sys.disk sys.trace = (some (none, st'), w) ∧
      Preserves Sample.options.withDefaults Sample.jan1 st.contents st'.contents ∧
      recovered Sample.json Sample.options.withDefaults (w.device.read .journalLog) =
        some st'.contents := by
  have run : ((System.start.acts Sample.json Sample.options (Sample.script Sample.refused)).bind
      fun sys => sys.store.map fun st =>
        (st.denied, st.contents.entries.contains "c1" && st.contents.tombs.isEmpty &&
          Event.fitting Sample.json Sample.options.withDefaults (.published Sample.jan1 st.contents),
          ((compactLocked Sample.json Sample.options.withDefaults st).run
            (Sample.still Sample.jan1) sys.disk sys.trace).1.map fun r => r.1)) =
        some (none, true, some none) := by
    decide +kernel
  simp only [bind_eq_some_iff, map_eq_some_iff, Prod.mk.injEq,
    Bool.and_eq_true] at run
  obtain ⟨sys, acted, st, isOpen, accepts, ⟨⟨known, bare⟩, fitting⟩, ⟨err, st'⟩, ran, rfl⟩ := run
  have reached : (journal Sample.json Sample.options).Reaches (fun _ _ => True) sys :=
    System.reaches_of_acts (fun _ _ _ => trivial) acted
  have fits : Published Sample.options.withDefaults
      (fun f : Frame Sample.json => f.Fits Sample.options.withDefaults)
      [.published Sample.jan1 st.contents] :=
    published_of_fitting (by simpa using fitting)
  have unmixed : Unmixed Sample.options.withDefaults Sample.jan1 st.contents := by
    intro id e tomb _ buried
    rw [Std.ExtTreeMap.isEmpty_iff.mp bare] at buried
    simp at buried
  have both := ((compaction_preserves_iff reached isOpen accepts).2 (Sample.still Sample.jan1)
    Sample.jan1 st' _ (by rintro t ⟨-, rfl⟩; rfl) (Prod.ext ran rfl)).mpr
      ⟨fits _ _ (List.mem_singleton_self _), unmixed⟩
  exact ⟨sys, st, st', _, reached, isOpen, known, Prod.ext ran rfl, both⟩

namespace Sample

/-- The refused command was compacted to a tombstone and another one admitted.  A
`HandOff` clears the tombstone in memory and cannot create its temporary file; the
first command is admitted and dispatched once more, and the process starts anew. -/
def mixed : List Label :=
  script (refused ++ [(jan1, .compact), (jan1, .admit_ none other)]) ++
  [.call (.handOff "t2") (faulty [.compactCreateTemp] jan1),
   .call (.admit_ none command) (still jan1), .call (.markDispatched "c1") (still jan1),
   .exit, .open_ (still 0)]

end Sample

/-- The dispatched command of the sample, which nobody acknowledged, is gone after a
successful compaction. -/
theorem compaction_drops_dispatched_command :
    ∃ sys st e st' w, (journal Sample.json Sample.options).Reaches (fun _ _ => True) sys ∧
      sys.store = some st ∧ st.denied = none ∧ st.contents.entries["c1"]? = some e ∧
      e.state = .dispatched ∧
      (compactLocked Sample.json Sample.options.withDefaults st).run (Sample.still Sample.jan1)
        sys.disk sys.trace = (some (none, st'), w) ∧
      st'.contents.entries["c1"]? = none := by
  have run : ((System.start.acts Sample.json Sample.options Sample.mixed).bind fun sys =>
      sys.store.map fun st =>
        (st.denied, st.contents.entries["c1"]?.map EntryState.state,
          ((compactLocked Sample.json Sample.options.withDefaults st).run
            (Sample.still Sample.jan1) sys.disk sys.trace).1.map fun r =>
              (r.1, r.2.contents.entries["c1"]?.isNone))) =
        some (none, some .dispatched, some (none, true)) := by
    decide +kernel
  simp only [bind_eq_some_iff, map_eq_some_iff, Prod.mk.injEq] at run
  obtain ⟨sys, acted, st, isOpen, accepts, ⟨e, known, state⟩, ⟨err, st'⟩, ran, rfl, gone⟩ := run
  refine ⟨sys, st, e, st', _, System.reaches_of_acts (fun _ _ _ => trivial) acted, isOpen, accepts,
    known, state, Prod.ext ran rfl, isNone_iff_eq_none.mp gone⟩

end TechStack.Journal
