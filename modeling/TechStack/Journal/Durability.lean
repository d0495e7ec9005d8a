import TechStack.Journal.Dispatch

/-!
# Acknowledged writes and failed ones

What the caller of an operation may rely on, whichever system calls fail: a write
that was acknowledged is replayed by the next process (`acknowledged_writes_survive`),
and a call that failed left memory and log as they were
(`failed_calls_change_nothing`).

Both need the two conditions of `Continuity`.  Where the directory cannot be synced
after the rename of a compaction, the store goes on writing to a file without a
name.  And a compaction does not check the size of what it writes, so it may write
a record that the reader refuses.
-/

namespace TechStack.Journal

open Option Lib Io

variable {codec : Codec} {o : Options} {oracle : Oracle Site IoError} {disk disk' : Disk Name}
  {trace trace' : List Event} {s s' : Store} {T : ℤ → Prop} {c : Contents}

/-- A file of frames that fit is replayed to what it holds. -/
lemma Holds.recovered {data : Option Bytes}
    (holds : Holds codec o (fun f => f.Fits o) data c) : recovered codec o data = some c := by
  cases data with
  | none =>
    obtain rfl : c = {} := holds
    rfl
  | some data =>
    rcases holds with ⟨short, rfl⟩ | ⟨log, tail, rfl, ending, fits, applied⟩
    · rw [Journal.recovered, if_pos short]
    · exact (replays_image fits ending applied).recovered

lemma Current.recovered {inode : ℕ} {log : List (Frame codec)}
    (current : Current codec (fun f => f.Fits o) disk s inode log) :
    recovered codec o (disk.read .journalLog) = some s.contents := by
  rw [read_of_named disk current.named, current.data]
  exact (Holds.of_log current.frames current.applied).recovered

/-- The reader's bound on the log a compaction publishes, as a test. -/
def Event.fitting (codec : Codec) (o : Options) : Event → Bool
  | .published now c => (compactRecords o now c).all fun rec =>
    match codec.marshal rec with
    | .ok payload => decide ((payload.length : ℤ) ≤ o.maxRecord)
    | .error _ => true
  | _ => true

lemma published_of_fitting (fitting : trace.all (Event.fitting codec o) = true) :
    Published o (fun f : Frame codec => f.Fits o) trace := by
  intro now c ran f mem
  obtain ⟨payload, marshalled, -, shape⟩ := f.shape
  have bound := List.all_eq_true.mp (List.all_eq_true.mp fitting _ ran) _ mem
  simp only [marshalled, decide_eq_true_eq] at bound
  rw [Frame.Fits, shape]
  simp only [List.length_append, length_putUint32, recHeaderLen]
  push_cast
  omega

/-! ### Acknowledged writes -/

/-- **Acknowledged writes survive.**  In every steady life of a journal whose
compactions publish frames that fit the reader, the named log replays to the
ledger, with what was in flight when the process died; memory is the ledger; and a
call that answers without an error has its record in the ledger's history, or found
its effect in memory. -/
theorem acknowledged_writes_survive {opts : Options} {sys : System}
    (reached : (journal codec opts).Reaches (Steady fun _ => True) sys)
    (fits : Published opts.withDefaults (fun f : Frame codec => f.Fits opts.withDefaults)
      sys.trace) :
    (∃ c, recovered codec opts.withDefaults (sys.disk.read .journalLog) = some c ∧
      Pending opts.withDefaults (ledger opts.withDefaults sys.trace) c) ∧
    ∀ st, sys.store = some st →
      (st.denied = none → st.contents = (ledger opts.withDefaults sys.trace).contents) ∧
      ∀ (call : Call) (oracle : Oracle Site IoError) (reply : Reply) (st' : Store)
        (w : World (Disk Name) Site Event), ¬ call.Ends →
        (Journal.call codec opts.withDefaults st call).run oracle sys.disk sys.trace =
          (some (reply, st'), w) →
        reply.err = none → ∀ rec, call.record = some rec →
          call.Held st.contents ∨ Recorded call rec w.trace := by
  have consistent := consistent_of_reaches (fun _ bounded => bounded.fits) reached fits
  refine ⟨?_, fun st isOpen => ⟨fun accepts => (consistent.current st isOpen accepts).1, ?_⟩⟩
  · obtain ⟨c, holds, pending⟩ := consistent.pending
    exact ⟨c, holds.recovered, pending⟩
  · intro call oracle reply st' w lasts ran success rec record
    have healthy := healthy_of_reaches (reached.mono fun _ _ _ => trivial)
    rw [isOpen] at healthy
    exact (callPost_of_run healthy.writable lasts ran).recorded record success

/-- In the sample, the command's dispatch is acknowledged after a compaction, and
survives. -/
theorem acknowledged_writes_survive_sample :
    ∃ sys c, (journal Sample.json Sample.options).Reaches (Steady fun _ => True) sys ∧
      (sys.trace.map Event.dispatches).getLast? = some (some "c1") ∧
      recovered Sample.json Sample.options.withDefaults (sys.disk.read .journalLog) = some c ∧
      Pending Sample.options.withDefaults (ledger Sample.options.withDefaults sys.trace) c := by
  have run : ((System.start.acts Sample.json Sample.options (Sample.script
      [(Sample.jan1, .admit_ none Sample.command), (Sample.jan1, .compact),
        (Sample.jan1, .markDispatched "c1")])).map
      fun sys => ((sys.trace.map Event.dispatches).getLast?,
        sys.trace.all (Event.fitting Sample.json Sample.options.withDefaults))) =
        some (some (some "c1"), true) := by
    decide +kernel
  obtain ⟨sys, acted, both⟩ := map_eq_some_iff.mp run
  obtain ⟨dispatched, fitting⟩ := Prod.mk.inj both
  have reached : (journal Sample.json Sample.options).Reaches (Steady fun _ => True) sys :=
    System.reaches_of_acts (Sample.steady_script (by decide)) acted
  obtain ⟨⟨c, replayed, pending⟩, -⟩ :=
    acknowledged_writes_survive reached (published_of_fitting fitting)
  exact ⟨sys, c, reached, dispatched, replayed, pending⟩

/-- The log of the sample's command, as it was admitted. -/
lemma Sample.recovered_intentFrame :
    ∃ c, recovered Sample.json Sample.options.withDefaults (some (image [Sample.intentFrame])) =
      some c ∧ ∃ e, c.entries["c1"]? = some e ∧ e.state = .intent := by
  obtain ⟨c, applied, effect⟩ :=
    legal_apply (c := {}) (.intent Sample.jan1 Sample.command (by decide) (by simp))
  refine ⟨c, Holds.recovered (.of_log ?_ ?_), ?_⟩
  · simp only [List.forall_mem_singleton]
    exact Frame.Bounded.fits (by decide +kernel)
  · rw [← applied]
    exact Contents.applyAll_concat_ok (Contents.applyAll_nil {}) _
  · cases effect with
    | intent t intent named absent =>
      refine ⟨(EntryState.ofIntent Sample.command Sample.jan1).recompute, ?_, rfl⟩
      rw [Contents.noteGeneration_entries]
      exact Contents.setEntry_entries_self ..

/-- The directory cannot be synced after the rename of a compaction.  The next
dispatch is acknowledged and goes to a file without a name; the named log replays
to a command that was never dispatched. -/
theorem dispatch_lost_after_unsynced_compaction :
    ∃ sys : System, (journal Sample.json Sample.options).Reaches (fun _ label => match label with
          | .call c _ => ¬ c.Ends
          | .powerCut => False
          | _ => True) sys ∧
      (sys.trace.map Event.dispatches).getLast? = some (some "c1") ∧
      ∃ c, recovered Sample.json Sample.options.withDefaults (sys.disk.read .journalLog) = some c ∧
        ∃ e, c.entries["c1"]? = some e ∧ e.state = .intent := by
  have run : ((System.start.acts Sample.json Sample.options
      [.open_ (Sample.still 0), .call (.admit_ none Sample.command) (Sample.still Sample.jan1),
        .call .compact (Sample.faulty [.compactSyncDir] Sample.jan1),
        .call (.markDispatched "c1") (Sample.still Sample.jan1)]).map
      fun sys => ((sys.trace.map Event.dispatches).getLast?, sys.disk.read .journalLog)) =
        some (some (some "c1"), some (image [Sample.intentFrame])) := by
    decide +kernel
  obtain ⟨sys, acted, both⟩ := map_eq_some_iff.mp run
  obtain ⟨dispatched, named⟩ := Prod.mk.inj both
  refine ⟨sys, System.reaches_of_acts ?_ acted, dispatched, ?_⟩
  · simp [Call.Ends]
  · rw [named]
    exact Sample.recovered_intentFrame

/-! ### Failed calls -/

section

variable (consistent : Consistent codec o T (fun f => f.Fits o) disk trace (some s))
include consistent

/-- What a failed append leaves: memory as it was, and a log that replays to it,
unless the sync failed and the file could not be cut back either. -/
lemma Consistent.failed_append {rec : Record} {c₀ : Contents} {err : Err}
    (accepts : s.denied = none) (guarded : Guarded c₀ s.contents rec)
    (post : AppendPost codec o oracle s rec disk trace (some (some err, s')) disk' trace') :
    s'.contents = s.contents ∧
    (recovered codec o (disk'.read .journalLog) = some s.contents ∨
      oracle.FailsAt .appendSync ∧ oracle.FailsAt .appendTruncate ∧
      ∃ t c', s.contents.apply { rec with at_ := t } = .ok c' ∧
        recovered codec o (disk'.read .journalLog) = some c') := by
  obtain ⟨-, inode, log, current⟩ := consistent.current s rfl accepts
  cases post with
  | refused err => exact ⟨rfl, .inl current.recovered⟩
  | detached denied nil =>
    cases current.handle.symm.trans nil
  | @failed _ f file t denied writes touched remains =>
    obtain ⟨handle, -, stamped, bounded⟩ := writes
    cases current.handle.symm.trans handle
    refine ⟨rfl, ?_⟩
    rw [read_of_named (disk.setFile inode file) current.named, Disk.setFile_files_self]
    rw [current.data] at remains
    rcases remains with same | ⟨cut, cause⟩
    · rw [same]
      exact .inl (Holds.of_log current.frames current.applied).recovered
    · obtain ⟨n, part⟩ := touched.data
      rw [current.data] at part
      rcases ending_take bounded n with whole | ending
      · -- The whole record is there, so it was the sync that failed.
        rw [part, whole] at cause
        obtain ⟨c', applied⟩ := guarded.applies t
        refine .inr ⟨cause.resolve_right (by simp), cut, t, c', applied, ?_⟩
        rw [part, whole, ← image_concat]
        refine (Holds.of_log (forall_mem_snoc current.frames bounded.fits) ?_).recovered
        rw [records_concat, Contents.applyAll_concat_ok current.applied, stamped, applied]
      · rw [part]
        exact .inl (Holds.recovered (.inr ⟨log, _, rfl, ending, current.frames, current.applied⟩))

lemma Consistent.recovered (accepts : s.denied = none)
    : recovered codec o (disk.read .journalLog) = some s.contents := by
  obtain ⟨-, inode, log, current⟩ := consistent.current s rfl accepts
  exact current.recovered

/-- A failed append in the middle of a call, from the store `s`. -/
lemma Consistent.failed_report {rec : Record} {c₀ : Contents} {reply : Reply}
    {inner : Option (Option Err × Store)} (accepts : s.denied = none)
    (guarded : Guarded c₀ s.contents rec)
    (post : AppendPost codec o oracle s rec disk trace inner disk' trace')
    (reports : Reports inner (some (reply, s'))) (failed : reply.err ≠ none) :
    s'.contents = s.contents ∧
    (Journal.recovered codec o (disk'.read .journalLog) = some s'.contents ∨
      oracle.FailsAt .appendSync ∧ oracle.FailsAt .appendTruncate ∧
      ∃ t c', s'.contents.apply { rec with at_ := t } = .ok c' ∧
        Journal.recovered codec o (disk'.read .journalLog) = some c') := by
  rcases inner with _ | ⟨_ | err, s₁⟩
  · cases reports
  · exact absurd reports.2 failed
  · obtain ⟨rfl, -⟩ := reports
    obtain ⟨memory, log⟩ := consistent.failed_append accepts guarded post
    rw [memory]
    exact ⟨rfl, log⟩

/-- What a failed call leaves. -/
lemma Consistent.failed_call {call : Call} {reply : Reply} (accepts : s.denied = none)
    (synced : ¬ oracle.FailsAt .compactSyncDir)
    (post : CallPost codec o oracle s call disk trace (some (reply, s')) disk' trace')
    (fits : Published o (fun f : Frame codec => f.Fits o) trace') (failed : reply.err ≠ none) :
    (s'.contents = s.contents ∨ ∃ free intent now, call = .admit_ free intent ∧
      oracle.Reads now ∧ s'.contents = compacted o now s.contents) ∧
    (Journal.recovered codec o (disk'.read .journalLog) = some s'.contents ∨
      oracle.FailsAt .appendSync ∧ oracle.FailsAt .appendTruncate ∧
      ∃ rec t c', call.record = some rec ∧ s'.contents.apply { rec with at_ := t } = .ok c' ∧
        Journal.recovered codec o (disk'.read .journalLog) = some c') := by
  cases post with
  | idle held => exact ⟨.inl rfl, .inl (consistent.recovered accepts)⟩
  | append _ record guarded post reports =>
    obtain ⟨memory, log⟩ := consistent.failed_report accepts guarded post reports failed
    refine ⟨.inl memory, log.imp_right ?_⟩
    rintro ⟨sync, cut, t, c', applied, replayed⟩
    exact ⟨sync, cut, _, t, c', record, applied, replayed⟩
  | @compact _ _ _ inner _ post stops reports =>
    rcases inner with _ | ⟨_ | err, s₁⟩
    · cases reports
    · exact absurd reports.2 failed
    · obtain ⟨rfl, -⟩ := reports
      cases post with
      | unpublished err same =>
        exact ⟨.inl rfl, .inl ((consistent.undisturbed same).recovered accepts)⟩
      | unsynced cause reads fails => exact absurd fails synced
  | full _ admits post err =>
    have after := consistent.compaction accepts synced post fits
    obtain ⟨accepts', -⟩ := post.ready accepts (consistent.sound accepts)
    refine ⟨.inr ?_, .inl (after.recovered accepts')⟩
    cases post with
    | completed reads => exact ⟨_, _, _, admits, reads, rfl⟩
  | compactAppend _ admits first guarded post reports =>
    obtain ⟨accepts', -⟩ := first.ready accepts (consistent.sound accepts)
    have middle := consistent.compaction accepts synced first (post.published fits)
    obtain ⟨memory, log⟩ := middle.failed_report accepts' guarded post reports failed
    refine ⟨.inr ?_, log.imp_right ?_⟩
    · rw [memory]
      cases first with
      | completed reads => exact ⟨_, _, _, admits, reads, rfl⟩
    · rintro ⟨sync, cut, t, c', applied, replayed⟩
      exact ⟨sync, cut, _, t, c', by rw [admits]; rfl, applied, replayed⟩
  | @appendCompact _ _ _ _ _ _ _ _ _ inner _ _ acks record guarded first post ignores =>
    rcases inner with _ | ⟨err, s₁⟩
    · cases ignores
    · cases ignores
      exact absurd rfl failed

end

/-- **Failed calls change nothing.**  A call that answers with an error, in any
steady life of a journal whose compactions publish frames that fit the reader,
leaves memory as it was, or, if it is an `Admit` that compacted first, as that
compaction left it.  The named log replays to it; only where both the sync of the
record and the attempt to cut it off failed, it may replay to one record more. -/
theorem failed_calls_change_nothing {opts : Options} {sys : System} {st st' : Store}
    (reached : (journal codec opts).Reaches (Steady fun _ => True) sys)
    (isOpen : sys.store = some st) (accepts : st.denied = none)
    {call : Call} {oracle : Oracle Site IoError} (lasts : ¬ call.Ends)
    (synced : ¬ oracle.FailsAt .compactSyncDir) {reply : Reply}
    {w : World (Disk Name) Site Event}
    (ran : (Journal.call codec opts.withDefaults st call).run oracle sys.disk sys.trace =
      (some (reply, st'), w))
    (fits : Published opts.withDefaults (fun f : Frame codec => f.Fits opts.withDefaults) w.trace)
    (failed : reply.err ≠ none) :
    (st'.contents = st.contents ∨ ∃ free intent now, call = .admit_ free intent ∧
      oracle.Reads now ∧ st'.contents = compacted opts.withDefaults now st.contents) ∧
    (recovered codec opts.withDefaults (w.device.read .journalLog) = some st'.contents ∨
      oracle.FailsAt .appendSync ∧ oracle.FailsAt .appendTruncate ∧
      ∃ rec t c', call.record = some rec ∧ st'.contents.apply { rec with at_ := t } = .ok c' ∧
        recovered codec opts.withDefaults (w.device.read .journalLog) = some c') := by
  have healthy := healthy_of_reaches (reached.mono fun _ _ _ => trivial)
  rw [isOpen] at healthy
  have post := callPost_of_run healthy.writable lasts ran
  have consistent :=
    consistent_of_reaches (fun _ bounded => bounded.fits) reached (post.published fits)
  rw [isOpen] at consistent
  exact consistent.failed_call accepts synced post fits failed

namespace Sample

/-- A call of the store that some steps leave open: whether the store accepts writes
and has the command before, whether the call answers with an error, whether the store has the
command after, and whether all published logs fit the reader. -/
def fate (opts : Options) (labels : List Label) (call : Call) (oracle : Oracle Site IoError) :
    Option (Bool × Option (Bool × Bool) × Bool) := do
  let sys ← System.start.acts json opts labels
  let st ← sys.store
  let (result, w) := (Journal.call json opts.withDefaults st call).run oracle sys.disk sys.trace
  pure (st.denied.isNone && st.contents.entries.contains "c1",
    result.map fun r => (r.1.err.isSome, r.2.contents.entries.contains "c1"),
    w.trace.all (Event.fitting json opts.withDefaults))

lemma exists_of_fate {opts : Options} {labels : List Label} {call : Call}
    {oracle : Oracle Site IoError} {failed after fitting : Bool}
    (fated : fate opts labels call oracle = some (true, some (failed, after), fitting)) :
    ∃ sys st reply st' w, System.start.acts json opts labels = some sys ∧ sys.store = some st ∧
      (Journal.call json opts.withDefaults st call).run oracle sys.disk sys.trace =
        (some (reply, st'), w) ∧ reply.err.isSome = failed ∧ st.denied = none ∧
      st.contents.entries.contains "c1" = true ∧
      st'.contents.entries.contains "c1" = after ∧
      w.trace.all (Event.fitting json opts.withDefaults) = fitting := by
  simp only [fate, bind_eq_bind, bind_eq_some_iff] at fated
  obtain ⟨sys, acted, st, isOpen, fated⟩ := fated
  simp only [pure_def, Option.some.injEq, Prod.mk.injEq, map_eq_some_iff] at fated
  obtain ⟨before, ⟨⟨reply, st'⟩, ran, failed, after⟩, fitting⟩ := fated
  rw [Bool.and_eq_true, isNone_iff_eq_none] at before
  exact ⟨sys, st, reply, st', _, acted, isOpen, Prod.ext ran rfl, failed, before.1, before.2, after,
    fitting⟩

lemma mem_of_failsAt_faulty {sites : List Site} {t : ℤ} {site : Site}
    (fails : (faulty sites t).FailsAt site) : site ∈ sites := by
  obtain ⟨cause, done, n, answer⟩ := fails
  simp only [faulty] at answer
  split at answer
  case isTrue mem => exact mem
  case isFalse => cases answer

/-- A journal of 300 bytes, with results of one byte. -/
def small : Options := ⟨300, 1, 0, 0, 0, 0⟩

/-- The command is admitted, refused and acknowledged. -/
def refused : List (ℤ × Call) :=
  [(jan1, .admit_ none command), (jan1, .recordResult "c1" (outcome .rejected)),
   (jan1, .ack "c1" 1 false)]

end Sample

/-- In the sample, the record of a dispatch cannot be written: memory is as before,
and the log replays to it. -/
theorem failed_calls_change_nothing_sample :
    ∃ sys st reply st' w, (journal Sample.json Sample.options).Reaches (Steady fun _ => True) sys ∧
      sys.store = some st ∧
      (Journal.call Sample.json Sample.options.withDefaults st (.markDispatched "c1")).run
        (Sample.faulty [.appendWrite] Sample.jan1) sys.disk sys.trace =
        (some (reply, st'), w) ∧ reply.err ≠ none ∧ st'.contents = st.contents ∧
      recovered Sample.json Sample.options.withDefaults (w.device.read .journalLog) =
        some st'.contents := by
  have fated : Sample.fate Sample.options (Sample.script [(Sample.jan1, .admit_ none Sample.command)])
      (.markDispatched "c1") (Sample.faulty [.appendWrite] Sample.jan1) =
        some (true, some (true, true), true) := by
    decide +kernel
  obtain ⟨sys, st, reply, st', w, acted, isOpen, ran, failed, accepts, -, -, fitting⟩ :=
    Sample.exists_of_fate fated
  have reached : (journal Sample.json Sample.options).Reaches (Steady fun _ => True) sys :=
    System.reaches_of_acts (Sample.steady_script (by decide)) acted
  have err : reply.err ≠ none := isSome_iff_ne_none.mp failed
  obtain ⟨memory, log⟩ := failed_calls_change_nothing reached isOpen accepts (by decide)
    (fun fails => absurd (Sample.mem_of_failsAt_faulty fails) (by decide)) ran
    (published_of_fitting fitting) err
  refine ⟨sys, st, reply, st', w, reached, isOpen, ran, err, ?_, ?_⟩
  · refine memory.resolve_right ?_
    rintro ⟨free, intent, now, ⟨⟩, -⟩
  · refine log.resolve_right fun unsynced => ?_
    exact absurd (Sample.mem_of_failsAt_faulty unsynced.1) (by decide)

/-- Memory changes under failed calls: an `Admit` that compacts drops a command that
is past its horizon and then fails to write its own record, and a `Decommission`
forgets a command and then fails to remove the log. -/
theorem failed_calls_change_memory :
    (∃ sys st reply st' w, (journal Sample.json Sample.small).Reaches (fun _ _ => True) sys ∧
      sys.store = some st ∧
      (Journal.call Sample.json Sample.small.withDefaults st (.admit_ none Sample.other)).run
        (Sample.faulty [.appendWrite] Sample.jan2) sys.disk sys.trace = (some (reply, st'), w) ∧
      reply.err.isSome = true ∧ st.contents.entries.contains "c1" = true ∧
      st'.contents.entries.contains "c1" = false) ∧
    ∃ sys st reply st' w, (journal Sample.json Sample.options).Reaches (fun _ _ => True) sys ∧
      sys.store = some st ∧
      (Journal.call Sample.json Sample.options.withDefaults st .decommission).run
        (Sample.faulty [.destroyRemove] Sample.jan1) sys.disk sys.trace =
        (some (reply, st'), w) ∧
      reply.err.isSome = true ∧ st.contents.entries.contains "c1" = true ∧
      st'.contents.entries.contains "c1" = false := by
  have admitted : Sample.fate Sample.small (Sample.script Sample.refused)
      (.admit_ none Sample.other) (Sample.faulty [.appendWrite] Sample.jan2) =
        some (true, some (true, false), true) := by
    decide +kernel
  have ended : Sample.fate Sample.options (Sample.script Sample.refused) .decommission
      (Sample.faulty [.destroyRemove] Sample.jan1) = some (true, some (true, false), true) := by
    decide +kernel
  refine ⟨?_, ?_⟩
  · obtain ⟨sys, st, reply, st', w, acted, isOpen, ran, failed, -, before, after, -⟩ :=
      Sample.exists_of_fate admitted
    exact ⟨sys, st, reply, st', w, System.reaches_of_acts (fun _ _ _ => trivial) acted, isOpen,
      ran, failed, before, after⟩
  · obtain ⟨sys, st, reply, st', w, acted, isOpen, ran, failed, -, before, after, -⟩ :=
      Sample.exists_of_fate ended
    exact ⟨sys, st, reply, st', w, System.reaches_of_acts (fun _ _ _ => trivial) acted, isOpen,
      ran, failed, before, after⟩

end TechStack.Journal
