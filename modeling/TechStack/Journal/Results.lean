import TechStack.Journal.Durability

/-!
# Settled results are final

In every state a journal can reach, whatever fails or is lost, the entries in
memory form result chains (`EntryGood`).  This module draws the conclusion for
entries whose last result is not open: no operation supersedes that result,
dispatches the command again or takes it back to its intent, and neither does the
death of the process.  Such an entry only gets acknowledged, loses the payloads of
acknowledged revisions, and goes.
-/

namespace TechStack.Journal

open List Option Lib Io

variable {codec : Codec} {o : Options} {oracle : Oracle Site IoError} {disk disk' : Disk Name}
  {trace trace' : List Event} {s : Store} {c c' c₀ : Contents} {id : String}
  {e e' e'' : EntryState}

/-- The last result leaves nothing open. -/
def Settled (e : EntryState) : Prop := ∃ r, e.latest = some r ∧ r.open_ = false

/-- The same command with the same history, but for the payloads of its results
and for acknowledgements. -/
structure Continues (e e' : EntryState) : Prop where
  intent : e'.intent = e.intent
  intentAt : e'.intentAt = e.intentAt
  dispatchedAt : e'.dispatchedAt = e.dispatchedAt
  executor : e'.executor = e.executor
  results : e'.results.map ResultRecord.dropPayload = e.results.map ResultRecord.dropPayload

lemma Continues.refl (e : EntryState) : Continues e e := ⟨rfl, rfl, rfl, rfl, rfl⟩

lemma Continues.trans (first : Continues e e') (second : Continues e' e'') : Continues e e'' :=
  ⟨second.intent.trans first.intent, second.intentAt.trans first.intentAt,
    second.dispatchedAt.trans first.dispatchedAt, second.executor.trans first.executor,
    second.results.trans first.results⟩

lemma Continues.settled (continues : Continues e e') (settled : Settled e) : Settled e' := by
  obtain ⟨r, last, closed⟩ := settled
  have same := congrArg List.getLast? continues.results
  rw [getLast?_map, getLast?_map] at same
  change e'.latest.map _ = e.latest.map _ at same
  rw [last, map_some, map_eq_some_iff] at same
  obtain ⟨r', last', equal⟩ := same
  refine ⟨r', last', ?_⟩
  have opens := congrArg ResultRecord.open_ equal
  exact opens.trans closed

/-- A settled entry waits for its acknowledgement or has it. -/
lemma Settled.state (settled : Settled e) (good : EntryGood id e) :
    e.state = .resultPending ∨ e.state = .acked := by
  obtain ⟨r, last, closed⟩ := settled
  rw [good.state, EntryState.derivedState, last]
  simp only [closed, Bool.false_eq_true, if_false]
  split
  · exact .inr rfl
  · exact .inl rfl

/-- The only record for a settled entry is an acknowledgement. -/
lemma Advance.continues (advance : Advance e e') (good : EntryGood id e)
    (settled : Settled e) : Continues e e' := by
  have nonempty : e.results ≠ [] := by
    intro empty
    obtain ⟨r, last, -⟩ := settled
    rw [EntryState.latest, empty] at last
    cases last
  cases advance with
  | dispatch t state => exact absurd (good.of_state_intent state).1 nonempty
  | setExecutor ref state => exact absurd (good.of_state_dispatched state).1 nonempty
  | addResult r allowed =>
    obtain ⟨last, found, closed⟩ := settled
    have opens := allowed.2.2
    simp only [found] at opens
    cases opens.1.symm.trans closed
  | acknowledge t revision rejected =>
    exact ⟨EntryState.acknowledge_intent .., EntryState.acknowledge_intentAt ..,
      EntryState.acknowledge_dispatchedAt .., EntryState.acknowledge_executor ..,
      by rw [EntryState.acknowledge_results]⟩

/-- Compaction drops payloads only. -/
lemma continues_settle (e : EntryState) : Continues e (settle e) := by
  refine ⟨rfl, rfl, rfl, rfl, ?_⟩
  simp only [settle, List.map_map]
  refine List.map_congr_left fun r _ => ?_
  simp only [Function.comp_apply, rewriteResult]
  split <;> rfl

/-- The settled entries of `c₀` are gone or continue in `c`. -/
def Carries (c₀ c : Contents) : Prop :=
  ∀ (id : String) e, c₀.entries[id]? = some e → Settled e →
    c.entries[id]? = none ∨ ∃ e', c.entries[id]? = some e' ∧ Continues e e'

lemma Carries.refl (c : Contents) : Carries c c :=
  fun _ e known _ => .inr ⟨e, known, .refl e⟩

lemma Carries.effect {rec : Record} (carries : Carries c₀ c) (sound : Sound c)
    (fresh : ∀ intent, rec.kind = .intent → rec.intent = some intent →
      c₀.entries[intent.commandID]? = none) (effect : Effect c rec c') : Carries c₀ c' := by
  intro id e known settled
  rcases effect.entry id with same | ⟨-, intent, kind, found, rfl⟩ | ⟨e₁, e₂, before, after, advance⟩
  · rw [same]
    exact carries id e known settled
  · rw [fresh intent kind found] at known
    cases known
  · rcases carries id e known settled with gone | ⟨e', kept, continues⟩
    · cases gone.symm.trans before
    · obtain rfl := Option.some.inj (kept.symm.trans before)
      have more := advance.continues (sound.entry id e' kept) (continues.settled settled)
      exact .inr ⟨e₂, after, continues.trans more⟩

lemma Carries.compacted (carries : Carries c₀ c) (now : ℤ) : Carries c₀ (compacted o now c) := by
  intro id e known settled
  rw [compacted_entries_getElem?]
  rcases carries id e known settled with gone | ⟨e', kept, continues⟩
  · exact .inl (by rw [gone, bind_none])
  · rw [kept, bind_some]
    split
    · exact .inl rfl
    · exact .inr ⟨settle e', rfl, continues.trans (continues_settle e')⟩

lemma Carries.prune (carries : Carries c₀ s.contents) (keep : String → EntryState → Bool) :
    Carries c₀ (s.prune keep).contents := by
  intro id e known settled
  simp only [Store.prune, Std.ExtTreeMap.getElem?_filter']
  rcases carries id e known settled with gone | ⟨e', kept, continues⟩
  · exact .inl (by rw [gone]; rfl)
  · rw [kept]
    cases verdict : keep id e' with
    | true => exact .inr ⟨e', by simp [verdict], continues⟩
    | false => exact .inl (by simp [verdict])

/-- **No call touches a settled result**, whatever fails. -/
lemma keptToEnd_carries (c₀ : Contents) : KeptToEnd codec o oracle c₀ fun disk _ store =>
      Healthy codec o disk store ∧ ∀ s, store = some s → Carries c₀ s.contents where
  writable inv := inv.1.writable
  append := by
    rintro disk trace s rec result disk' trace' ⟨healthy, carries⟩ accepts guarded post
    refine ⟨healthy.append accepts guarded post, fun s' isOpen => ?_⟩
    cases post with
    | refused | detached | failed => cases isOpen; exact carries s rfl
    | died => cases isOpen
    | @done _ f contents t writes applied =>
      have stamped := writes.stamped
      cases isOpen
      obtain ⟨contents', applied', effect⟩ := legal_apply (guarded.legal t)
      rw [← stamped] at applied' effect
      obtain rfl := Except.ok.inj (applied.symm.trans applied')
      refine (carries s rfl).effect (healthy.sound s rfl) ?_ effect
      intro intent kind found
      rw [stamped] at kind found
      exact (guarded.fresh intent kind found).1
  compaction := by
    rintro disk trace s result disk' trace' ⟨healthy, carries⟩ - post
    refine ⟨healthy.compaction post, fun s' isOpen => ?_⟩
    cases post with
    | unpublished => cases isOpen; exact carries s rfl
    | interrupted => cases isOpen
    | died => cases isOpen
    | unsynced => cases isOpen; exact carries s rfl
    | completed => cases isOpen; exact (carries s rfl).compacted _
  dies inv := ⟨inv.1.dies, by simp⟩
  named {disk _ _ inode} inv named :=
    (inv.1.named inode (named ▸ disk.dir_mem .journalLog)).1
  prune keep inv accepts := by
    refine ⟨inv.1.prune accepts keep, ?_⟩
    rintro _ ⟨⟩
    exact (inv.2 _ rfl).prune keep
  destroy := by
    rintro disk trace s result disk' trace' ⟨healthy, carries⟩ - post
    refine ⟨healthy.destroy post, fun s' isOpen => ?_⟩
    cases post with
    | died => cases isOpen
    | diedRemoved => cases isOpen
    | failed => cases isOpen; exact carries s rfl
    | done => cases isOpen; exact carries s rfl
  wipe inv unnamed closed wiped :=
    ⟨⟨inv.1.wipe unnamed closed wiped, inv.2⟩, ⟨(inv.1.wipe unnamed closed wiped).dies, by simp⟩⟩

/-- Neither does the death of the process. -/
lemma Carries.pending {l : Ledger} (tidy : Tidy l.contents) (pending : Pending o l c) :
    Carries l.contents c := by
  cases pending with
  | settled => exact .refl _
  | rewritten rewriting => exact (Carries.refl _).compacted _
  | inFlight admissible applied =>
    refine (Carries.refl _).effect tidy.sound ?_ (admissible.effect applied)
    intro intent kind found
    cases admissible.legal <;> cases kind
    cases found
    assumption

/-- **Settled results are final**, of histories: a settled entry of the ledger
continues until it is dropped. -/
lemma Lawful.continues {T : ℤ → Prop} {before events : List Event}
    (lawful : Lawful o T (before ++ events))
    (known : (ledger o before).contents.entries[id]? = some e) (settled : Settled e) :
    (∃ e', (ledger o (before ++ events)).contents.entries[id]? = some e' ∧ Continues e e') ∨
    ∃ early late, events = early ++ late ∧
      (ledger o (before ++ early)).contents.entries[id]? = none := by
  induction events using List.reverseRecOn with
  | nil => exact .inl ⟨e, by rwa [append_nil], .refl e⟩
  | append_singleton events event ih =>
    rw [← append_assoc, lawful_concat] at lawful
    obtain ⟨lawful, allowed⟩ := lawful
    rcases ih lawful with ⟨e', kept, continues⟩ | ⟨early, late, rfl, gone⟩
    · -- What the event does to the ledger, as a carrying of its contents.
      have carries : Carries (ledger o (before ++ events)).contents
          (ledger o (before ++ (events ++ [event]))).contents := by
        rw [← append_assoc, ledger_concat]
        cases event with
        | opened c => exact .pending lawful.tidy allowed
        | appended rec =>
          obtain ⟨c', applied, -⟩ := legal_apply allowed.1.legal
          simp only [Ledger.next, applied]
          exact .pending (o := o) lawful.tidy (.inFlight allowed.1 applied)
        | published now c => exact .refl _
        | compacted now => exact (Carries.refl _).compacted now
        | returned call reply => exact .refl _
      rcases carries id e' kept (continues.settled settled) with gone | ⟨e'', kept', more⟩
      · exact .inr ⟨events ++ [event], [], by simp, gone⟩
      · exact .inl ⟨e'', kept', continues.trans more⟩
    · exact .inr ⟨early, late ++ [event], by simp, gone⟩

/-- **The result chain.**  In every state that a journal can reach, whatever fails,
dies or loses its power, the entries in memory form result chains; and no call
supersedes a settled result, dispatches its command again or takes it back to its
intent.  In a steady life this goes for the history as a whole: over any number of
calls, deaths and openings, a settled entry continues until it is dropped. -/
theorem result_chain {opts : Options} {sys : System} {st : Store}
    (reached : (journal codec opts).Reaches (fun _ _ => True) sys)
    (isOpen : sys.store = some st) :
    (∀ (id : String) e, st.contents.entries[id]? = some e → EntryGood id e) ∧
    (∀ (call : Call) (oracle : Oracle Site IoError) (reply : Reply) (st' : Store)
      (w : World (Disk Name) Site Event),
      (Journal.call codec opts.withDefaults st call).run oracle sys.disk sys.trace =
        (some (reply, st'), w) →
      ∀ (id : String) e, st.contents.entries[id]? = some e → Settled e →
        st'.contents.entries[id]? = none ∨
        ∃ e', st'.contents.entries[id]? = some e' ∧ Continues e e' ∧
          (e'.state = .resultPending ∨ e'.state = .acked)) ∧
    ∀ T, (journal codec opts).Reaches (Steady T) sys →
      (st.denied = none → st.contents = (ledger opts.withDefaults sys.trace).contents) ∧
      ∀ t₁ t₂ (id : String) e, sys.trace = t₁ ++ t₂ →
        (ledger opts.withDefaults t₁).contents.entries[id]? = some e → Settled e →
        (∃ e', (ledger opts.withDefaults sys.trace).contents.entries[id]? = some e' ∧
          Continues e e' ∧ (e'.state = .resultPending ∨ e'.state = .acked)) ∨
        ∃ early late, t₂ = early ++ late ∧
          (ledger opts.withDefaults (t₁ ++ early)).contents.entries[id]? = none := by
  have healthy := healthy_of_reaches reached
  rw [isOpen] at healthy
  refine ⟨(healthy.sound st rfl).entry, ?_, fun T steady => ?_⟩
  · intro call oracle reply st' w ran id e known settled
    have kept : Always oracle (Journal.call codec opts.withDefaults st call) sys.disk sys.trace _ :=
      (keptToEnd_carries st.contents).call
        ⟨healthy, fun s same => Option.some.inj same ▸ Carries.refl _⟩
    have after := kept.run
    rw [ran] at after
    obtain ⟨healthy', carries⟩ := after
    refine (carries st' rfl id e known settled).imp_right ?_
    rintro ⟨e', kept, continues⟩
    exact ⟨e', kept, continues,
      (continues.settled settled).state ((healthy'.sound st' rfl).entry id e' kept)⟩
  · have consistent : Consistent codec opts.withDefaults T (fun _ => True) sys.disk sys.trace
        sys.store :=
      consistent_of_reaches (fun _ _ => trivial) steady fun _ _ _ _ _ => trivial
    refine ⟨fun accepts => (consistent.current st isOpen accepts).1, ?_⟩
    intro t₁ t₂ id e split known settled
    have lawful := consistent.lawful
    rw [split] at lawful ⊢
    refine (lawful.continues known settled).imp_left ?_
    rintro ⟨e', kept, continues⟩
    exact ⟨e', kept, continues, (continues.settled settled).state (lawful.tidy.sound.entry id e' kept)⟩

/-- In the sample, the refused command has a result chain, and a compaction leaves
its result alone. -/
theorem result_chain_refused :
    ∃ sys st e, (journal Sample.json Sample.options).Reaches (fun _ _ => True) sys ∧
      sys.store = some st ∧ st.contents.entries["c1"]? = some e ∧ Settled e ∧
      EntryGood "c1" e ∧
      ∀ reply st' w, (Journal.call Sample.json Sample.options.withDefaults st .compact).run
          (Sample.still Sample.jan1) sys.disk sys.trace = (some (reply, st'), w) →
        st'.contents.entries["c1"]? = none ∨
        ∃ e', st'.contents.entries["c1"]? = some e' ∧ Continues e e' := by
  have run : ((System.start.acts Sample.json Sample.options (Sample.script Sample.refused)).map
      fun sys => sys.store.map fun st => st.contents.entries["c1"]?.map fun e =>
        e.latest.map ResultRecord.open_) = some (some (some (some false))) := by
    decide +kernel
  simp only [map_eq_some_iff] at run
  obtain ⟨sys, acted, st, isOpen, e, known, r, last, closed⟩ := run
  have reached : (journal Sample.json Sample.options).Reaches (fun _ _ => True) sys :=
    System.reaches_of_acts (fun _ _ _ => trivial) acted
  obtain ⟨chain, final, -⟩ := result_chain reached isOpen
  refine ⟨sys, st, e, reached, isOpen, known, ⟨r, last, closed⟩, chain "c1" e known, ?_⟩
  intro reply st' w ran
  refine (final _ _ reply st' w ran "c1" e known ⟨r, last, closed⟩).imp_right ?_
  rintro ⟨e', kept, continues, -⟩
  exact ⟨e', kept, continues⟩

end TechStack.Journal
