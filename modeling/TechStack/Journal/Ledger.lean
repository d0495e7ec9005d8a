import TechStack.Journal.System

/-!
# The ledger of a journal

What a journal should hold, computed from its history alone: the contents it was
opened with, every record that was appended since, and the compactions that took
effect.  Files do not occur here.  `Lawful` lists the histories a journal can
have as long as its process may die but its machine keeps running, and the
results of this module are about all of them:

* the ledger is sound, and no command has both an entry and a tombstone;
* a command that was dispatched is shielded from a second dispatch until a
  compaction runs past its horizon (`Lawful.shielded`).
-/

namespace TechStack.Journal

open List Lib Std

/-- The contents a journal should have.  `rewriting` is the time of a rewritten
log that has the log's name but was not taken over yet. -/
structure Ledger where
  contents : Contents := {}
  rewriting : Option ℤ := none

/-- What an event does to the ledger. -/
def Ledger.next (o : Options) (l : Ledger) : Event → Ledger
  | .opened c => { contents := c }
  | .appended rec =>
    match l.contents.apply rec with
    | .ok c => { contents := c }
    | .error _ => l
  | .published now _ => { l with rewriting := some now }
  | .compacted now => { contents := compacted o now l.contents }
  | .returned _ _ => l

/-- The ledger of a history. -/
def ledger (o : Options) (trace : List Event) : Ledger := trace.foldl (Ledger.next o) {}

variable {o : Options} {T : ℤ → Prop} {trace : List Event} {c c' : Contents} {id : String}

@[simp] lemma ledger_nil : ledger o [] = {} := rfl

@[simp] lemma ledger_concat (event : Event) :
    ledger o (trace ++ [event]) = (ledger o trace).next o event := by
  rw [ledger, foldl_append]
  rfl

/-- A record an operation may append: legal, and no intent of a command that is
tombstoned. -/
structure Admissible (c : Contents) (rec : Record) : Prop where
  legal : Legal c rec
  fresh : ∀ intent, rec.kind = .intent → rec.intent = some intent →
    c.tombs[intent.commandID]? = none

variable {rec : Record}

lemma Guarded.admissible {c₀ : Contents} (guarded : Guarded c₀ c rec) (t : ℤ) :
    Admissible c { rec with at_ := t } :=
  ⟨guarded.legal t, fun intent kind found => (guarded.fresh intent kind found).2⟩

/-- The contents a log may turn out to have when its process dies: those of the
ledger, with a rewritten log taken over, or with one record more. -/
inductive Pending (o : Options) (l : Ledger) : Contents → Prop where
  | settled : Pending o l l.contents
  | rewritten {now : ℤ} (rewriting : l.rewriting = some now) :
      Pending o l (compacted o now l.contents)
  | inFlight {rec : Record} {c : Contents} (admissible : Admissible l.contents rec)
      (applied : l.contents.apply rec = .ok c) : Pending o l c

/-- The events of a compaction. -/
def Event.Compacts : Event → Prop
  | .published _ _ => True
  | .compacted _ => True
  | _ => False

/-- The history ends with the record of a call; only `Ack` may compact after it. -/
def Recorded (call : Call) (rec : Record) (trace : List Event) : Prop :=
  ∃ before t after, trace = before ++ .appended { rec with at_ := t } :: after ∧
    (after = [] ∨ (∃ id revision rejected, call = .ack id revision rejected) ∧
      ∀ event ∈ after, event.Compacts)

/-- The events that may follow a history, with records stamped at times in `T`. -/
def Allowed (o : Options) (T : ℤ → Prop) (trace : List Event) : Event → Prop
  | .opened c => Pending o (ledger o trace) c
  | .appended rec => Admissible (ledger o trace).contents rec ∧ T rec.at_
  | .published _ c => c = (ledger o trace).contents
  | .compacted now => (ledger o trace).rewriting = some now
  | .returned call reply => ∀ rec, call.record = some rec → reply.err = none →
      (∃ contents, call.Held contents) ∨ Recorded call rec trace

/-- The histories of a journal whose process may die at any point. -/
inductive Lawful (o : Options) (T : ℤ → Prop) : List Event → Prop where
  | nil : Lawful o T []
  | concat {trace : List Event} {event : Event} (lawful : Lawful o T trace)
      (allowed : Allowed o T trace event) : Lawful o T (trace ++ [event])

lemma lawful_concat {event : Event} :
    Lawful o T (trace ++ [event]) ↔ Lawful o T trace ∧ Allowed o T trace event := by
  refine ⟨fun lawful => ?_, fun both => .concat both.1 both.2⟩
  generalize same : trace ++ [event] = full at lawful
  cases lawful with
  | nil => simp at same
  | concat lawful allowed =>
    obtain ⟨rfl, last⟩ := append_inj' same rfl
    obtain rfl := singleton_injective last
    exact ⟨lawful, allowed⟩

lemma Lawful.of_append {more : List Event} (lawful : Lawful o T (trace ++ more)) :
    Lawful o T trace := by
  induction more using List.reverseRecOn with
  | nil => simpa using lawful
  | append_singleton more event ih =>
    rw [← append_assoc, lawful_concat] at lawful
    exact ih lawful.1

/-! ### What records and compactions do to one command -/

/-- What a record can do to an entry. -/
inductive Advance (e : EntryState) : EntryState → Prop where
  | dispatch (t : ℤ) (state : e.state = .intent) : Advance e (e.dispatch t)
  | setExecutor (ref : ExecutorRef) (state : e.state = .dispatched) : Advance e (e.setExecutor ref)
  | addResult (r : ResultRecord) (allowed : ResultAllowed e r) : Advance e (e.addResult r)
  | acknowledge (t revision : ℤ) (rejected : Bool) (low : 1 ≤ revision)
      (high : revision ≤ (e.results.length : ℤ)) : Advance e (e.acknowledge t revision rejected)

/-- What a record can do to the entry of a command: nothing, create it, or
advance it. -/
lemma Effect.entry (effect : Effect c rec c') (id : String) : c'.entries[id]? = c.entries[id]? ∨
    (c.entries[id]? = none ∧ ∃ intent : Intent, rec.kind = .intent ∧ rec.intent = some intent ∧
      intent.commandID = id) ∨
    ∃ e e', c.entries[id]? = some e ∧ c'.entries[id]? = some e' ∧ Advance e e' := by
  have set : ∀ {key : String} {e e' : EntryState}, c.entries[key]? = some e → Advance e e' →
      (c.setEntry key e').entries[id]? = c.entries[id]? ∨
      (c.entries[id]? = none ∧ ∃ intent : Intent, rec.kind = .intent ∧ rec.intent = some intent ∧
        intent.commandID = id) ∨
      ∃ e₁ e₂, c.entries[id]? = some e₁ ∧ (c.setEntry key e').entries[id]? = some e₂ ∧
        Advance e₁ e₂ := by
    intro key e e' known advance
    rw [Contents.setEntry_entries]
    by_cases same : key = id
    · subst same
      exact .inr (.inr ⟨e, e', known, if_pos rfl, advance⟩)
    · exact .inl (if_neg same)
  cases effect with
  | gen => exact .inl (by simp)
  | intent t intent named absent =>
    rw [Contents.noteGeneration_entries, Contents.setEntry_entries]
    by_cases same : intent.commandID = id
    · exact .inr (.inl ⟨same ▸ absent, intent, rfl, rfl, same⟩)
    · exact .inl (if_neg same)
  | dispatched t key known state => exact set known (.dispatch t state)
  | executor t key ref known state => exact set known (.setExecutor ref state)
  | result t key r known allowed => exact set known (.addResult r allowed)
  | ack t key revision rejected known low high =>
    exact set known (.acknowledge t revision rejected low high)

/-- Records never bury a command. -/
lemma Effect.tombs (effect : Effect c rec c') : c'.tombs = c.tombs := by
  cases effect <;> simp

lemma Advance.intent {e e' : EntryState} (advance : Advance e e') : e'.intent = e.intent := by
  cases advance with
  | dispatch => rfl
  | setExecutor => rfl
  | addResult => rfl
  | acknowledge => exact EntryState.acknowledge_intent ..

/-- Only a command that is not dispatched yet is dispatched. -/
lemma Advance.dispatchedAt {e e' : EntryState} (advance : Advance e e')
    (good : EntryGood id e) (dispatched : e.dispatchedAt ≠ 0) :
    e'.dispatchedAt = e.dispatchedAt := by
  cases advance with
  | dispatch t state => exact absurd (good.of_state_intent state).2 dispatched
  | setExecutor => rfl
  | addResult => rfl
  | acknowledge => exact EntryState.acknowledge_dispatchedAt ..

/-! ### Entries and tombstones stay apart -/

/-- No command has both an entry and a tombstone. -/
def Apart (c : Contents) : Prop :=
  ∀ id : String, c.entries[id]? = none ∨ c.tombs[id]? = none

lemma Apart.tomb_none {e : EntryState} (apart : Apart c) (known : c.entries[id]? = some e) :
    c.tombs[id]? = none :=
  (apart id).resolve_left (by simp [known])

/-- Compaction separates entries and tombstones, whatever it is given. -/
lemma apart_compacted (now : ℤ) (c : Contents) : Apart (compacted o now c) := by
  intro id
  cases tomb : (compactTombs o now c)[id]? with
  | none => exact .inr tomb
  | some t =>
    refine .inl ?_
    rw [compacted_entries_getElem?]
    cases c.entries[id]? with
    | none => rfl
    | some e => simp [tomb]

lemma Apart.effect (apart : Apart c) (admissible : Admissible c rec) (effect : Effect c rec c')
    : Apart c' := by
  intro id
  rw [effect.tombs]
  rcases effect.entry id with same | ⟨-, intent, kind, found, rfl⟩ | ⟨e, e', known, -, -⟩
  · rw [same]
    exact apart id
  · exact .inr (admissible.fresh intent kind found)
  · exact .inr (apart.tomb_none known)

lemma Admissible.effect (admissible : Admissible c rec) (applied : c.apply rec = .ok c')
    : Effect c rec c' := by
  obtain ⟨c'', applied', effect⟩ := legal_apply admissible.legal
  obtain rfl := Except.ok.inj (applied.symm.trans applied')
  exact effect

/-- Sound contents whose entries and tombstones are apart. -/
structure Tidy (c : Contents) : Prop where
  sound : Sound c
  apart : Apart c

lemma Tidy.apply (tidy : Tidy c) (admissible : Admissible c rec)
    (applied : c.apply rec = .ok c') : Tidy c' :=
  ⟨tidy.sound.effect (admissible.effect applied),
    tidy.apart.effect admissible (admissible.effect applied)⟩

lemma Tidy.compacted (tidy : Tidy c) (now : ℤ) : Tidy (compacted o now c) :=
  ⟨(grown_compactRecords tidy.sound o now).sound sound_empty, apart_compacted now c⟩

lemma Tidy.pending {l : Ledger} (tidy : Tidy l.contents) (pending : Pending o l c) : Tidy c := by
  cases pending with
  | settled => exact tidy
  | rewritten rewriting => exact tidy.compacted _
  | inFlight admissible applied => exact tidy.apply admissible applied

/-- **The ledger of a lawful history is tidy.** -/
lemma Lawful.tidy (lawful : Lawful o T trace) : Tidy (ledger o trace).contents := by
  induction lawful with
  | nil => exact ⟨sound_empty, fun id => .inl (by simp)⟩
  | @concat trace event lawful allowed ih =>
    rw [ledger_concat]
    cases event with
    | opened c => exact ih.pending allowed
    | appended rec =>
      obtain ⟨c', applied, -⟩ := legal_apply allowed.1.legal
      simp only [Ledger.next, applied]
      exact ih.apply allowed.1 applied
    | published now c => exact ih
    | compacted now => exact ih.compacted _
    | returned call reply => exact ih

/-! ### Dispatched commands are shielded -/

/-- A compaction among the events found the command acknowledged. -/
structure Acknowledged (events : List Event) (id : String) (e₁ e : EntryState) : Prop where
  found : ∃ now c, .published now c ∈ events ∧ c.entries[id]? = some e
  intent : e.intent = e₁.intent
  dispatchedAt : e.dispatchedAt = e₁.dispatchedAt
  state : e.state = .acked

/-- What keeps a command from being dispatched again, whose entry was `e₁` when it
was dispatched and that saw the events since: its entry, or its tombstone.  A
compaction past its horizon releases it. -/
inductive Shield (o : Options) (id : String) (e₁ : EntryState) (events : List Event)
    (c : Contents) : Prop where
  | entry {e : EntryState} (known : c.entries[id]? = some e) (intent : e.intent = e₁.intent)
      (dispatchedAt : e.dispatchedAt = e₁.dispatchedAt)
  | tomb {tomb : Tombstone} {e : EntryState} (buried : c.tombs[id]? = some tomb)
      (acked : Acknowledged events id e₁ e) (expires : tomb.expiresAt = horizon o e)
  | released {e : EntryState} {now : ℤ} {c' : Contents} (acked : Acknowledged events id e₁ e)
      (ran : .published now c' ∈ events) (late : horizon o e ≤ now)

section Shield

variable {events : List Event} {e₁ : EntryState}

lemma Acknowledged.concat {e : EntryState} (acked : Acknowledged events id e₁ e)
    (event : Event) : Acknowledged (events ++ [event]) id e₁ e := by
  obtain ⟨⟨now, c, ran, known⟩, intent, dispatchedAt, state⟩ := acked
  exact ⟨⟨now, c, mem_append_left _ ran, known⟩, intent, dispatchedAt, state⟩

lemma Shield.concat (shield : Shield o id e₁ events c) (event : Event) :
    Shield o id e₁ (events ++ [event]) c := by
  cases shield with
  | entry known intent dispatchedAt => exact .entry known intent dispatchedAt
  | tomb buried acked expires => exact .tomb buried (acked.concat event) expires
  | released acked ran late =>
    exact .released (acked.concat event) (mem_append_left _ ran) late

/-- No record breaks a shield. -/
lemma Shield.apply (shield : Shield o id e₁ events c) (tidy : Tidy c)
    (dispatched : e₁.dispatchedAt ≠ 0) (admissible : Admissible c rec)
    (applied : c.apply rec = .ok c') : Shield o id e₁ events c' := by
  have effect := admissible.effect applied
  cases shield with
  | @entry e known intent dispatchedAt =>
    rcases effect.entry id with same | ⟨absent, -⟩ | ⟨e', e'', known', known'', advance⟩
    · exact .entry (same.trans known) intent dispatchedAt
    · cases absent.symm.trans known
    · cases known.symm.trans known'
      refine .entry known'' (advance.intent.trans intent) (Eq.trans ?_ dispatchedAt)
      exact advance.dispatchedAt (tidy.sound.entry id e known) (dispatchedAt ▸ dispatched)
  | tomb buried acked expires => exact .tomb (effect.tombs ▸ buried) acked expires
  | released acked ran late => exact .released acked ran late

/-- A compaction keeps the shield or releases the command. -/
lemma Shield.compacted {now : ℤ} (shield : Shield o id e₁ events c) (tidy : Tidy c)
    (ran : .published now c ∈ events) : Shield o id e₁ events (compacted o now c) := by
  cases shield with
  | @entry e known intent dispatchedAt =>
    have unburied := tidy.apart.tomb_none known
    have tombs : (compactTombs o now c)[id]? = tombstoneOf o now e := by
      rw [compactTombs_getElem?, known, unburied]
      simp
    by_cases state : e.state = .acked
    · have acked : Acknowledged events id e₁ e :=
        ⟨⟨now, c, ran, known⟩, intent, dispatchedAt, state⟩
      by_cases early : now < horizon o e
      · exact .tomb (tombs.trans (by rw [tombstoneOf, if_pos ⟨state, early⟩])) acked rfl
      · exact .released acked ran (Int.not_lt.mp early)
    · have kept : (Journal.compacted o now c).entries[id]? = some (settle e) := by
        rw [compacted_entries_getElem?, known, tombs]
        simp [tombstoneOf, state]
      exact .entry kept intent dispatchedAt
  | @tomb tomb e buried acked expires =>
    have unknown : c.entries[id]? = none := (tidy.apart id).resolve_right (by simp [buried])
    by_cases early : now < tomb.expiresAt
    · have kept : (compactTombs o now c)[id]? = some tomb := by
        rw [compactTombs_getElem?, unknown, buried]
        simp [early]
      exact .tomb kept acked expires
    · exact .released acked ran (expires ▸ Int.not_lt.mp early)
  | released acked ran late => exact .released acked ran late

lemma Shield.pending {l : Ledger} (shield : Shield o id e₁ events l.contents)
    (tidy : Tidy l.contents) (dispatched : e₁.dispatchedAt ≠ 0)
    (sourced : ∀ now, l.rewriting = some now → .published now l.contents ∈ events)
    (pending : Pending o l c) : Shield o id e₁ events c := by
  cases pending with
  | settled => exact shield
  | rewritten rewriting => exact shield.compacted tidy (sourced _ rewriting)
  | inFlight admissible applied => exact shield.apply tidy dispatched admissible applied

/-- **A dispatched command stays shielded**, through deaths and compactions.  The
induction carries along that a log being taken over was rewritten since. -/
lemma Lawful.shielded {before : List Event} (lawful : Lawful o T (before ++ events))
    (known : (ledger o before).contents.entries[id]? = some e₁) (dispatched : e₁.dispatchedAt ≠ 0)
    (settled : (ledger o before).rewriting = none) :
    Shield o id e₁ events (ledger o (before ++ events)).contents ∧
    ∀ now, (ledger o (before ++ events)).rewriting = some now →
      .published now (ledger o (before ++ events)).contents ∈ events := by
  induction events using List.reverseRecOn with
  | nil =>
    rw [append_nil, settled]
    exact ⟨.entry known rfl rfl, by simp⟩
  | append_singleton events event ih =>
    rw [← append_assoc, lawful_concat] at lawful
    obtain ⟨lawful, allowed⟩ := lawful
    obtain ⟨shield, sourced⟩ := ih lawful
    rw [← append_assoc, ledger_concat]
    cases event with
    | opened c =>
      exact ⟨(shield.pending lawful.tidy dispatched sourced allowed).concat _, by simp [Ledger.next]⟩
    | appended rec =>
      obtain ⟨c', applied, -⟩ := legal_apply allowed.1.legal
      simp only [Ledger.next, applied]
      exact ⟨(shield.apply lawful.tidy dispatched allowed.1 applied).concat _, by simp⟩
    | published now c =>
      obtain rfl : c = _ := allowed
      refine ⟨shield.concat _, ?_⟩
      rintro _ ⟨⟩
      exact mem_append_right _ (mem_singleton_self _)
    | compacted now =>
      exact ⟨(shield.compacted lawful.tidy (sourced now allowed)).concat _, by simp [Ledger.next]⟩
    | returned call reply =>
      exact ⟨shield.concat _, fun now rewriting => mem_append_left _ (sourced now rewriting)⟩

/-- A shield that lets a dispatch through was released. -/
lemma Shield.released_of_dispatch {t : ℤ} (shield : Shield o id e₁ events c) (tidy : Tidy c)
    (dispatched : e₁.dispatchedAt ≠ 0)
    (legal : Legal c { kind := .dispatched, id := id, at_ := t }) :
    ∃ e now c', Acknowledged events id e₁ e ∧ .published now c' ∈ events ∧ horizon o e ≤ now := by
  obtain ⟨e', known', state⟩ : ∃ e, c.entries[id]? = some e ∧ e.state = .intent := by
    cases legal with
    | dispatched t id known state => exact ⟨_, known, state⟩
  cases shield with
  | @entry e known intent dispatchedAt =>
    obtain rfl := Option.some.inj (known.symm.trans known')
    have undispatched := ((tidy.sound.entry id e known).of_state_intent state).2
    exact absurd (dispatchedAt.symm.trans undispatched) dispatched
  | tomb buried acked expires =>
    rw [tidy.apart.tomb_none known'] at buried
    cases buried
  | released acked ran late => exact ⟨_, _, _, acked, ran, late⟩

end Shield

end TechStack.Journal
