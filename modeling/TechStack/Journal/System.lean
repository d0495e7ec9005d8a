import TechStack.Journal.Effects

/-!
# The journal as a system

A journal directory over its whole life: it is opened, called and left, the
process that has it open may die in any system call, and the machine may lose
its power.  At most one store is open at a time, which is what the lock is for.

`CallPost` says what a call can do, as appends and compactions in the ways these
can end; `always_call` follows the operations through their branches once and for
all.  `Kept` says what has to be shown of an invariant: that it survives an append
and a compaction.  No invariant is ever checked against the operations one by one.
-/

namespace TechStack.Journal

open List Option Lib Io Std

/-- A journal directory, the store that has it open, and the history. -/
structure System where
  disk : Disk Name
  store : Option Store
  trace : List Event

/-- The steps of a journal's life. -/
inductive Label where
  | open_ (oracle : Oracle Site IoError)
  | call (call : Call) (oracle : Oracle Site IoError)
  /-- The process closes the store, or is killed between two calls. -/
  | exit
  | powerCut

namespace System

/-- Open the journal. -/
def openStore (codec : Codec) (opts : Options) (oracle : Oracle Site IoError) (s : System) :
    System :=
  let (store, w) := (openRoot codec opts).run oracle s.disk s.trace
  ⟨w.device, store, w.trace⟩

/-- Call the open store `st`. -/
def callStore (codec : Codec) (opts : Options) (c : Call) (oracle : Oracle Site IoError)
    (st : Store) (s : System) : System :=
  match (call codec opts.withDefaults st c).run oracle s.disk s.trace with
  | (some (reply, st'), w) => ⟨w.device, some st', w.trace ++ [.returned c reply]⟩
  | (none, w) => ⟨w.device, none, w.trace⟩

end System

/-- The steps. -/
inductive Step (codec : Codec) (opts : Options) : System → Label → System → Prop where
  | open_ {s : System} (oracle : Oracle Site IoError) (closed : s.store = none) :
      Step codec opts s (.open_ oracle) (s.openStore codec opts oracle)
  | call {s : System} {st : Store} (c : Call) (oracle : Oracle Site IoError)
      (isOpen : s.store = some st) :
      Step codec opts s (.call c oracle) (s.callStore codec opts c oracle st)
  | exit (s : System) : Step codec opts s .exit { s with store := none }
  | powerCut {s : System} {disk : Disk Name} (cut : Disk.PowerCut s.disk disk) :
      Step codec opts s .powerCut ⟨disk, none, s.trace⟩

/-- The life of a journal directory, from an empty one. -/
def journal (codec : Codec) (opts : Options) : Machine System Label where
  init s := s = ⟨Disk.empty, none, []⟩
  step := Step codec opts

variable {opts : Options}

namespace System

/-- The empty directory. -/
def start : System := ⟨Disk.empty, none, []⟩

/-- A step that has only one outcome, as a function. -/
def act (codec : Codec) (opts : Options) (s : System) : Label → Option System
  | .open_ oracle => if s.store.isNone then some (s.openStore codec opts oracle) else none
  | .call c oracle => s.store.map fun st => s.callStore codec opts c oracle st
  | .exit => some { s with store := none }
  | .powerCut => none

/-- The steps, one after the other. -/
def acts (codec : Codec) (opts : Options) (s : System) (labels : List Label) : Option System :=
  labels.foldlM (act codec opts) s

lemma step_of_act {codec : Codec} {s s' : System} {label : Label}
    (acted : s.act codec opts label = some s') : Step codec opts s label s' := by
  cases label with
  | open_ oracle =>
    simp only [act, ite_none_right_eq_some, isNone_iff_eq_none] at acted
    obtain ⟨closed, ⟨⟩⟩ := acted
    exact .open_ oracle closed
  | call c oracle =>
    simp only [act, map_eq_some_iff] at acted
    obtain ⟨st, isOpen, rfl⟩ := acted
    exact .call c oracle isOpen
  | exit =>
    cases acted
    exact .exit s
  | powerCut => cases acted

/-- Running labels reaches a state. -/
lemma reaches_of_acts {codec : Codec} {s : System} {labels : List Label}
    {admits : System → Label → Prop} (admitted : ∀ label ∈ labels, ∀ s, admits s label)
    (acted : start.acts codec opts labels = some s) : (journal codec opts).Reaches admits s := by
  have followed : Machine.follow (act codec opts) (fun _ _ => true) start labels = some s := acted
  exact .of_follow rfl (fun _ _ _ => step_of_act) (fun label mem s _ => admitted label mem s) followed

end System

/-! ### Guards -/

/-- What an operation has checked before it appends a record to a store with
contents `c`, having been called when they were `c₀`. -/
structure Guarded (c₀ c : Contents) (rec : Record) : Prop where
  legal : ∀ t, Legal c { rec with at_ := t }
  /-- A command is admitted only if it is neither known nor tombstoned. -/
  fresh : ∀ intent, rec.kind = .intent → rec.intent = some intent →
    c₀.entries[intent.commandID]? = none ∧ c.tombs[intent.commandID]? = none

variable {codec : Codec} {o : Options} {oracle : Oracle Site IoError} {disk : Disk Name}
  {trace : List Event} {s : Store} {c₀ c : Contents}

variable {rec : Record}

/-- Records other than intents need only be legal. -/
lemma Guarded.of_legal (legal : ∀ t, Legal c { rec with at_ := t }) (other : rec.kind ≠ .intent)
    : Guarded c₀ c rec :=
  ⟨legal, fun _ kind => absurd kind other⟩

variable {intent : Intent}

lemma commandID_ne_of_validIntent (valid : validIntent intent = true) :
    intent.commandID ≠ "" := by
  intro empty
  simp [validIntent, blank, empty] at valid

/-- The checks of `RecordResult` are those of the result chain. -/
lemma resultAllowed_of_resultError {e : EntryState} {r : ResultRecord}
    (known : ∀ text, r.state ≠ .other text) (passes : resultError e r = none) :
    ResultAllowed e r := by
  unfold resultError at passes
  split at passes
  · cases passes
  case isFalse numbered =>
    have number : r.revision = (e.results.length : ℤ) + 1 := not_not.mp numbered
    refine ⟨known, number, ?_⟩
    split at passes
    case isTrue first =>
      have empty : e.results = [] := length_eq_zero_iff.mp (by omega)
      simp only [EntryState.latest, empty, getLast?_nil]
      cases kind : r.state with
      | other text => exact absurd kind (known text)
      | terminal => simp_all
      | outcomeUnknown => simp_all
      | rejected => simp_all
      | resolved => simp_all
    case isFalse later =>
      cases last : e.latest with
      | none =>
        have empty : e.results = [] := getLast?_eq_none_iff.mp last
        simp [empty] at number
        exact absurd number later
      | some prior =>
        simp only [last] at passes
        split at passes
        · cases passes
        case isFalse fine =>
          simp only [Bool.or_eq_true, not_or, bne_iff_ne, ne_eq, not_not, beq_iff_eq,
            Bool.not_eq_true', Bool.not_eq_false] at fine
          exact ⟨fine.1.1, fine.1.2, fine.2⟩

/-! ### What a call can do -/

/-- The calls that end a journal, or a tenant's part of it. -/
def Call.Ends : Call → Prop
  | .decommission => True
  | .handOff _ => True
  | _ => False

instance : DecidablePred Call.Ends
  | .decommission => .isTrue trivial
  | .handOff _ => .isTrue trivial
  | .admit_ _ _ => .isFalse id
  | .markDispatched _ => .isFalse id
  | .recordExecutor _ _ => .isFalse id
  | .recordResult _ _ => .isFalse id
  | .ack _ _ _ => .isFalse id
  | .noteGeneration _ => .isFalse id
  | .compact => .isFalse id

/-- The record a call appends, but for its time. -/
def Call.record : Call → Option Record
  | .admit_ _ intent => some { kind := .intent, intent := some intent }
  | .markDispatched id => some { kind := .dispatched, id := id }
  | .recordExecutor id ref => some { kind := .executor, id := id, executor := some ref }
  | .recordResult id r => some { kind := .result, id := id, result := some r }
  | .ack id revision rejected =>
    some { kind := .ack, id := id, revision := revision, rejected := rejected }
  | .noteGeneration generation => some { kind := .gen, generation := generation }
  | _ => none

/-- The calls that have nothing to write, because the contents already hold what
they would record. -/
def Call.Held (contents : Contents) : Call → Prop
  | .admit_ _ intent => ∃ e, contents.entries[intent.commandID]? = some e
  | .ack id revision rejected =>
    rejected = false ∧ ∃ e, contents.entries[id]? = some e ∧ revision ≤ e.ackedRevision
  | .noteGeneration generation => generation ≤ contents.highGen
  | _ => False

/-- A call answers with the error of its last write. -/
def Reports : Option (Option Err × Store) → Option (Reply × Store) → Prop
  | none, none => True
  | some (err, s), some (reply, s') => s' = s ∧ reply.err = err
  | _, _ => False

/-- What a call that does not end the journal can do.  Only `Admit` and `Ack`
write twice: the one may compact before its record, the other after it. -/
inductive CallPost (codec : Codec) (o : Options) (oracle : Oracle Site IoError) (s : Store)
    (c : Call) (disk : Disk Name) (trace : List Event) :
    Option (Reply × Store) → Disk Name → List Event → Prop where
  /-- Nothing was written: the call was refused, or there was nothing to write. -/
  | idle (held : reply.err = none → c.Held s.contents) :
      CallPost codec o oracle s c disk trace (some (reply, s)) disk trace
  | append {rec : Record} {inner : Option (Option Err × Store)} (accepts : s.denied = none)
      (record : c.record = some rec) (guarded : Guarded s.contents s.contents rec)
      (post : AppendPost codec o oracle s rec disk trace inner disk' trace')
      (reports : Reports inner outer) : CallPost codec o oracle s c disk trace outer disk' trace'
  /-- `Compact`, or an `Admit` whose compaction failed. -/
  | compact {inner : Option (Option Err × Store)} (accepts : s.denied = none)
      (post : CompactPost codec o oracle s disk trace inner disk' trace')
      (stops : c.record ≠ none → ∀ s₁, inner ≠ some (none, s₁)) (reports : Reports inner outer) :
      CallPost codec o oracle s c disk trace outer disk' trace'
  /-- `Admit` compacted, but there is still no room. -/
  | full (accepts : s.denied = none) {intent : Intent} (admits : c = .admit_ free intent)
      (post : CompactPost codec o oracle s disk trace (some (none, s₁)) disk' trace')
      (err : reply.err ≠ none) :
      CallPost codec o oracle s c disk trace (some (reply, s₁)) disk' trace'
  /-- `Admit` compacted and then wrote its record. -/
  | compactAppend {inner : Option (Option Err × Store)} (accepts : s.denied = none)
      {intent : Intent} (admits : c = .admit_ free intent)
      (first : CompactPost codec o oracle s disk trace (some (none, s₁)) disk₁ trace₁)
      (guarded : Guarded s.contents s₁.contents { kind := .intent, intent := some intent })
      (post : AppendPost codec o oracle s₁ { kind := .intent, intent := some intent } disk₁ trace₁
        inner disk' trace')
      (reports : Reports inner outer) : CallPost codec o oracle s c disk trace outer disk' trace'
  /-- `Ack` wrote its record and then compacted, or failed to, which it ignores. -/
  | appendCompact {rec : Record} {inner : Option (Option Err × Store)} (accepts : s.denied = none)
      {id : String} (acks : c = .ack id revision rejected) (record : c.record = some rec)
      (guarded : Guarded s.contents s.contents rec)
      (first : AppendPost codec o oracle s rec disk trace (some (none, s₁)) disk₁ trace₁)
      (post : CompactPost codec o oracle s₁ disk₁ trace₁ inner disk' trace')
      (ignores : outer = inner.map fun r => ({}, r.2)) :
      CallPost codec o oracle s c disk trace outer disk' trace'

lemma appendLocked_of_denied {d : DeniedError} (denied : s.denied = some d) :
    appendLocked codec o s rec = pure (some (.denied d), s) := by
  unfold appendLocked
  rw [denied]

lemma compactLocked_of_denied {d : DeniedError} (denied : s.denied = some d) :
    compactLocked codec o s = pure (some (.denied d), s) := by
  unfold compactLocked
  rw [denied]

variable {s₁ : Store} {disk' : Disk Name} {trace' : List Event} {id : String} {free : Option ℕ}

section Calls

variable {call : Call}

/-- A refusal writes nothing. -/
lemma always_refuse {err : Err} :
    Always oracle (refuse s err) disk trace (CallPost codec o oracle s call disk trace) :=
  always_pure (.idle (by simp))

/-- What the writes of a call need of the store. -/
structure Writable (disk : Disk Name) (s : Store) : Prop where
  sound : s.denied = none → Sound s.contents
  size : s.denied = none → ∀ inode, s.file = some inode →
    s.size = (disk.files inode).data.length

lemma Guarded.applies (guarded : Guarded c₀ c rec) (t : ℤ) :
    ∃ contents, c.apply { rec with at_ := t } = .ok contents := by
  obtain ⟨contents, applied, -⟩ := legal_apply (guarded.legal t)
  exact ⟨contents, applied⟩

/-- A successful append leaves a sound store. -/
lemma AppendPost.ready (accepts : s.denied = none) (sound : Sound s.contents)
    (guarded : Guarded c₀ s.contents rec)
    (post : AppendPost codec o oracle s rec disk trace (some (none, s₁)) disk' trace') :
    s₁.denied = none ∧ Sound s₁.contents := by
  cases post with
  | done writes applied =>
    obtain ⟨contents, applied', effect⟩ := legal_apply (guarded.legal _)
    rw [writes.stamped, applied'] at applied
    cases applied
    exact ⟨accepts, sound.effect effect⟩

/-- A store that was just compacted is ready for the next write. -/
lemma CompactPost.ready (accepts : s.denied = none) (sound : Sound s.contents)
    (post : CompactPost codec o oracle s disk trace (some (none, s₁)) disk' trace') :
    s₁.denied = none ∧ Writable disk' s₁ := by
  cases post with
  | completed reads rewritten settled =>
    refine ⟨accepts, fun _ => ?_, ?_⟩
    · exact (grown_compactRecords sound o _).sound sound_empty
    · rintro - inode ⟨⟩
      simp [rewritten.file]

/-- An unknown command stays unknown when its `Admit` makes room. -/
lemma CompactPost.absent
    (post : CompactPost codec o oracle s disk trace (some (none, s₁)) disk' trace')
    (unknown : s.contents.entries[id]? = none) (unburied : s.contents.tombs[id]? = none) :
    s₁.contents.entries[id]? = none ∧ s₁.contents.tombs[id]? = none := by
  cases post with
  | completed reads rewritten settled => exact compacted_absent unknown unburied o _

/-- The record of an `Admit` that made room, if it had to. -/
lemma always_admitAppend {disk₁ : Disk Name} {trace₁ : List Event} (accepts : s₁.denied = none)
    (ready : Writable disk₁ s₁)
    (guarded : Guarded s.contents s₁.contents { kind := .intent, intent := some intent })
    (ends : ∀ {inner outer disk' trace'},
      AppendPost codec o oracle s₁ { kind := .intent, intent := some intent } disk₁ trace₁
        inner disk' trace' → Reports inner outer →
      CallPost codec o oracle s (.admit_ free intent) disk trace outer disk' trace') :
    Always oracle (do
      match ← appendLocked codec o s₁ { kind := .intent, intent := some intent } with
      | (some err, s) => refuse s err
      | (none, s) => pure ({ entry := s.contents.entries[intent.commandID]? }, s)) disk₁ trace₁
      (CallPost codec o oracle s (.admit_ free intent) disk trace) := by
  refine always_bind ((always_appendLocked accepts (ready.size accepts) guarded.applies).mono ?_)
  rintro (_ | ⟨_ | err, s'⟩) disk' trace' post
  · exact ends post trivial
  · exact always_pure (ends post ⟨rfl, rfl⟩)
  · exact always_pure (ends post ⟨rfl, rfl⟩)

variable (writable : Writable disk s)

include writable

lemma always_appendAnswer (record : call.record = some rec)
    (guarded : Guarded s.contents s.contents rec) :
    Always oracle (appendAnswer codec o s rec) disk trace
      (CallPost codec o oracle s call disk trace) := by
  unfold appendAnswer
  cases denied : s.denied with
  | some d =>
    rw [appendLocked_of_denied denied]
    exact always_bind (always_pure (always_pure (.idle (by simp))))
  | none =>
    refine always_bind ((always_appendLocked denied (writable.size denied) guarded.applies).mono ?_)
    rintro (_ | ⟨err, s'⟩) disk' trace' post
    · exact .append denied record guarded post trivial
    · exact always_pure (.append denied record guarded post ⟨rfl, rfl⟩)

lemma always_compact (record : call.record = none) :
    Always oracle (Journal.compact codec o s) disk trace
      (CallPost codec o oracle s call disk trace) := by
  unfold Journal.compact
  cases denied : s.denied with
  | some d =>
    rw [compactLocked_of_denied denied]
    exact always_bind (always_pure (always_pure (.idle (by simp))))
  | none =>
    refine always_bind ((always_compactLocked denied (writable.sound denied)).mono ?_)
    rintro (_ | ⟨err, s'⟩) disk' trace' post
    · exact .compact denied post (absurd record) trivial
    · exact always_pure (.compact denied post (absurd record) ⟨rfl, rfl⟩)

/-- `reserveLocked` leaves the store alone, fails to compact it, or compacts it. -/
lemma always_reserveLocked (accepts : s.denied = none) :
    Always oracle (reserveLocked codec o free s) disk trace fun result disk' trace' =>
      (∃ err, result = some (err, s) ∧ disk' = disk ∧ trace' = trace) ∨
      ∃ inner, CompactPost codec o oracle s disk trace inner disk' trace' ∧
        ((∀ s₁, inner ≠ some (none, s₁)) ∧ result = inner ∨
          ∃ s₁ err, inner = some (none, s₁) ∧ result = some (err, s₁)) := by
  unfold reserveLocked
  split
  case isFalse => exact always_pure (.inl ⟨_, rfl, rfl, rfl⟩)
  case isTrue =>
    refine always_bind ((always_compactLocked accepts (writable.sound accepts)).mono ?_)
    rintro (_ | ⟨_ | err, s₁⟩) disk' trace' post
    · exact .inr ⟨none, post, .inl ⟨by simp, rfl⟩⟩
    · simp only
      split
      · exact always_pure (.inr ⟨_, post, .inr ⟨s₁, _, rfl, rfl⟩⟩)
      · exact always_pure (.inr ⟨_, post, .inr ⟨s₁, _, rfl, rfl⟩⟩)
    · exact always_pure (.inr ⟨_, post, .inl ⟨by simp, rfl⟩⟩)

lemma always_admitNew (accepts : s.denied = none) (named : intent.commandID ≠ "")
    (unknown : s.contents.entries[intent.commandID]? = none)
    (unburied : s.contents.tombs[intent.commandID]? = none) :
    Always oracle (admitNew codec o s free intent) disk trace
      (CallPost codec o oracle s (.admit_ free intent) disk trace) := by
  have guard : ∀ {c}, c.entries[intent.commandID]? = none → c.tombs[intent.commandID]? = none →
      Guarded s.contents c { kind := .intent, intent := some intent } := by
    intro c absent clear
    refine ⟨fun t => .intent t intent named absent, ?_⟩
    rintro other - ⟨⟩
    exact ⟨unknown, clear⟩
  unfold admitNew
  refine always_bind ((always_reserveLocked writable accepts).mono ?_)
  rintro result disk' trace' (⟨err, rfl, rfl, rfl⟩ | ⟨inner, post, ⟨stopped, rfl⟩ | ⟨s₁, err, rfl, rfl⟩⟩)
  · cases err with
    | some err => exact always_refuse
    | none =>
      exact always_admitAppend accepts writable (guard unknown unburied)
        fun post reports => .append accepts rfl (guard unknown unburied) post reports
  · match result, post, stopped with
    | none, post, stopped => exact .compact accepts post (fun _ => stopped) trivial
    | some (some err, s'), post, stopped =>
      exact always_pure (.compact accepts post (fun _ => stopped) ⟨rfl, rfl⟩)
    | some (none, s'), post, stopped => exact absurd rfl (stopped s')
  · cases err with
    | some err => exact always_pure (.full accepts rfl post (by simp))
    | none =>
      obtain ⟨accepts₁, ready⟩ := post.ready accepts (writable.sound accepts)
      obtain ⟨absent, clear⟩ := post.absent unknown unburied
      exact always_admitAppend accepts₁ ready (guard absent clear)
        fun last reports => .compactAppend accepts rfl post (guard absent clear) last reports

lemma always_admit : Always oracle (admit_ codec o s free intent) disk trace
      (CallPost codec o oracle s (.admit_ free intent) disk trace) := by
  unfold admit_
  split
  · exact always_refuse
  case isFalse valid =>
    cases buried : s.contents.tombs[intent.commandID]? with
    | some tomb =>
      simp only
      split <;> exact always_refuse
    | none =>
      cases known : s.contents.entries[intent.commandID]? with
      | some e =>
        simp only
        split
        · exact always_refuse
        · exact always_pure (.idle fun _ => ⟨e, known⟩)
      | none =>
        cases denied : s.denied with
        | some d => exact always_refuse
        | none =>
          simp only
          split
          · exact always_refuse
          · exact always_admitNew writable denied
              (commandID_ne_of_validIntent (by simpa using valid)) known buried

lemma always_ack {revision : ℤ} {rejected : Bool} :
    Always oracle (ack codec o s id revision rejected) disk trace
      (CallPost codec o oracle s (.ack id revision rejected) disk trace) := by
  unfold ack
  cases known : s.contents.entries[id]? with
  | none => exact always_refuse
  | some e =>
    simp only
    split
    · exact always_refuse
    case isFalse range =>
      split
      case isTrue before => exact always_pure (.idle fun _ => ⟨before.2, e, known, before.1⟩)
      case isFalse =>
        have guarded : Guarded s.contents s.contents
            { kind := .ack, id := id, revision := revision, rejected := rejected } :=
          .of_legal (fun t => .ack t id revision rejected known (by omega) (by omega)) (by simp)
        cases denied : s.denied with
        | some d =>
          rw [appendLocked_of_denied denied]
          exact always_bind (always_pure always_refuse)
        | none =>
          refine always_bind
            ((always_appendLocked denied (writable.size denied) guarded.applies).mono ?_)
          rintro (_ | ⟨_ | err, s'⟩) disk' trace' post
          · exact .append denied rfl guarded post trivial
          · simp only
            split
            · have ready := post.ready denied (writable.sound denied) guarded
              refine always_bind ((always_compactLocked ready.1 ready.2).mono ?_)
              rintro (_ | ⟨err, s''⟩) disk'' trace'' final
              · exact .appendCompact denied rfl rfl guarded post final rfl
              · exact always_pure (.appendCompact denied rfl rfl guarded post final rfl)
            · exact always_pure (.append denied rfl guarded post ⟨rfl, rfl⟩)
          · exact always_pure (.append denied rfl guarded post ⟨rfl, rfl⟩)

lemma always_markDispatched : Always oracle (markDispatched codec o s id) disk trace
      (CallPost codec o oracle s (.markDispatched id) disk trace) := by
  unfold markDispatched
  cases known : s.contents.entries[id]? with
  | none => exact always_refuse
  | some e =>
    simp only
    split
    · exact always_refuse
    case isFalse state =>
      exact always_appendAnswer writable rfl
        (.of_legal (fun t => .dispatched t id known (not_not.mp state)) (by simp))

lemma always_recordExecutor {ref : ExecutorRef} :
    Always oracle (recordExecutor codec o s id ref) disk trace
      (CallPost codec o oracle s (.recordExecutor id ref) disk trace) := by
  unfold recordExecutor
  cases known : s.contents.entries[id]? with
  | none => exact always_refuse
  | some e =>
    simp only
    split
    · exact always_refuse
    case isFalse state =>
      exact always_appendAnswer writable rfl
        (.of_legal (fun t => .executor t id ref known (not_not.mp state)) (by simp))

lemma always_recordResult {r : ResultRecord} :
    Always oracle (recordResult codec o s id r) disk trace
      (CallPost codec o oracle s (.recordResult id r) disk trace) := by
  unfold recordResult
  split
  · exact always_refuse
  case h_2 known =>
    split
    · exact always_refuse
    · split
      · exact always_refuse
      · cases found : s.contents.entries[id]? with
        | none => exact always_refuse
        | some e =>
          simp only
          cases passes : resultError e r with
          | some detail => exact always_refuse
          | none =>
            have allowed := resultAllowed_of_resultError (fun text => known text) passes
            exact always_appendAnswer writable rfl
              (.of_legal (fun t => .result t id r found allowed) (by simp))

lemma always_noteGeneration {generation : ℤ} :
    Always oracle (noteGeneration codec o s generation) disk trace
      (CallPost codec o oracle s (.noteGeneration generation) disk trace) := by
  unfold noteGeneration
  split
  case isTrue seen => exact always_pure (.idle fun _ => seen)
  case isFalse =>
    exact always_appendAnswer writable rfl (.of_legal (fun t => .gen t generation) (by simp))

/-- **What a call can do**, unless it ends the journal. -/
lemma always_call (lasts : ¬ call.Ends) : Always oracle (Journal.call codec o s call) disk trace
      (CallPost codec o oracle s call disk trace) := by
  cases call with
  | admit_ free intent => exact always_admit writable
  | markDispatched id => exact always_markDispatched writable
  | recordExecutor id ref => exact always_recordExecutor writable
  | recordResult id r => exact always_recordResult writable
  | ack id revision rejected => exact always_ack writable
  | noteGeneration generation => exact always_noteGeneration writable
  | compact => exact always_compact writable rfl
  | decommission => exact absurd trivial lasts
  | handOff tenantID => exact absurd trivial lasts

lemma callPost_of_run (lasts : ¬ call.Ends) {result : Option (Reply × Store)}
    {w : World (Disk Name) Site Event}
    (ran : (Journal.call codec o s call).run oracle disk trace = (result, w)) :
    CallPost codec o oracle s call disk trace result w.device w.trace := by
  have post : Always oracle (Journal.call codec o s call) disk trace _ :=
    always_call writable lasts
  have after := post.run
  rw [ran] at after
  exact after

end Calls

/-! ### Invariants of the operations -/

/-- What a program leaves of the store: nothing, if it died. -/
def left {α : Type} (result : Option (α × Store)) : Option Store := result.map Prod.snd

lemma Reports.left_eq {inner : Option (Option Err × Store)} {outer : Option (Reply × Store)}
    (reports : Reports inner outer) : left outer = left inner := by
  rcases inner with _ | ⟨err, s⟩ <;> rcases outer with _ | ⟨reply, s'⟩
  · rfl
  · cases reports
  · cases reports
  · obtain ⟨rfl, -⟩ := reports
    rfl

/-- An invariant that survives appends and compactions, however they end. -/
structure Kept (codec : Codec) (o : Options) (oracle : Oracle Site IoError) (c₀ : Contents)
    (Inv : Disk Name → List Event → Option Store → Prop) : Prop where
  writable : ∀ {disk trace s}, Inv disk trace (some s) → Writable disk s
  append : ∀ {disk trace s rec result disk' trace'}, Inv disk trace (some s) →
    s.denied = none → Guarded c₀ s.contents rec →
    AppendPost codec o oracle s rec disk trace result disk' trace' →
    Inv disk' trace' (left result)
  compaction : ∀ {disk trace s result disk' trace'}, Inv disk trace (some s) →
    s.denied = none → CompactPost codec o oracle s disk trace result disk' trace' →
    Inv disk' trace' (left result)

/-- **An invariant of appends and compactions is an invariant of every call**
that does not end the journal. -/
lemma Kept.of_callPost {Inv : Disk Name → List Event → Option Store → Prop}
    (kept : Kept codec o oracle s.contents Inv) {call : Call} {result : Option (Reply × Store)}
    (inv : Inv disk trace (some s))
    (post : CallPost codec o oracle s call disk trace result disk' trace') :
    Inv disk' trace' (left result) := by
  cases post with
  | idle => exact inv
  | append accepts record guarded post reports =>
    exact reports.left_eq ▸ kept.append inv accepts guarded post
  | compact accepts post stops reports => exact reports.left_eq ▸ kept.compaction inv accepts post
  | full accepts admits post err => exact kept.compaction inv accepts post
  | compactAppend accepts admits first guarded post reports =>
    have middle := kept.compaction inv accepts first
    obtain ⟨accepts₁, -⟩ := first.ready accepts ((kept.writable inv).sound accepts)
    exact reports.left_eq ▸ kept.append middle accepts₁ guarded post
  | appendCompact accepts acks record guarded first post ignores =>
    have middle := kept.append inv accepts guarded first
    obtain ⟨accepts₁, -⟩ := first.ready accepts ((kept.writable inv).sound accepts) guarded
    have final := kept.compaction middle accepts₁ post
    rw [ignores]
    simpa only [left, Option.map_map, Function.comp_def] using final

lemma Kept.call {Inv : Disk Name → List Event → Option Store → Prop}
    (kept : Kept codec o oracle s.contents Inv) {c : Call} (lasts : ¬ c.Ends)
    (inv : Inv disk trace (some s)) :
    Always oracle (Journal.call codec o s c) disk trace
      fun result disk' trace' => Inv disk' trace' (left result) :=
  (always_call (kept.writable inv) lasts).mono fun _ _ _ post => kept.of_callPost inv post

/-- An invariant that survives the end of a journal too. -/
structure KeptToEnd (codec : Codec) (o : Options) (oracle : Oracle Site IoError) (c₀ : Contents)
    (Inv : Disk Name → List Event → Option Store → Prop) : Prop
    extends Kept codec o oracle c₀ Inv where
  dies : ∀ {disk trace s}, Inv disk trace (some s) → Inv disk trace none
  named : ∀ {disk trace s inode}, Inv disk trace (some s) →
    disk.dir .journalLog = some inode → inode < disk.next
  prune : ∀ {disk trace s} (keep : String → EntryState → Bool), Inv disk trace (some s) →
    s.denied = none → Inv disk trace (some (s.prune keep))
  destroy : ∀ {disk trace s result disk' trace'}, Inv disk trace (some s) → s.denied = none →
    DestroyPost oracle s disk trace result disk' trace' → Inv disk' trace' (left result)
  /-- Overwriting a file that is neither named nor open. -/
  wipe : ∀ {disk trace s inode disk' trace'}, Inv disk trace (some s) →
    some inode ∉ disk.durableDir .journalLog → s.file ≠ some inode →
    WipePost disk trace inode disk' trace' → Inv disk' trace' (some s) ∧ Inv disk' trace' none

namespace KeptToEnd

variable {Inv : Disk Name → List Event → Option Store → Prop}
  (kept : KeptToEnd codec o oracle c₀ Inv)

include kept

lemma decommission (inv : Inv disk trace (some s)) :
    Always oracle (Journal.decommission codec o s) disk trace
      fun result disk' trace' => Inv disk' trace' (left result) := by
  unfold Journal.decommission
  cases denied : s.denied with
  | some d => exact always_pure inv
  | none =>
    have pruned := kept.prune (fun _ e => e.state != .acked) inv denied
    simp only
    split
    · cases handle : (s.prune fun _ e => e.state != .acked).file with
      | none => exact always_pure pruned
      | some inode =>
        have accepts : (s.prune fun _ e => e.state != .acked).denied = none := denied
        have sound := (kept.writable pruned).sound accepts
        refine always_bind ((always_compactLocked accepts sound).mono ?_)
        rintro (_ | ⟨err, s'⟩) disk' trace' post
        · exact kept.compaction pruned denied post
        · exact always_pure (kept.compaction pruned denied post)
    · refine always_bind (always_destroyLogLocked.mono ?_)
      rintro (_ | ⟨err, s'⟩) disk' trace' post
      · exact kept.destroy pruned denied post
      · exact always_pure (kept.destroy pruned denied post)

lemma rewriteAndWipe {removed : ℕ} (inv : Inv disk trace (some s)) (accepts : s.denied = none) :
    Always oracle (Journal.rewriteAndWipe codec o s removed) disk trace
      fun result disk' trace' => Inv disk' trace' (left result) := by
  unfold Journal.rewriteAndWipe
  refine always_bind (always_look ?_)
  cases named : disk.dir .journalLog with
  | none =>
    simp only [named]
    exact always_pure inv
  | some old =>
    simp only [named]
    refine always_bind (Disk.always_access ?_ ?_ ?_)
    · refine always_bind (Disk.always_access ?_ ?_ ?_)
      · refine always_bind ((always_compactLocked accepts ((kept.writable inv).sound accepts)).mono ?_)
        intro result disk' trace' post
        have after := kept.compaction inv accepts post
        cases post with
        | unpublished err same => exact always_pure after
        | interrupted same => exact after
        | died reads rewritten => exact after
        | unsynced cause reads fails rewritten => exact always_pure after
        | completed reads rewritten settled =>
          -- The old file lost its name for good, so nothing refers to it.
          have older : old ≠ disk.next := Nat.ne_of_lt (kept.named inv named)
          refine always_bind (always_zeroFile.mono ?_)
          intro cause disk'' trace'' wiped
          obtain ⟨alive, dead⟩ := kept.wipe after (by rw [settled]; simpa using older)
            (by simpa using older.symm) wiped
          cases cause with
          | none => exact dead
          | some cause => exact always_pure alive
      · exact fun _ _ => always_pure inv
      · exact fun _ => kept.dies inv
    · exact fun _ _ => always_pure inv
    · exact fun _ => kept.dies inv

lemma handOff {tenantID : String} (inv : Inv disk trace (some s)) :
    Always oracle (Journal.handOff codec o s tenantID) disk trace
      fun result disk' trace' => Inv disk' trace' (left result) := by
  unfold Journal.handOff
  cases denied : s.denied with
  | some d => exact always_pure inv
  | none =>
    simp only
    split
    · exact always_pure inv
    · have pruned := kept.prune (fun _ e => e.intent.tenantID != tenantID) inv denied
      split
      · refine always_bind (always_destroyLogLocked.mono ?_)
        rintro (_ | ⟨err, s'⟩) disk' trace' post
        · exact kept.destroy pruned denied post
        · exact always_pure (kept.destroy pruned denied post)
      · cases handle : (s.prune fun _ e => e.intent.tenantID != tenantID).file with
        | none => exact always_pure pruned
        | some inode => exact kept.rewriteAndWipe pruned denied

end KeptToEnd

/-- **An invariant that survives the end of a journal is an invariant of every
call.** -/
lemma KeptToEnd.call {Inv : Disk Name → List Event → Option Store → Prop}
    (kept : KeptToEnd codec o oracle s.contents Inv) {c : Call} (inv : Inv disk trace (some s)) :
    Always oracle (call codec o s c) disk trace
      fun result disk' trace' => Inv disk' trace' (left result) := by
  cases c with
  | decommission => exact kept.decommission inv
  | handOff tenantID => exact kept.handOff inv
  | admit_ | markDispatched | recordExecutor | recordResult | ack | noteGeneration | compact =>
    exact kept.toKept.call (by simp [Call.Ends]) inv

/-- What opening the journal leaves. -/
lemma openStore_post (codec : Codec) (opts : Options) (oracle : Oracle Site IoError)
    (sys : System) :
    LoadPost codec opts.withDefaults oracle sys.disk sys.trace
      (sys.openStore codec opts oracle).store (sys.openStore codec opts oracle).disk
      (sys.openStore codec opts oracle).trace :=
  (always_load oracle sys.disk sys.trace).run

/-- What a call step of the system leaves. -/
lemma callStore_of_always {c : Call} {sys : System}
    (Inv : Disk Name → List Event → Option Store → Prop)
    (holds : Always oracle (call codec opts.withDefaults s c) sys.disk sys.trace
      fun result disk' trace' => match result with
        | some (reply, s') => Inv disk' (trace' ++ [.returned c reply]) (some s')
        | none => Inv disk' trace' none) :
    Inv (sys.callStore codec opts c oracle s).disk (sys.callStore codec opts c oracle s).trace
      (sys.callStore codec opts c oracle s).store := by
  have ran := holds.run
  unfold System.callStore
  rcases result : (Journal.call codec opts.withDefaults s c).run oracle sys.disk sys.trace with
    ⟨_ | ⟨reply, s'⟩, w⟩
  · simpa [result] using ran
  · simpa [result] using ran

end TechStack.Journal
