import TechStack.Journal.Contents

/-!
# The result chain of an entry

Two notions carry everything that is proved about single entries.

* `Legal c rec` — the guard under which an operation of the store appends `rec`
  to a journal that holds `c`.  It looks at the entry of one command only.
* `EntryGood id e` — the result chain: revisions are numbered from one, all but
  the last are open, each refers to its predecessor, a rejection stands alone on
  a command that was never dispatched, and so on.

`legal_apply` says that a legal record is never refused and gives its effect;
`Sound.apply` that it keeps every entry good.  Replay validates less than the
operations do, so nothing of this holds of arbitrary records: the chain is a
property of logs whose records were legal when they were appended.
-/

namespace TechStack.Journal

open List Lib Std Contents EntryState

/-- The result chain of one entry. -/
structure EntryGood (id : String) (e : EntryState) : Prop where
  key : e.intent.commandID = id
  named : id ≠ ""
  /-- The state is the one `recompute` derives. -/
  state : e.state = e.derivedState
  revisions : ∀ (i : ℕ) r, e.results[i]? = some r → r.revision = (i : ℤ) + 1
  known : ∀ r ∈ e.results, ∀ text, r.state ≠ .other text
  /-- Every result except the last leaves the outcome open. -/
  opens : ∀ (i : ℕ) r, e.results[i]? = some r → i + 1 < e.results.length → r.open_ = true
  links : ∀ (i : ℕ) r r', e.results[i]? = some r → e.results[i + 1]? = some r' →
    r'.priorDigest = r.digest
  /-- A rejection is the only revision of a command never dispatched. -/
  rejectedAlone : ∀ r ∈ e.results, r.state = .rejected →
    e.results.length = 1 ∧ e.dispatchedAt = 0
  /-- The first revision is terminal, unknown or a rejection. -/
  first : ∀ r, e.results[0]? = some r →
    r.state = .terminal ∨ r.state = .outcomeUnknown ∨ r.state = .rejected
  firstDispatched : ∀ r, e.results[0]? = some r → r.state ≠ .rejected → e.dispatchedAt ≠ 0
  acked_nonneg : 0 ≤ e.ackedRevision
  acked_le : e.ackedRevision ≤ (e.results.length : ℤ)
  executor : e.executor ≠ none → e.dispatchedAt ≠ 0
  rejectedAcked : e.rejected = true → 1 ≤ e.ackedRevision
  unacked : e.ackedRevision = 0 → e.ackedAt = 0

/-- The checks `RecordResult` makes on a new revision of an entry. -/
def ResultAllowed (e : EntryState) (r : ResultRecord) : Prop :=
  (∀ text, r.state ≠ .other text) ∧ r.revision = (e.results.length : ℤ) + 1 ∧
    match e.latest with
    | none => r.state ≠ .resolved ∧ (r.state = .rejected → e.state = .intent) ∧
        (r.state ≠ .rejected → e.state = .dispatched)
    | some prior => prior.open_ = true ∧ r.state ≠ .rejected ∧ r.priorDigest = prior.digest

/-- The guard under which an operation appends a record to a journal. -/
inductive Legal (c : Contents) : Record → Prop where
  | gen (t : ℤ) (generation : ℤ) :
      Legal c { kind := .gen, at_ := t, generation := generation }
  | intent (t : ℤ) (intent : Intent) (named : intent.commandID ≠ "")
      (absent : c.entries[intent.commandID]? = none) :
      Legal c { kind := .intent, at_ := t, intent := some intent }
  | dispatched (t : ℤ) (id : String) (known : c.entries[id]? = some e) (state : e.state = .intent) :
      Legal c { kind := .dispatched, id := id, at_ := t }
  | executor (t : ℤ) (id : String) (ref : ExecutorRef) (known : c.entries[id]? = some e)
      (state : e.state = .dispatched) :
      Legal c { kind := .executor, id := id, at_ := t, executor := some ref }
  | result (t : ℤ) (id : String) (r : ResultRecord) (known : c.entries[id]? = some e)
      (allowed : ResultAllowed e r) :
      Legal c { kind := .result, id := id, at_ := t, result := some r }
  | ack (t : ℤ) (id : String) (revision : ℤ) (rejected : Bool) (known : c.entries[id]? = some e)
      (low : 1 ≤ revision) (high : revision ≤ (e.results.length : ℤ)) :
      Legal c { kind := .ack, id := id, at_ := t, revision := revision, rejected := rejected }

/-- What a legal record does to the contents. -/
inductive Effect (c : Contents) : Record → Contents → Prop where
  | gen (t : ℤ) (generation : ℤ) :
      Effect c { kind := .gen, at_ := t, generation := generation }
        (c.noteGeneration generation)
  | intent (t : ℤ) (intent : Intent) (named : intent.commandID ≠ "")
      (absent : c.entries[intent.commandID]? = none) :
      Effect c { kind := .intent, at_ := t, intent := some intent }
        ((c.setEntry intent.commandID
          (EntryState.ofIntent intent t).recompute).noteGeneration intent.generation)
  | dispatched (t : ℤ) (id : String) (known : c.entries[id]? = some e) (state : e.state = .intent) :
      Effect c { kind := .dispatched, id := id, at_ := t } (c.setEntry id (e.dispatch t))
  | executor (t : ℤ) (id : String) (ref : ExecutorRef) (known : c.entries[id]? = some e)
      (state : e.state = .dispatched) :
      Effect c { kind := .executor, id := id, at_ := t, executor := some ref }
        (c.setEntry id (e.setExecutor ref))
  | result (t : ℤ) (id : String) (r : ResultRecord) (known : c.entries[id]? = some e)
      (allowed : ResultAllowed e r) :
      Effect c { kind := .result, id := id, at_ := t, result := some r }
        (c.setEntry id (e.addResult r))
  | ack (t : ℤ) (id : String) (revision : ℤ) (rejected : Bool) (known : c.entries[id]? = some e)
      (low : 1 ≤ revision) (high : revision ≤ (e.results.length : ℤ)) :
      Effect c { kind := .ack, id := id, at_ := t, revision := revision, rejected := rejected }
        (c.setEntry id (e.acknowledge t revision rejected))

/-- **A legal record is applied, with the effect its kind says.** -/
lemma legal_apply {c : Contents} {rec : Record} (legal : Legal c rec) :
    ∃ c', c.apply rec = .ok c' ∧ Effect c rec c' := by
  cases legal with
  | gen t generation => exact ⟨_, rfl, .gen t generation⟩
  | intent t intent named absent =>
    exact ⟨_, by simp [apply, named, absent], .intent t intent named absent⟩
  | dispatched t id known state =>
    exact ⟨_, by simp [apply, known], .dispatched t id known state⟩
  | executor t id ref known state =>
    exact ⟨_, by simp [apply, known], .executor t id ref known state⟩
  | result t id r known allowed =>
    exact ⟨_, by simp [apply, known, allowed.2.1], .result t id r known allowed⟩
  | ack t id revision rejected known low high =>
    refine ⟨_, ?_, .ack t id revision rejected known low high⟩
    simp [apply, known, Int.not_lt.mpr low, Int.not_lt.mpr high]

/-! ### The chain is kept by every legal record -/

section Chain

variable {id : String} {e : EntryState}

/-- A fresh intent is a good entry. -/
lemma entryGood_ofIntent (intent : Intent) (t : ℤ) (named : intent.commandID ≠ "") :
    EntryGood intent.commandID (ofIntent intent t).recompute := by
  refine ⟨rfl, named, rfl, ?_, ?_, ?_, ?_, ?_, ?_, ?_, ?_, ?_, ?_, ?_, fun _ => rfl⟩
  all_goals simp [ofIntent, EntryState.recompute]

section

variable (good : EntryGood id e)
include good

/-- An entry in state `intent` or `dispatched` has no result, and a dispatch time if it is the
latter. -/
lemma EntryGood.of_unanswered (state : e.state = .intent ∨ e.state = .dispatched) :
    e.results = [] ∧ (e.dispatchedAt = 0 ↔ e.state = .intent) := by
  rw [good.state] at state ⊢
  unfold derivedState latest at state ⊢
  cases last : e.results.getLast? with
  | some r =>
    simp only [last] at state
    split at state <;> [skip; split at state] <;> simp at state
  | none =>
    refine ⟨List.getLast?_eq_none_iff.mp last, ?_⟩
    by_cases dispatched : e.dispatchedAt = 0 <;> simp [isZero, dispatched]

lemma EntryGood.of_state_intent (state : e.state = .intent) :
    e.results = [] ∧ e.dispatchedAt = 0 :=
  (good.of_unanswered (.inl state)).imp_right fun iff => iff.mpr state

lemma EntryGood.of_state_dispatched (state : e.state = .dispatched) :
    e.results = [] ∧ e.dispatchedAt ≠ 0 :=
  (good.of_unanswered (.inr state)).imp_right fun iff zero => by cases state.symm.trans (iff.mp zero)

lemma EntryGood.dispatch (state : e.state = .intent) (t : ℤ) :
    EntryGood id (e.dispatch t) := by
  obtain ⟨empty, -⟩ := good.of_state_intent state
  have noExecutor : e.executor = none := by
    by_contra present
    exact good.executor present (good.of_state_intent state).2
  refine { good with
    state := rfl, revisions := ?_, known := ?_, opens := ?_, links := ?_, rejectedAlone := ?_
    first := ?_, firstDispatched := ?_, executor := ?_ }
  all_goals simp [EntryState.dispatch, EntryState.recompute, empty, noExecutor]

lemma EntryGood.setExecutor (state : e.state = .dispatched) (ref : ExecutorRef)
    : EntryGood id (e.setExecutor ref) := { good with
  executor := fun _ => (good.of_state_dispatched state).2 }

lemma EntryGood.acknowledge {revision : ℤ} (low : 1 ≤ revision)
    (high : revision ≤ (e.results.length : ℤ)) (t : ℤ) (rejected : Bool) :
    EntryGood id (e.acknowledge t revision rejected) where
  key := by simpa using good.key
  named := good.named
  state := e.acknowledge_state t revision rejected
  revisions := by simpa using good.revisions
  known := by simpa using good.known
  opens := by simpa using good.opens
  links := by simpa using good.links
  rejectedAlone := by simpa using good.rejectedAlone
  first := by simpa using good.first
  firstDispatched := by simpa using good.firstDispatched
  acked_nonneg := by
    have := good.acked_nonneg
    simp only [acknowledge_ackedRevision]
    omega
  acked_le := by
    have := good.acked_le
    simp only [acknowledge_ackedRevision, acknowledge_results]
    omega
  executor := by simpa using good.executor
  rejectedAcked := by
    simp only [acknowledge_ackedRevision]
    omega
  unacked := by
    simp only [acknowledge_ackedRevision]
    omega

end

@[simp] lemma addResult_results (e : EntryState) (r : ResultRecord) :
    (e.addResult r).results = e.results ++ [r] := rfl

/-- The first revision of a command. -/
lemma EntryGood.addFirst (good : EntryGood id e) {r : ResultRecord}
    (allowed : ResultAllowed e r) (empty : e.results = []) :
    EntryGood id (e.addResult r) := by
  obtain ⟨known, number, first⟩ := allowed
  simp only [latest, empty, getLast?_nil] at first
  obtain ⟨notResolved, ofRejected, ofOther⟩ := first
  have only : (e.addResult r).results = [r] := by simp [empty]
  exact { good with
    state := rfl
    revisions := by
      intro i r' found
      rw [only] at found
      cases i with
      | zero =>
        obtain rfl : r = r' := by simpa using found
        simpa [empty] using number
      | succ i => simp at found
    known := by
      intro r' mem
      rw [only, mem_singleton] at mem
      exact mem ▸ known
    opens := by simp [empty]
    links := by
      intro i r₁ r₂ _ found
      rw [only] at found
      simp at found
    rejectedAlone := by
      intro r' mem isRejected
      rw [only, mem_singleton] at mem
      subst mem
      exact ⟨by simp [empty], (good.of_state_intent (ofRejected isRejected)).2⟩
    first := by
      intro r' found
      rw [only] at found
      obtain rfl : r = r' := by simpa using found
      cases kind : r.state with
      | terminal => exact Or.inl rfl
      | outcomeUnknown => exact Or.inr (Or.inl rfl)
      | rejected => exact Or.inr (Or.inr rfl)
      | resolved => exact absurd kind notResolved
      | other text => exact absurd kind (known text)
    firstDispatched := by
      intro r' found notRejected
      rw [only] at found
      obtain rfl : r = r' := by simpa using found
      exact (good.of_state_dispatched (ofOther notRejected)).2
    acked_le := by
      have := good.acked_le
      rw [addResult_results, List.length_append]
      push_cast
      exact this.trans (by simp) }

/-- A later revision supersedes an open one. -/
lemma EntryGood.addLater (good : EntryGood id e) {r prior : ResultRecord}
    {older : List ResultRecord} (allowed : ResultAllowed e r)
    (last : e.results = older ++ [prior]) : EntryGood id (e.addResult r) := by
  obtain ⟨known, number, later⟩ := allowed
  simp only [latest, last, getLast?_concat] at later
  obtain ⟨priorOpen, notRejected, link⟩ := later
  have lengthPos : 0 < e.results.length := by simp [last]
  -- An old position of the extended chain holds what it held before.
  have old : ∀ i, i < e.results.length → (e.addResult r).results[i]? = e.results[i]? := by
    intro i inside
    rw [addResult_results, getElem?_append_left inside]
  have atPrior : e.results[e.results.length - 1]? = some prior := by simp [last]
  have atNew : (e.addResult r).results[e.results.length]? = some r := by simp
  have priorLast : ∀ i r', e.results[i]? = some r' → ¬ i + 1 < e.results.length → r' = prior := by
    intro i r' found notBefore
    obtain ⟨inside, -⟩ := List.getElem?_eq_some_iff.mp found
    obtain rfl : i = e.results.length - 1 := by omega
    rw [atPrior] at found
    exact (Option.some.inj found).symm
  exact { good with
    state := rfl
    revisions := by
      intro i r' found
      rcases Nat.lt_trichotomy i e.results.length with inside | rfl | beyond
      · exact good.revisions i r' (old i inside ▸ found)
      · cases atNew.symm.trans found
        exact number
      · rw [getElem?_eq_none (by simp; omega)] at found
        cases found
    known := by
      intro r' mem
      rw [addResult_results, mem_append, mem_singleton] at mem
      rcases mem with earlier | rfl
      · exact good.known r' earlier
      · exact known
    opens := by
      intro i r' found before
      rw [addResult_results, List.length_append, List.length_singleton] at before
      rw [old i (by omega)] at found
      by_cases early : i + 1 < e.results.length
      · exact good.opens i r' found early
      · rw [priorLast i r' found early]
        exact priorOpen
    links := by
      intro i r₁ r₂ found₁ found₂
      obtain ⟨inside, -⟩ := List.getElem?_eq_some_iff.mp found₂
      rw [addResult_results, List.length_append, List.length_singleton] at inside
      rw [old i (by omega)] at found₁
      by_cases early : i + 1 < e.results.length
      · rw [old (i + 1) early] at found₂
        exact good.links i r₁ r₂ found₁ found₂
      · have here : i + 1 = e.results.length := by omega
        rw [here, atNew] at found₂
        cases found₂
        rw [priorLast i r₁ found₁ early]
        exact link
    rejectedAlone := by
      intro r' mem isRejected
      rw [addResult_results, mem_append, mem_singleton] at mem
      rcases mem with earlier | rfl
      · -- A rejection among the old revisions would be the open one.
        obtain ⟨alone, -⟩ := good.rejectedAlone r' earlier isRejected
        have isPrior : r' = prior := by
          obtain ⟨i, found⟩ := List.getElem?_of_mem earlier
          obtain ⟨inside, -⟩ := List.getElem?_eq_some_iff.mp found
          exact priorLast i r' found (by omega)
        rw [isPrior] at isRejected
        simp [ResultRecord.open_, isRejected] at priorOpen
      · exact absurd isRejected notRejected
    first := by
      intro r' found
      rw [old 0 lengthPos] at found
      exact good.first r' found
    firstDispatched := by
      intro r' found other
      rw [old 0 lengthPos] at found
      exact good.firstDispatched r' found other
    acked_le := by
      have := good.acked_le
      rw [addResult_results, List.length_append]
      push_cast
      exact this.trans (by simp) }

lemma EntryGood.addResult (good : EntryGood id e) {r : ResultRecord}
    (allowed : ResultAllowed e r) : EntryGood id (e.addResult r) := by
  rcases eq_nil_or_concat' e.results with empty | ⟨older, prior, last⟩
  · exact good.addFirst allowed empty
  · exact good.addLater allowed last

end Chain

/-! ### Sound contents -/

/-- Every entry is good, and the highest generation is one. -/
structure Sound (c : Contents) : Prop where
  entry : ∀ (id : String) (e : EntryState), c.entries[id]? = some e → EntryGood id e
  gen_nonneg : 0 ≤ c.highGen
  gen_le : ∀ (id : String) (e : EntryState), c.entries[id]? = some e →
    e.intent.generation ≤ c.highGen
  tomb_named : ∀ (id : String) (tomb : Tombstone), c.tombs[id]? = some tomb → id ≠ ""

lemma sound_empty : Sound {} where
  entry := by simp
  gen_nonneg := Int.le_refl 0
  gen_le := by simp
  tomb_named := by simp

/-- Replacing an entry by a good one of the same intent keeps soundness. -/
lemma Sound.setEntry {c : Contents} (sound : Sound c) {id : String} {e e' : EntryState}
    (known : c.entries[id]? = some e) (good : EntryGood id e')
    (intent : e'.intent = e.intent) : Sound (c.setEntry id e') where
  entry := by
    intro other found lookup
    rw [setEntry_entries] at lookup
    split at lookup
    case isTrue same => cases same; cases lookup; exact good
    case isFalse => exact sound.entry other found lookup
  gen_nonneg := sound.gen_nonneg
  gen_le := by
    intro other found lookup
    rw [setEntry_entries] at lookup
    split at lookup
    case isTrue => cases lookup; rw [intent]; exact sound.gen_le id e known
    case isFalse => exact sound.gen_le other found lookup
  tomb_named := sound.tomb_named

/-- **Every legal record keeps the contents sound.** -/
lemma Sound.effect {c c' : Contents} {rec : Record} (sound : Sound c)
    (effect : Effect c rec c') : Sound c' := by
  cases effect with
  | gen t generation =>
    refine ⟨?_, ?_, ?_, by simpa using sound.tomb_named⟩
    · simpa using sound.entry
    · have := sound.gen_nonneg
      simp only [noteGeneration_highGen]
      omega
    · intro id e known
      have := sound.gen_le id e (by simpa using known)
      simp only [noteGeneration_highGen]
      omega
  | intent t intent named absent =>
    refine ⟨?_, ?_, ?_, by simpa using sound.tomb_named⟩
    · intro id e known
      rw [noteGeneration_entries, setEntry_entries] at known
      split at known
      case isTrue same => cases same; cases known; exact entryGood_ofIntent intent t named
      case isFalse => exact sound.entry id e known
    · have := sound.gen_nonneg
      simp only [noteGeneration_highGen, setEntry_highGen]
      omega
    · intro id e known
      rw [noteGeneration_entries, setEntry_entries] at known
      simp only [noteGeneration_highGen, setEntry_highGen]
      split at known
      case isTrue => cases known; exact le_max_right _ _
      case isFalse =>
        have := sound.gen_le id e known
        omega
  | dispatched t id known state =>
    exact sound.setEntry known ((sound.entry id _ known).dispatch state t) rfl
  | executor t id ref known state =>
    exact sound.setEntry known ((sound.entry id _ known).setExecutor state ref) rfl
  | result t id r known allowed =>
    exact sound.setEntry known ((sound.entry id _ known).addResult allowed) rfl
  | ack t id revision rejected known low high =>
    exact sound.setEntry known ((sound.entry id _ known).acknowledge low high t rejected) (by simp)

end TechStack.Journal
