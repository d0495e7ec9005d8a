import TechStack.Journal.Chain

/-!
# Compaction re-derives what it keeps

`compactLocked` does not copy its maps into the new log: it writes the records
from which `apply` is to rebuild them.  `compacted o now c` says directly what
should come out, and `grown_compactRecords` that replaying the records of
`compactRecords` from nothing gives it, for every sound `c`.

The argument is about single entries.  `partialEntry e k` is the entry after its
intent, its dispatch marker, its executor and its first `k` results have been
replayed.  Each of the records is legal where it stands (`Grown`), because the
result chain of `e` says exactly what `RecordResult` would check, and the last
one leads to `settle e`, the entry without the payloads that were acknowledged.
-/

namespace TechStack.Journal

open List Lib Std Contents EntryState Effect OrdMap

/-! ### Runs of written records -/

/-- What a record that the store writes does to the contents: an operation's
record, or a tombstone, which only compaction writes. -/
inductive Writes (c : Contents) : Record → Contents → Prop where
  | effect {rec : Record} {c' : Contents} (effect : Effect c rec c') : Writes c rec c'
  | tombstone (t : ℤ) (id : String) (tomb : Tombstone) (named : id ≠ "") :
      Writes c { kind := .tombstone, id := id, at_ := t, tombstone := some tomb }
        { c with entries := c.entries.erase id, tombs := c.tombs.insert id tomb }

/-- A run of written records. -/
inductive Grown : Contents → List Record → Contents → Prop where
  | nil (c : Contents) : Grown c [] c
  | cons {c c' c'' : Contents} {rec : Record} {records : List Record} :
      Writes c rec c' → Grown c' records c'' → Grown c (rec :: records) c''

lemma Effect.apply {c c' : Contents} {rec : Record} (effect : Effect c rec c') :
    c.apply rec = .ok c' := by
  cases effect with
  | gen => rfl
  | intent t intent named absent => simp [Contents.apply, named, absent]
  | dispatched t id known => simp [Contents.apply, known]
  | executor t id ref known => simp [Contents.apply, known]
  | result t id r known allowed => simp [Contents.apply, known, allowed.2.1]
  | ack t id revision rejected known low high =>
    simp [Contents.apply, known, Int.not_lt.mpr low, Int.not_lt.mpr high]

lemma Writes.apply {c c' : Contents} {rec : Record} (writes : Writes c rec c') :
    c.apply rec = .ok c' := by
  cases writes with
  | effect effect => exact effect.apply
  | tombstone t id tomb named => simp [Contents.apply, named]

lemma Sound.writes {c c' : Contents} {rec : Record} (sound : Sound c)
    (writes : Writes c rec c') : Sound c' := by
  cases writes with
  | effect effect => exact sound.effect effect
  | tombstone t id tomb named =>
    have survives : ∀ (other : String) (e : EntryState),
        (c.entries.erase id)[other]? = some e → c.entries[other]? = some e := by
      intro other e found
      rw [ExtTreeMap.getElem?_erase] at found
      split at found
      · cases found
      · exact found
    refine ⟨?_, sound.gen_nonneg, ?_, ?_⟩
    · exact fun other e found => sound.entry other e (survives other e found)
    · exact fun other e found => sound.gen_le other e (survives other e found)
    · intro other tomb' found
      rw [ExtTreeMap.getElem?_insert] at found
      split at found
      case isTrue same => exact LawfulEqCmp.eq_of_compare same ▸ named
      case isFalse => exact sound.tomb_named other tomb' found

namespace Grown

variable {c c' c'' : Contents} {front back : List Record} {rec : Record}

lemma single (writes : Writes c rec c') : Grown c [rec] c' := .cons writes (.nil _)

lemma append (first : Grown c front c') (second : Grown c' back c'') :
    Grown c (front ++ back) c'' := by
  induction first with
  | nil => exact second
  | cons writes _ ih => exact .cons writes (ih second)

/-- Such a run is replayed without a refusal. -/
lemma applyAll (grown : Grown c front c') : c.applyAll front = .ok c' := by
  induction grown with
  | nil => rfl
  | cons writes _ ih => rw [applyAll_cons, writes.apply]; exact ih

lemma sound (grown : Grown c front c') (start : Sound c) : Sound c' := by
  induction grown with
  | nil => exact start
  | cons writes _ ih => exact ih (start.writes writes)

/-- An initial part of a run is a run. -/
lemma take (grown : Grown c front c') (n : ℕ) : ∃ c'', Grown c (front.take n) c'' := by
  induction grown generalizing n with
  | nil => exact ⟨_, by simpa using Grown.nil _⟩
  | cons writes _ ih =>
    cases n with
    | zero => exact ⟨_, .nil _⟩
    | succ n =>
      obtain ⟨reached, initial⟩ := ih n
      exact ⟨reached, .cons writes initial⟩

end Grown

/-! ### One entry -/

/-- The entry as compaction keeps it: the payloads of acknowledged revisions are
gone. -/
def settle (e : EntryState) : EntryState :=
  { e with results := e.results.map (rewriteResult e.ackedRevision) }

/-- The entry while it is being replayed from its records, with `k` results. -/
def partialEntry (e : EntryState) (k : ℕ) : EntryState :=
  { e with
    results := (settle e).results.take k
    ackedRevision := 0
    rejected := false
    ackedAt := 0 }.recompute

section

variable (acked : ℤ) (r : ResultRecord)

@[simp] lemma rewriteResult_open : (rewriteResult acked r).open_ = r.open_ := by
  unfold rewriteResult; split <;> rfl

@[simp] lemma rewriteResult_revision : (rewriteResult acked r).revision = r.revision := by
  unfold rewriteResult; split <;> rfl

@[simp] lemma rewriteResult_state : (rewriteResult acked r).state = r.state := by
  unfold rewriteResult; split <;> rfl

@[simp] lemma rewriteResult_digest : (rewriteResult acked r).digest = r.digest := by
  unfold rewriteResult; split <;> rfl

@[simp] lemma rewriteResult_priorDigest :
    (rewriteResult acked r).priorDigest = r.priorDigest := by
  unfold rewriteResult; split <;> rfl

end

@[simp] lemma settle_derivedState (e : EntryState) :
    (settle e).derivedState = e.derivedState := by
  cases last : e.results.getLast? <;>
    simp [settle, EntryState.derivedState, EntryState.latest, last]

variable {id : String} {e : EntryState}

/-- Rewriting an entry keeps its result chain. -/
lemma EntryGood.settle (good : EntryGood id e) : EntryGood id (settle e) where
  key := good.key
  named := good.named
  state := by rw [settle_derivedState]; exact good.state
  revisions := by
    intro i r found
    obtain ⟨r', found', rfl⟩ := by simpa [Journal.settle] using found
    simpa using good.revisions i r' found'
  known := by
    intro r mem
    obtain ⟨r', mem', rfl⟩ := mem_map.mp mem
    simpa using good.known r' mem'
  opens := by
    intro i r found before
    obtain ⟨r', found', rfl⟩ := by simpa [Journal.settle] using found
    simpa using good.opens i r' found' (by simpa [Journal.settle] using before)
  links := by
    intro i r₁ r₂ found₁ found₂
    obtain ⟨r₁', found₁', rfl⟩ := by simpa [Journal.settle] using found₁
    obtain ⟨r₂', found₂', rfl⟩ := by simpa [Journal.settle] using found₂
    simpa using good.links i r₁' r₂' found₁' found₂'
  rejectedAlone := by
    intro r mem rejected
    obtain ⟨r', mem', rfl⟩ := mem_map.mp mem
    simpa [Journal.settle] using good.rejectedAlone r' mem' (by simpa using rejected)
  first := by
    intro r found
    obtain ⟨r', found', rfl⟩ := by simpa [Journal.settle] using found
    simpa using good.first r' (by simpa using found')
  firstDispatched := by
    intro r found notRejected
    obtain ⟨r', found', rfl⟩ := by simpa [Journal.settle] using found
    exact good.firstDispatched r' (by simpa using found') (by simpa using notRejected)
  acked_nonneg := good.acked_nonneg
  acked_le := by simpa [Journal.settle] using good.acked_le
  executor := good.executor
  rejectedAcked := good.rejectedAcked
  unacked := good.unacked

/-- A list is its first `n` elements, the next one and the rest. -/
lemma take_succ_of_getElem? {α : Type} {l : List α} {n : ℕ} {a : α}
    (found : l[n]? = some a) : l.take (n + 1) = l.take n ++ [a] := by
  rw [take_add_one, found, Option.toList_some]

variable {k : ℕ} {r : ResultRecord}

/-- The last result of a partly replayed entry. -/
lemma partialEntry_latest_succ (found : (settle e).results[k]? = some r) :
    (partialEntry e (k + 1)).latest = some r := by
  simp [partialEntry, recompute, EntryState.latest, take_succ_of_getElem? found]

lemma partialEntry_addResult (found : (settle e).results[k]? = some r) :
    (partialEntry e k).addResult r = partialEntry e (k + 1) := by
  simp only [partialEntry, addResult, recompute,
    take_succ_of_getElem? found, EntryState.derivedState, EntryState.latest]

/-- Every rewritten result is one that `RecordResult` accepts at its place. -/
lemma resultAllowed_partialEntry (good : EntryGood id e) (found : (settle e).results[k]? = some r) :
    ResultAllowed (partialEntry e k) r := by
  have goodSettled := good.settle
  obtain ⟨inside, -⟩ := List.getElem?_eq_some_iff.mp found
  have mem := List.mem_of_getElem? found
  refine ⟨goodSettled.known r mem, ?_, ?_⟩
  · have count : (partialEntry e k).results.length = k := by
      simp only [partialEntry, recompute, length_take]
      omega
    rw [count]
    exact goodSettled.revisions k r found
  · cases k with
    | zero =>
      have state : (partialEntry e 0).state =
          if !isZero e.dispatchedAt then .dispatched else .intent := rfl
      change r.state ≠ .resolved ∧ (r.state = .rejected → (partialEntry e 0).state = .intent) ∧
        (r.state ≠ .rejected → (partialEntry e 0).state = .dispatched)
      rw [state]
      refine ⟨?_, ?_, ?_⟩
      · rcases goodSettled.first r found with kind | kind | kind <;> simp [kind]
      · intro rejected
        have := (goodSettled.rejectedAlone r mem rejected).2
        simp [isZero, show e.dispatchedAt = 0 from this]
      · intro other
        have := goodSettled.firstDispatched r found other
        simp [isZero, show e.dispatchedAt ≠ 0 from this]
    | succ k =>
      obtain ⟨prior, before⟩ : ∃ prior, (settle e).results[k]? = some prior :=
        ⟨_, getElem?_eq_getElem (by omega)⟩
      rw [partialEntry_latest_succ before]
      refine ⟨goodSettled.opens k prior before inside, ?_, goodSettled.links k prior r before found⟩
      intro rejected
      have := (goodSettled.rejectedAlone r mem rejected).1
      omega

/-- Replaying the results of an entry, from the `k`-th on. -/
lemma grown_results (good : EntryGood id e) (c : Contents) (rest : List ResultRecord)
    (position : (settle e).results.drop k = rest) :
    Grown (c.setEntry id (partialEntry e k))
      (rest.map fun r => { kind := .result, id := id, at_ := r.at_, result := some r })
      (c.setEntry id (partialEntry e (k + rest.length))) := by
  induction rest generalizing k with
  | nil => exact .nil _
  | cons r rest ih =>
    have found : (settle e).results[k]? = some r := by
      rw [← head?_drop, position, head?_cons]
    have next : (settle e).results.drop (k + 1) = rest := by
      rw [← drop_drop, position, drop_one, tail_cons]
    have step := Effect.result (c := c.setEntry id (partialEntry e k)) r.at_ id r
      (Contents.setEntry_entries_self _ _ _) (resultAllowed_partialEntry good found)
    rw [Contents.setEntry_setEntry, partialEntry_addResult found] at step
    have later := ih next
    rw [show k + 1 + rest.length = k + (r :: rest).length by
      rw [length_cons]; omega] at later
    exact .cons (.effect step) later

/-- The rewritten records of the results are the records of the settled results. -/
lemma map_resultRecord (id : String) (e : EntryState) :
    e.results.map (resultRecord id e.ackedRevision) = (settle e).results.map
        fun r => { kind := .result, id := id, at_ := r.at_, result := some r } := by
  simp only [settle, map_map]
  refine map_congr_left fun r _ => ?_
  simp only [resultRecord, Function.comp_apply]
  congr 1
  unfold rewriteResult
  split <;> rfl

section

variable (good : EntryGood id e)
include good

/-- The intent, the dispatch marker and the executor of an entry are replayed. -/
lemma grown_headerRecords {c : Contents}
    (absent : c.entries[id]? = none) (generation : e.intent.generation ≤ c.highGen) :
    Grown c (headerRecords id e) (c.setEntry id (partialEntry e 0)) := by
  obtain rfl := good.key
  let fresh := (ofIntent e.intent e.intentAt).recompute
  have intent := Effect.intent (c := c) e.intentAt e.intent good.named absent
  rw [noteGeneration_of_le (by simpa using generation)] at intent
  have opened := Grown.single (.effect intent)
  unfold headerRecords
  by_cases zero : e.dispatchedAt = 0
  · -- Never dispatched: no marker, and no executor either.
    have noExecutor : e.executor = none := by
      by_contra present
      exact good.executor present zero
    have same : partialEntry e 0 = fresh := by
      simp [fresh, partialEntry, recompute, ofIntent, zero, noExecutor,
        EntryState.derivedState, EntryState.latest]
    rw [same]
    simpa [isZero, zero, noExecutor] using opened
  · have marked := Effect.dispatched e.dispatchedAt e.intent.commandID (e := fresh)
      (Contents.setEntry_entries_self c _ _) rfl
    rw [Contents.setEntry_setEntry] at marked
    have dispatched := opened.append (.single (.effect marked))
    cases executor : e.executor with
    | none =>
      have same : partialEntry e 0 = fresh.dispatch e.dispatchedAt := by
        simp [fresh, partialEntry, recompute, ofIntent,
          dispatch, executor, EntryState.derivedState, EntryState.latest]
      rw [same]
      simpa [isZero, zero] using dispatched
    | some ref =>
      have state : (fresh.dispatch e.dispatchedAt).state = .dispatched := by
        simp [fresh, dispatch, recompute, ofIntent,
          EntryState.derivedState, EntryState.latest, isZero, zero]
      have started := Effect.executor e.dispatchedAt e.intent.commandID ref
        (Contents.setEntry_entries_self c _ _) state
      rw [Contents.setEntry_setEntry] at started
      have same : partialEntry e 0 = (fresh.dispatch e.dispatchedAt).setExecutor ref := by
        simp [fresh, partialEntry, recompute, ofIntent,
          dispatch, setExecutor, executor, EntryState.derivedState,
          EntryState.latest]
      rw [same]
      simpa [isZero, zero] using dispatched.append (.single (.effect started))

/-- Replaying the acknowledgement completes the entry. -/
lemma partialEntry_acknowledge (acked : e.ackedRevision > 0) :
    (partialEntry e (settle e).results.length).acknowledge e.ackedAt e.ackedRevision
      e.rejected = settle e := by
  have all : (partialEntry e (settle e).results.length).results = (settle e).results :=
    take_length
  have revision : max (partialEntry e (settle e).results.length).ackedRevision
      e.ackedRevision = e.ackedRevision := max_eq_right (Int.le_of_lt acked)
  ext1
  case state =>
    rw [acknowledge_state, good.settle.state]
    exact derivedState_congr (by simpa using all)
      ((acknowledge_ackedRevision _ _ _ _).trans revision) (by simp; rfl)
  case results => simpa using all
  case ackedRevision => exact (acknowledge_ackedRevision _ _ _ _).trans revision
  case ackedAt => rw [acknowledge_ackedAt]; exact if_pos acked
  all_goals simp [partialEntry, settle, recompute]

/-- An entry of which nothing was acknowledged is complete without that. -/
lemma partialEntry_of_unacked (unacked : e.ackedRevision = 0) :
    partialEntry e (settle e).results.length = settle e := by
  have notRejected : e.rejected = false := by
    by_contra rejected
    have := good.rejectedAcked (by simpa using rejected)
    omega
  have all : (partialEntry e (settle e).results.length).results = (settle e).results :=
    take_length
  ext1
  case state =>
    rw [good.settle.state]
    exact derivedState_congr all unacked.symm rfl
  case results => exact all
  case ackedRevision => exact unacked.symm
  case rejected => exact notRejected.symm
  case ackedAt => exact (good.unacked unacked).symm
  all_goals rfl

/-- **The records of an entry rebuild it**, up to the payloads that were
acknowledged. -/
lemma grown_entryRecords {c : Contents} (absent : c.entries[id]? = none)
    (generation : e.intent.generation ≤ c.highGen) :
    Grown c (entryRecords id e) (c.setEntry id (settle e)) := by
  have header := grown_headerRecords good absent generation
  have results := grown_results good c (settle e).results (k := 0) (by simp)
  rw [Nat.zero_add, ← map_resultRecord] at results
  have replayed := header.append results
  unfold entryRecords ackRecords
  split
  case isTrue acked =>
    have counts : e.ackedRevision ≤ (partialEntry e (settle e).results.length).results.length := by
      simpa [partialEntry, recompute, settle] using good.acked_le
    have ack := Effect.ack e.ackedAt id e.ackedRevision e.rejected
      (Contents.setEntry_entries_self c id (partialEntry e (settle e).results.length))
      acked counts
    rw [Contents.setEntry_setEntry, partialEntry_acknowledge good acked] at ack
    exact replayed.append (.single (.effect ack))
  case isFalse unacked =>
    have := good.acked_nonneg
    rw [partialEntry_of_unacked good (by omega)] at replayed
    simpa using replayed

end

/-! ### The whole log -/

/-- What compaction makes of the contents.  An identifier that is among the
tombstones of the new log loses its entry, whatever its state: the tombstone
records come last, and applying one removes the entry. -/
def compacted (o : Options) (now : ℤ) (c : Contents) : Contents where
  entries := c.entries.filterMap fun id e =>
    if e.state = .acked ∨ ((compactTombs o now c)[id]?).isSome then none else some (settle e)
  tombs := compactTombs o now c
  highGen := c.highGen

lemma compactTombs_getElem? (o : Options) (now : ℤ) (c : Contents) (id : String) :
    (compactTombs o now c)[id]? = (c.entries[id]?.bind (tombstoneOf o now)).or
        (c.tombs[id]?.filter fun tomb => now < tomb.expiresAt) := by
  rw [compactTombs, getElem?_foldl_insert, ExtTreeMap.getElem?_filter']

lemma compacted_entries_getElem? (o : Options) (now : ℤ) (c : Contents) (id : String) :
    (compacted o now c).entries[id]? = c.entries[id]?.bind fun e =>
      if e.state = .acked ∨ ((compactTombs o now c)[id]?).isSome then none
      else some (settle e) := by
  rw [compacted, ExtTreeMap.getElem?_filterMap']

/-- Compaction brings no command back. -/
lemma compacted_absent {c : Contents} (unknown : c.entries[id]? = none)
    (unburied : c.tombs[id]? = none) (o : Options) (now : ℤ) :
    (compacted o now c).entries[id]? = none ∧ (compacted o now c).tombs[id]? = none := by
  refine ⟨?_, ?_⟩
  · rw [compacted_entries_getElem?, unknown, Option.bind_none]
  · change (compactTombs o now c)[id]? = none
    rw [compactTombs_getElem?, unknown, unburied]
    rfl

/-- The contents after the records of some entries. -/
def restore (c : Contents) (l : List (String × EntryState)) : Contents :=
  { c with
    entries := l.foldl (fun acc p => OrdMap.insertWith
      (fun _ e => if e.state = .acked then none else some (settle e)) acc p.1 p.2) c.entries }

/-- The contents after the records of some tombstones. -/
def bury (c : Contents) (l : List (String × Tombstone)) : Contents :=
  { c with
    entries := l.foldl (fun acc p => acc.erase p.1) c.entries
    tombs := l.foldl (fun acc p => acc.insert p.1 p.2) c.tombs }

lemma restore_cons_acked (c : Contents) (id : String) (l : List (String × EntryState))
    (acked : e.state = .acked) :
    restore c ((id, e) :: l) = restore c l := by
  simp [restore, insertWith, acked]

lemma restore_cons_kept (c : Contents) (id : String) (l : List (String × EntryState))
    (kept : e.state ≠ .acked) :
    restore c ((id, e) :: l) = restore (c.setEntry id (settle e)) l := by
  simp [restore, insertWith, kept, setEntry]

/-- The entries' records rebuild the entries that are kept. -/
lemma grown_entries (l : List (String × EntryState)) {c : Contents}
    (distinct : l.Pairwise fun p q => p.1 ≠ q.1)
    (good : ∀ p ∈ l, EntryGood p.1 p.2 ∧ p.2.intent.generation ≤ c.highGen ∧
      c.entries[p.1]? = none) :
    Grown c (l.flatMap fun p => if p.2.state = .acked then [] else entryRecords p.1 p.2)
      (restore c l) := by
  induction l generalizing c with
  | nil => exact .nil _
  | cons p l ih =>
    obtain ⟨id, e⟩ := p
    obtain ⟨fresh, distinct'⟩ := pairwise_cons.mp distinct
    obtain ⟨goodEntry, generation, absent⟩ := good (id, e) (by simp)
    rw [flatMap_cons]
    by_cases acked : e.state = .acked
    · rw [restore_cons_acked c id l acked, if_pos acked]
      exact ih distinct' fun q mem => good q (by simp [mem])
    · rw [restore_cons_kept c id l acked, if_neg acked]
      refine (grown_entryRecords goodEntry absent generation).append (ih distinct' ?_)
      intro q mem
      obtain ⟨goodOther, generation', absent'⟩ := good q (by simp [mem])
      refine ⟨goodOther, generation', ?_⟩
      rw [setEntry_entries, if_neg (fresh q mem)]
      exact absent'

/-- The tombstones' records bury what they name. -/
lemma grown_tombstones (now : ℤ) (l : List (String × Tombstone)) (c : Contents)
    (named : ∀ p ∈ l, p.1 ≠ "") :
    Grown c (l.map fun p => { kind := .tombstone, id := p.1, at_ := now, tombstone := some p.2 })
      (bury c l) := by
  induction l generalizing c with
  | nil => exact .nil _
  | cons p l ih =>
    exact .cons (.tombstone now p.1 p.2 (named p (by simp)))
      (ih _ fun q mem => named q (by simp [mem]))

/-- Every tombstone of the new log names a command. -/
lemma Sound.compactTombs_named {c : Contents} (sound : Sound c) (o : Options) (now : ℤ)
    {tomb : Tombstone} (found : (compactTombs o now c)[id]? = some tomb) :
    id ≠ "" := by
  rw [compactTombs_getElem?] at found
  cases entry : c.entries[id]? with
  | some e => exact (sound.entry id e entry).named
  | none =>
    rw [entry, Option.bind_none, Option.none_or] at found
    obtain ⟨old, -⟩ := Option.filter_eq_some_iff.mp found
    exact sound.tomb_named id tomb old

/-- Rebuilding the kept entries and burying the rest is compaction. -/
lemma bury_restore (o : Options) (now : ℤ) (c : Contents) :
    bury (restore { highGen := c.highGen } c.entries.toList) (compactTombs o now c).toList =
      compacted o now c := by
  have kept : ∀ id : String, ((restore { highGen := c.highGen } c.entries.toList).entries)[id]? =
      c.entries[id]?.bind fun e => if e.state = .acked then none else some (settle e) := by
    intro id
    have rebuilt := getElem?_foldl_insert
      (fun (_ : String) e => if e.state = .acked then none else some (settle e)) c.entries ∅ id
    rw [ExtTreeMap.foldl_eq_foldl_toList] at rebuilt
    exact rebuilt.trans (by simp)
  unfold bury compacted
  congr 1
  · refine ExtTreeMap.ext_getElem? fun id => ?_
    rw [getElem?_foldl_erase, ExtTreeMap.getElem?_filterMap', kept id]
    cases c.entries[id]? with
    | none => simp
    | some e => by_cases acked : e.state = .acked <;> simp [acked]
  · exact foldl_insert_empty _

/-- **Replaying a compacted log gives the compacted contents**, and each of its
records is legal where it stands. -/
lemma grown_compactRecords {c : Contents} (sound : Sound c) (o : Options) (now : ℤ) :
    Grown {} (compactRecords o now c) (compacted o now c) := by
  have generation : Grown {} (if c.highGen > 0 then
      [{ kind := .gen, at_ := now, generation := c.highGen }] else [])
      { highGen := c.highGen } := by
    split
    case isTrue positive =>
      have gen := Effect.gen (c := {}) now c.highGen
      rw [noteGeneration, max_eq_right positive.le] at gen
      exact .single (.effect gen)
    case isFalse =>
      have := sound.gen_nonneg
      obtain zero : c.highGen = 0 := by omega
      rw [zero]
      exact .nil _
  have distinct : c.entries.toList.Pairwise fun p q => p.1 ≠ q.1 := by
    refine c.entries.distinct_keys_toList.imp fun different same => ?_
    exact different (by rw [same]; exact ReflCmp.compare_self)
  have entries := grown_entries c.entries.toList (c := { highGen := c.highGen }) distinct (by
    intro p mem
    have found := ExtTreeMap.mem_toList_iff_getElem?_eq_some.mp mem
    exact ⟨sound.entry p.1 p.2 found, sound.gen_le p.1 p.2 found, by simp⟩)
  have tombstones := grown_tombstones now (compactTombs o now c).toList
    (restore { highGen := c.highGen } c.entries.toList) (by
      intro p mem
      have found := ExtTreeMap.mem_toList_iff_getElem?_eq_some.mp mem
      exact sound.compactTombs_named o now found)
  rw [bury_restore] at tombstones
  exact (generation.append entries).append tombstones

end TechStack.Journal
