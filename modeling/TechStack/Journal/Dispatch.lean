import TechStack.Journal.Continuity

/-!
# At-most-once dispatch

`MarkDispatched` answers without an error only if it has just appended its record.
From then on the command is shielded (`Lawful.shielded`), whatever the process
does, as often as it dies; so a second record of the kind means that a compaction
found the command acknowledged, and one ran past its horizon.

All this rests on the time of a dispatch not being Go's zero time, which the entry
reads as "not dispatched".
-/

namespace TechStack.Journal

open List Lib

/-- The command that an event reports as dispatched. -/
def Event.dispatches : Event → Option String
  | .returned (.markDispatched id) reply => if reply.err.isNone then some id else none
  | _ => none

lemma Event.eq_of_dispatches {event : Event} {id : String} (reported : event.dispatches = some id) :
    ∃ reply, event = .returned (.markDispatched id) reply ∧ reply.err = none := by
  unfold dispatches at reported
  split at reported
  case h_1 id' reply =>
    simp only [Option.ite_none_right_eq_some, Option.isNone_iff_eq_none, Option.some.injEq]
      at reported
    obtain ⟨success, rfl⟩ := reported
    exact ⟨reply, rfl, success⟩
  case h_2 => cases reported

/-- A rewritten log took the log's name. -/
def Event.publishes : Event → Bool
  | .published _ _ => true
  | _ => false

variable {o : Options} {T : ℤ → Prop} {id : String}

/-- A dispatch is reported right after its record was appended. -/
lemma Lawful.dispatched {before : List Event} {event : Event}
    (lawful : Lawful o T (before ++ [event])) (dispatches : event.dispatches = some id) :
    ∃ earlier t, before = earlier ++ [.appended { kind := .dispatched, id := id, at_ := t }] ∧
      T t ∧ Legal (ledger o earlier).contents { kind := .dispatched, id := id, at_ := t } := by
  obtain ⟨reply, rfl, success⟩ := Event.eq_of_dispatches dispatches
  obtain ⟨lawful, allowed⟩ := lawful_concat.mp lawful
  rcases allowed _ rfl success with ⟨contents, ⟨⟩⟩ | ⟨earlier, t, after, rfl, none | ⟨⟨_, _, _, ⟨⟩⟩, -⟩⟩
  subst none
  obtain ⟨-, admissible, time⟩ := lawful_concat.mp lawful
  exact ⟨earlier, t, rfl, time, admissible.legal⟩

/-- The ledger after a dispatch. -/
lemma ledger_dispatched {trace : List Event} {t : ℤ}
    (legal : Legal (ledger o trace).contents { kind := .dispatched, id := id, at_ := t }) :
    (ledger o (trace ++ [.appended { kind := .dispatched, id := id, at_ := t }])).rewriting = none ∧
    ∃ e, (ledger o (trace ++
        [.appended { kind := .dispatched, id := id, at_ := t }])).contents.entries[id]? = some e ∧
      e.dispatchedAt = t := by
  obtain ⟨c', applied, effect⟩ := legal_apply legal
  rw [ledger_concat]
  simp only [Ledger.next, applied, true_and]
  cases effect with
  | dispatched t id known state => exact ⟨_, Contents.setEntry_entries_self .., rfl⟩

/-- **At-most-once dispatch**, of histories. -/
lemma Lawful.dispatched_once {t₁ t₂ t₃ : List Event} {first second : Event}
    (lawful : Lawful o T (t₁ ++ first :: (t₂ ++ second :: t₃))) (clock : ∀ t, T t → t ≠ 0)
    (dispatches₁ : first.dispatches = some id) (dispatches₂ : second.dispatches = some id) :
    ∃ e₁ e now c, (ledger o t₁).contents.entries[id]? = some e₁ ∧ Acknowledged t₂ id e₁ e ∧
      .published now c ∈ t₂ ∧ horizon o e ≤ now := by
  have whole : t₁ ++ first :: (t₂ ++ second :: t₃) = t₁ ++ [first] ++ t₂ ++ [second] ++ t₃ := by
    simp
  rw [whole] at lawful
  have until₂ := lawful.of_append
  obtain ⟨earlier₁, time₁, rfl, real, legal₁⟩ :=
    until₂.of_append.of_append.dispatched dispatches₁
  obtain ⟨settled, e₁, known, dispatchedAt⟩ := ledger_dispatched legal₁
  obtain ⟨earlier₂, time₂, middle, -, legal₂⟩ := until₂.dispatched dispatches₂
  obtain ⟨reply, rfl, -⟩ := Event.eq_of_dispatches dispatches₁
  -- The second record is the last event between the two reports.
  rcases eq_nil_or_concat' t₂ with rfl | ⟨events, last, rfl⟩
  · rw [append_nil] at middle
    have same := (append_inj' middle rfl).2
    cases same
  · rw [← append_assoc] at middle
    obtain ⟨rfl, same⟩ := append_inj' middle rfl
    have dispatched : e₁.dispatchedAt ≠ 0 := dispatchedAt ▸ clock _ real
    have between := until₂.of_append
    rw [← append_assoc] at between
    have before := between.of_append
    obtain ⟨shield, -⟩ := before.shielded (by rw [ledger_concat]; exact known) dispatched
      (by rw [ledger_concat]; exact settled)
    obtain ⟨e, now, c, acked, ran, late⟩ :=
      shield.released_of_dispatch before.tidy dispatched legal₂
    exact ⟨e₁, e, now, c, known, acked.concat last, mem_append_left _ ran, late⟩

/-- **At-most-once dispatch.**  If `MarkDispatched` answers twice for one command
without an error, in any life of a journal with a clock that never reads Go's zero
time, then between the two answers a compaction found the command acknowledged, and
one ran at or after its horizon. -/
theorem dispatches_at_most_once {codec : Codec} {opts : Options} {sys : System}
    (reached : (journal codec opts).Reaches (Steady fun t => t ≠ 0) sys)
    {t₁ t₂ t₃ : List Event} {first second : Event}
    (history : sys.trace = t₁ ++ first :: (t₂ ++ second :: t₃)) {id : String}
    (dispatches₁ : first.dispatches = some id) (dispatches₂ : second.dispatches = some id) :
    ∃ (e₁ e : EntryState) (now : ℤ) (c : Contents),
      (ledger opts.withDefaults t₁).contents.entries[id]? = some e₁ ∧
      Acknowledged t₂ id e₁ e ∧ .published now c ∈ t₂ ∧
      max (e.intent.authorityExpiresAt + opts.withDefaults.clockMargin)
        (e.ackedAt + opts.withDefaults.minTombstone) ≤ now := by
  have consistent : Consistent codec opts.withDefaults (fun t => t ≠ 0) (fun _ => True)
      sys.disk sys.trace sys.store :=
    consistent_of_reaches (fun _ _ => trivial) reached fun _ _ _ _ _ => trivial
  have lawful := consistent.lawful
  rw [history] at lawful
  obtain ⟨e₁, e, now, c, known, acked, ran, late⟩ :=
    lawful.dispatched_once (fun _ real => real) dispatches₁ dispatches₂
  exact ⟨e₁, e, now, c, known, acked, ran, horizon_eq_max _ e ▸ late⟩

namespace Sample

/-- The command is admitted, dispatched, done and acknowledged on one day, and
admitted and dispatched again on the next, after a compaction. -/
def twoDays : List (ℤ × Call) :=
  [(jan1, .admit_ none command), (jan1, .markDispatched "c1"),
   (jan1, .recordResult "c1" (outcome .terminal)), (jan1, .ack "c1" 1 false),
   (jan2, .compact), (jan2, .admit_ none command), (jan2, .markDispatched "c1")]

/-- The command is admitted and dispatched under a clock that reads zero. -/
def zeroTime : List (ℤ × Call) :=
  [(0, .admit_ none command), (0, .markDispatched "c1"), (0, .markDispatched "c1")]

/-- Two reports of one command, found in the reports of a history. -/
lemma exists_dispatches {trace : List Event} {id : String}
    (front middle back : List (Option String))
    (reports : trace.map Event.dispatches = front ++ some id :: (middle ++ some id :: back)) :
    ∃ t₁ first t₂ second t₃, trace = t₁ ++ first :: (t₂ ++ second :: t₃) ∧
      first.dispatches = some id ∧ second.dispatches = some id := by
  obtain ⟨t₁, rest, rfl, -, reports⟩ := map_eq_append_iff.mp reports
  obtain ⟨first, rest, rfl, first_eq, reports⟩ := map_eq_cons_iff.mp reports
  obtain ⟨t₂, rest, rfl, -, reports⟩ := map_eq_append_iff.mp reports
  obtain ⟨second, t₃, rfl, second_eq, -⟩ := map_eq_cons_iff.mp reports
  exact ⟨t₁, first, t₂, second, t₃, rfl, first_eq, second_eq⟩

end Sample

/-- The sample's command is dispatched on two days; the compaction in between ran
after its horizon. -/
theorem dispatches_at_most_once_twoDays :
    ∃ (sys : System) (t₁ t₂ t₃ : List Event) (first second : Event),
      (journal Sample.json Sample.options).Reaches (Steady fun t => t ≠ 0) sys ∧
      sys.trace = t₁ ++ first :: (t₂ ++ second :: t₃) ∧ first.dispatches = some "c1" ∧
      second.dispatches = some "c1" ∧ ∃ now c, .published now c ∈ t₂ := by
  have run : ((System.start.acts Sample.json Sample.options (Sample.script Sample.twoDays)).map
      fun sys => sys.trace.map Event.dispatches) =
        some (List.replicate 4 none ++ some "c1" :: (List.replicate 10 none ++ [some "c1"])) := by
    decide +kernel
  obtain ⟨sys, acted, reports⟩ := Option.map_eq_some_iff.mp run
  obtain ⟨t₁, first, t₂, second, t₃, history, dispatches₁, dispatches₂⟩ :=
    Sample.exists_dispatches _ _ [] reports
  have reached : (journal Sample.json Sample.options).Reaches (Steady fun t => t ≠ 0) sys :=
    System.reaches_of_acts (Sample.steady_script (by decide)) acted
  obtain ⟨-, -, now, c, -, -, ran, -⟩ :=
    dispatches_at_most_once reached history dispatches₁ dispatches₂
  exact ⟨sys, t₁, t₂, t₃, first, second, reached, history, dispatches₁, dispatches₂, now, c, ran⟩

/-- Under a clock that reads Go's zero time, a command is dispatched twice without
any compaction. -/
theorem dispatches_twice_at_zero_time :
    ∃ (sys : System) (t₁ t₂ t₃ : List Event) (first second : Event),
      (journal Sample.json Sample.options).Reaches (Steady fun t => t = 0) sys ∧
      sys.trace = t₁ ++ first :: (t₂ ++ second :: t₃) ∧ first.dispatches = some "c1" ∧
      second.dispatches = some "c1" ∧ ∀ now c, .published now c ∉ t₂ := by
  have run : ((System.start.acts Sample.json Sample.options (Sample.script Sample.zeroTime)).map
      fun sys => (sys.trace.map Event.dispatches, sys.trace.any Event.publishes)) =
        some (List.replicate 4 none ++ some "c1" :: ([none] ++ [some "c1"]), false) := by
    decide +kernel
  obtain ⟨sys, acted, both⟩ := Option.map_eq_some_iff.mp run
  obtain ⟨reports, unpublished⟩ := Prod.mk.inj both
  obtain ⟨t₁, first, t₂, second, t₃, history, dispatches₁, dispatches₂⟩ :=
    Sample.exists_dispatches _ _ [] reports
  refine ⟨sys, t₁, t₂, t₃, first, second, ?_, history, dispatches₁, dispatches₂, ?_⟩
  · exact System.reaches_of_acts (Sample.steady_script (by decide)) acted
  · intro now c ran
    rw [any_eq_false] at unpublished
    have member : .published now c ∈ sys.trace := by
      rw [history]
      exact mem_append_right _ (mem_cons_of_mem _ (mem_append_left _ ran))
    exact unpublished _ member rfl

end TechStack.Journal
