import TechStack.Lib.Slots
import TechStack.ServerRegistry.Heads

/-!
# The event log of a server

What holds of one server over every sequence of commands: its revisions and generations, the
order of the Guard events that were applied, the end of its life, and the chain of its
transitions.

The registry compares some texts as they were sent and others without the space around them.  A
command that says `decommissioning` with a space behind it takes a row out of the reach of the
check that keeps Guards away from it, and a Guard that sends its authority with a space does not
get its epoch remembered (`untidy_commands`).  Commands without such space are `Tidy`, and for
them the log is coherent (`event_log_coherent`).
-/

namespace TechStack.ServerRegistry

open List Option Lib Server Registry

variable {π ρ : Type} {g : Setting π ρ} {s s' : Registry ρ} {now : ℤ} {e : Event π}

/-! ### The order of Guard events -/

/-- Within a generation the events of one epoch are next to each other and numbered upwards, and
time does not run backwards. -/
structure Ordered (l : List Position) : Prop where
  contiguous : ∀ (i j k : ℕ) (a b c : Position), i < j → j < k →
    l[i]? = some a → l[j]? = some b → l[k]? = some c →
    a.generation = c.generation → a.epoch = c.epoch → b.epoch = a.epoch
  increasing : ∀ (i j : ℕ) (a b : Position), i < j → l[i]? = some a → l[j]? = some b →
    a.generation = b.generation → a.epoch = b.epoch → a.sequence < b.sequence
  timely : ∀ (i j : ℕ) (a b : Position), i < j → l[i]? = some a → l[j]? = some b →
    a.generation = b.generation → a.observedAt ≤ b.observedAt

/-- The position of an event that may follow those of a log. -/
structure Follows (l : List Position) (x : Position) (last : Position) : Prop where
  ends : l.getLast? = some last
  generation : last.generation = x.generation
  observedAt : last.observedAt ≤ x.observedAt
  epoch : last.epoch = x.epoch ∧ last.sequence < x.sequence ∨
    ∀ p ∈ l, p.generation = x.generation → p.epoch ≠ x.epoch

namespace Ordered

variable {l : List Position} {x : Position}

lemma nil : Ordered [] := by
  constructor
  case contiguous =>
    intro i j k a b c _ _ first
    cases first
  case increasing =>
    intro i j a b _ first
    cases first
  case timely =>
    intro i j a b _ first
    cases first

/-- An earlier event is the last one or comes before it. -/
lemma eq_or_before {last a : Position} (ends : l.getLast? = some last) {i : ℕ}
    (here : l[i]? = some a) : a = last ∨ i < l.length - 1 ∧ l[l.length - 1]? = some last := by
  rw [List.getLast?_eq_getElem?] at ends
  have below : i < l.length := (List.getElem?_eq_some_iff.mp here).1
  rcases Nat.lt_or_ge i (l.length - 1) with before | at_end
  · exact .inr ⟨before, ends⟩
  · obtain rfl : i = l.length - 1 := by omega
    exact .inl (Option.some.inj (here.symm.trans ends))

/-- An event that follows the last one of its generation keeps the order. -/
lemma snoc (ordered : Ordered l)
    (follows : ∀ a ∈ l, a.generation = x.generation → ∃ last, Follows l x last) :
    Ordered (l ++ [x]) := by
  have old {i j : ℕ} {a b : Position} (lt : i < j) (first : (l ++ [x])[i]? = some a)
      (second : l[j]? = some b) : l[i]? = some a := by
    have below := (List.getElem?_eq_some_iff.mp second).1
    rcases getElem?_snoc first with old | ⟨rfl, -⟩
    · exact old
    · omega
  have before {i : ℕ} {a : Position} (lt : i < l.length) (first : (l ++ [x])[i]? = some a) :
      l[i]? = some a := by
    rcases getElem?_snoc first with old | ⟨rfl, -⟩
    · exact old
    · omega
  refine ⟨fun i j k a b c ij jk first second third generation epoch => ?_,
    fun i j a b ij first second generation epoch => ?_,
    fun i j a b ij first second generation => ?_⟩
  · rcases getElem?_snoc third with third | ⟨rfl, rfl⟩
    · have second := old jk second third
      exact ordered.contiguous i j k a b c ij jk (old ij first second) second third generation epoch
    · have second := before jk second
      have first := before (ij.trans jk) first
      obtain ⟨last, ends, same, -, ⟨equal, -⟩ | new⟩ :=
        follows a (mem_of_getElem? first) generation
      · rcases eq_or_before ends second with rfl | ⟨lt, at_end⟩
        · exact equal.trans epoch.symm
        · exact ordered.contiguous i j _ a b last ij lt first second at_end
            (generation.trans same.symm) (epoch.trans equal.symm)
      · exact absurd epoch (new a (mem_of_getElem? first) generation)
  · rcases getElem?_snoc second with second | ⟨rfl, rfl⟩
    · exact ordered.increasing i j a b ij (old ij first second) second generation epoch
    · have first := before ij first
      obtain ⟨last, ends, same, -, ⟨equal, less⟩ | new⟩ :=
        follows a (mem_of_getElem? first) generation
      · rcases eq_or_before ends first with rfl | ⟨lt, at_end⟩
        · exact less
        · exact (ordered.increasing i _ a last lt first at_end (generation.trans same.symm)
            (epoch.trans equal.symm)).trans less
      · exact absurd epoch (new a (mem_of_getElem? first) generation)
  · rcases getElem?_snoc second with second | ⟨rfl, rfl⟩
    · exact ordered.timely i j a b ij (old ij first second) second generation
    · have first := before ij first
      obtain ⟨last, ends, same, later, -⟩ := follows a (mem_of_getElem? first) generation
      rcases eq_or_before ends first with rfl | ⟨lt, at_end⟩
      · exact later
      · exact (ordered.timely i _ a last lt first at_end (generation.trans same.symm)).trans later

end Ordered

/-! ### The chain of transitions -/

/-- From where to where a transition leads. -/
def Transition.span (t : Transition) : String × String := (t.fromState, t.toState)

/-- The transitions of one dimension, in the order in which they were written. -/
def Registry.spans (s : Registry ρ) (d : Dimension) : List (String × String) :=
  (s.transitions.filter fun t => t.dimension = d).map (·.span)

/-- Transitions that follow each other, up to a state. -/
structure Chained (spans : List (String × String)) (state : String) : Prop where
  chain : spans.IsChain fun a b => a.2 = b.1
  ends : spans.getLast?.map Prod.snd = some state

lemma spans_numbered (d : Dimension) (l : List Transition) (n : ℕ) :
    ((numbered n l).filter fun t => t.dimension = d).map (·.span) =
      (l.filter fun t => t.dimension = d).map (·.span) := by
  induction l generalizing n with
  | nil => rfl
  | cons t l ih =>
    rw [numbered, filter_cons, filter_cons]
    split
    · rw [map_cons, map_cons, ih]
      rfl
    · exact ih (n + 1)

variable {d : Dimension}

section

variable {previous : Option Server} {current : Server} {e' : Event π} {observedAt : ℤ}

lemma stateTransition_filter (d x : Dimension) :
    (stateTransition previous current e' observedAt x).filter (fun t => t.dimension = d) =
      if x = d then stateTransition previous current e' observedAt d else none := by
  by_cases same : x = d
  · subst same
    rw [if_pos rfl]
    unfold stateTransition
    dsimp only
    split <;> simp
  · rw [if_neg same]
    unfold stateTransition
    dsimp only
    split <;> simp [same]

/-- An event adds at most one transition in each of the four dimensions. -/
lemma spans_serverEventTransitions (mem : d ∈ dimensions) :
    ((serverEventTransitions previous current e' observedAt).filter
        fun t => t.dimension = d).map (·.span) =
      ((stateTransition previous current e' observedAt d).map (·.span)).toList := by
  have outcome : (outcomeTransition previous current e' observedAt).toList.filter
      (fun t => t.dimension = d) = [] := by
    unfold outcomeTransition
    dsimp only
    split
    · cases d <;> simp_all [dimensions]
    · rfl
  rw [serverEventTransitions, filter_append, outcome, append_nil, filter_filterMap]
  simp only [stateTransition_filter]
  cases d <;> cases stateTransition previous current e' observedAt _ <;> simp_all [dimensions]

end

/-- The chain goes on from the state that the row had. -/
lemma Chained.next {previous : Option Server} {current : Server} {e' : Event π} {observedAt : ℤ}
    {spans : List (String × String)} (nonblank : current.state d ≠ "")
    (created : previous = none → spans = [])
    (chained : ∀ row, previous = some row → Chained spans (row.state d)) :
    Chained (spans ++ ((stateTransition previous current e' observedAt d).map (·.span)).toList)
      (current.state d) := by
  unfold stateTransition
  dsimp only
  cases previous with
  | none =>
    rw [created rfl, if_neg]
    · exact ⟨.singleton _, rfl⟩
    · rintro (blank | ⟨same, -⟩)
      · exact nonblank blank
      · exact nonblank same.symm
  | some row =>
    obtain ⟨chain, ends⟩ := chained row rfl
    split
    case isTrue unchanged =>
      have same : row.state d = current.state d := (unchanged.resolve_left nonblank).1
      rw [← same]
      simpa using ⟨chain, ends⟩
    case isFalse =>
      refine ⟨chain.append (.singleton _) fun x last y first => ?_, by simp [Transition.span]⟩
      cases first
      rw [mem_def.mp last] at ends
      exact Option.some.inj ends

/-! ### The invariant -/

/-- Texts without space around them. -/
def TidyTexts (texts : Bindings) : Prop :=
  trimSpace texts.1 = texts.1 ∧ trimSpace texts.2.1 = texts.2.1 ∧
    trimSpace texts.2.2.1 = texts.2.2.1 ∧ trimSpace texts.2.2.2 = texts.2.2.2

/-- The lifecycle and the bindings have no space around them. -/
structure Server.Tidy (server : Server) : Prop where
  lifecycle : trimSpace server.lifecycleState = server.lifecycleState
  bindings : TidyTexts server.bindings

/-- What the registry compares with and without the space around it has none. -/
structure Tidy (_ : Registry ρ) (command : ℤ × Event π) : Prop where
  authority : trimSpace command.2.authority = command.2.authority
  runtime : command.2.runtime.Tidy

/-- What a row knows of the Guard events that were applied. -/
structure Placed (epochs : List EpochKey) (positions : List Position) (row : Server) : Prop where
  older : ∀ p ∈ positions, p.generation ≤ row.generation
  known : ∀ p ∈ positions, p.generation = row.generation →
    ⟨row.tenantID, row.generation, trimSpace row.workerID, p.epoch⟩ ∈ epochs
  current : (row.sourceEpoch = "" ∧ ∀ p ∈ positions, p.generation < row.generation) ∨
    row.sourceEpoch ≠ "" ∧ ∃ observedAt, row.sourceObservedAt = some observedAt ∧
      positions.getLast? =
        some ⟨row.generation, row.sourceEpoch, row.sourceSequence, observedAt⟩

/-- What every command keeps, tidy or not. -/
structure Grounded (s : Registry ρ) : Prop where
  positive : Positive s
  fresh : s.row = none → s.transitions = [] ∧ s.positions = []
  valid : ∀ row kept, s.row = some (row, kept) → validServerEventHead row = true
  chained : ∀ d ∈ dimensions, ∀ row kept, s.row = some (row, kept) →
    Chained (s.spans d) (row.state d)

/-- What tidy commands keep. -/
structure Sound (s : Registry ρ) : Prop extends Grounded s where
  tidy : ∀ row kept, s.row = some (row, kept) → row.Tidy
  ordered : Ordered s.positions
  placed : ∀ row kept, s.row = some (row, kept) → Placed s.epochs s.positions row

lemma not_stale {row : Server} {e' : Event π} {observedAt last : ℤ}
    (fresh : guardEventIsStale row e' observedAt = false) (named : row.sourceEpoch ≠ "")
    (seen : row.sourceObservedAt = some last) :
    last ≤ observedAt ∧ (row.sourceEpoch = e'.sourceEpoch →
      row.sourceSequence < e'.sourceSequence) := by
  simp only [guardEventIsStale, if_neg named, seen, any_some] at fresh
  split_ifs at fresh with other same
  · simp only [Bool.or_eq_false_iff, decide_eq_false_iff_not, not_le, not_lt] at fresh
    exact ⟨fresh.2, fun _ => fresh.1⟩
  · simp only [Bool.or_eq_false_iff, decide_eq_false_iff_not, not_le] at fresh
    exact ⟨fresh.2.le, fun equal => absurd equal same⟩

namespace Placed

variable {epochs : List EpochKey} {positions : List Position} {row server : Server}

/-- An event that is not stale follows those that were applied. -/
lemma follows (placed : Placed epochs positions row) {e' : Event π} {observedAt : ℤ}
    (fresh : guardEventIsStale row e' observedAt = false)
    (unseen : e'.sourceEpoch ≠ row.sourceEpoch →
      ⟨row.tenantID, row.generation, trimSpace row.workerID, e'.sourceEpoch⟩ ∉ epochs)
    {a : Position} (mem : a ∈ positions) (generation : a.generation = row.generation) :
    ∃ last, Follows positions
      ⟨row.generation, e'.sourceEpoch, e'.sourceSequence, observedAt⟩ last := by
  rcases placed.current with ⟨-, older⟩ | ⟨named, last, seen, ends⟩
  · exact absurd generation (older a mem).ne
  · obtain ⟨later, sequence⟩ := not_stale fresh named seen
    refine ⟨_, ends, rfl, later, ?_⟩
    by_cases same : row.sourceEpoch = e'.sourceEpoch
    · exact .inl ⟨same, sequence same⟩
    · refine .inr fun p known generation (epoch : p.epoch = e'.sourceEpoch) =>
        unseen (Ne.symm same) ?_
      rw [← epoch]
      exact placed.known p known generation

/-- The row of the same Guard, after an event that is not one of the Guard's. -/
lemma transfer (placed : Placed epochs positions row) (tenant : server.tenantID = row.tenantID)
    (generation : server.generation = row.generation)
    (worker : trimSpace server.workerID = trimSpace row.workerID)
    (position : server.position = row.position) : Placed epochs positions server := by
  obtain ⟨epoch, sequence, observedAt⟩ :
      server.sourceEpoch = row.sourceEpoch ∧ server.sourceSequence = row.sourceSequence ∧
        server.sourceObservedAt = row.sourceObservedAt := by
    simpa [Server.position] using position
  constructor
  · rw [generation]
    exact placed.older
  · rw [tenant, generation, worker]
    exact placed.known
  · rw [generation, epoch, sequence, observedAt]
    exact placed.current

/-- The row of a Guard that has not been heard of. -/
lemma unheard (older : ∀ p ∈ positions, p.generation < server.generation)
    (position : server.position = ("", 0, none)) : Placed epochs positions server := by
  have epoch : server.sourceEpoch = "" := congrArg Prod.fst position
  exact ⟨fun p mem => (older p mem).le,
    fun p mem generation => absurd generation (older p mem).ne, .inl ⟨epoch, older⟩⟩

/-- The row after an event of the Guard. -/
lemma heard (placed : Placed epochs positions row) {observedAt : ℤ}
    (tenant : server.tenantID = row.tenantID) (generation : server.generation = row.generation)
    (worker : server.workerID = row.workerID) (named : server.sourceEpoch ≠ "")
    (seen : server.sourceObservedAt = some observedAt) :
    Placed (⟨row.tenantID, row.generation, trimSpace row.workerID, server.sourceEpoch⟩ :: epochs)
      (positions ++
        [⟨server.generation, server.sourceEpoch, server.sourceSequence, observedAt⟩]) server := by
  constructor
  · rw [generation]
    exact forall_mem_snoc placed.older le_rfl
  · intro p mem same
    rw [tenant, generation, worker]
    rcases mem_append.mp mem with old | new
    · exact mem_cons_of_mem _ (placed.known p old (same.trans generation))
    · rw [mem_singleton.mp new]
      exact mem_cons_self
  · exact .inr ⟨named, observedAt, seen, getLast?_concat⟩

end Placed

/-! ### Texts without space around them -/

lemma firstNonEmpty_cases (incoming current : String) :
    firstNonEmpty [incoming, current] = incoming ∨
      trimSpace incoming = "" ∧ (firstNonEmpty [incoming, current] = current ∨
        trimSpace current = "" ∧ firstNonEmpty [incoming, current] = "") := by
  simp only [firstNonEmpty]
  split_ifs with named kept
  · exact .inl rfl
  · exact .inr ⟨not_ne_iff.mp named, .inl rfl⟩
  · exact .inr ⟨not_ne_iff.mp named, .inr ⟨not_ne_iff.mp kept, rfl⟩⟩

section

variable {incoming current : String} (tidy : trimSpace incoming = incoming)
  (held : trimSpace current = current)

include tidy held

lemma trimSpace_firstNonEmpty :
    trimSpace (firstNonEmpty [incoming, current]) = firstNonEmpty [incoming, current] := by
  rcases firstNonEmpty_cases incoming current with same | ⟨-, same | ⟨-, same⟩⟩
  · rw [same, tidy]
  · rw [same, held]
  · rw [same, trimSpace_empty]

lemma trimSpace_patched : trimSpace (patched current incoming) = patched current incoming := by
  unfold patched
  split
  · exact tidy
  · exact held

/-- A text changes exactly when it differs. -/
lemma firstNonEmpty_eq_iff :
    firstNonEmpty [incoming, current] = current ↔ differs current incoming = false := by
  simp only [firstNonEmpty, differs, tidy, held]
  by_cases named : incoming = ""
  · by_cases kept : current = "" <;> simp [named, kept]
  · simp [named]

end

lemma trimSpace_firstNonEmpty_of_same {incoming current : String}
    (same : differs current incoming = false) :
    trimSpace (firstNonEmpty [incoming, current]) = trimSpace current := by
  simp only [differs, Bool.and_eq_false_iff, bne_eq_false_iff_eq] at same
  simp only [firstNonEmpty]
  split_ifs with named kept
  · exact same.resolve_left named
  · rfl
  · rw [trimSpace_empty, not_ne_iff.mp kept]

lemma tidy_patchedBindings {current incoming : Bindings} (held : TidyTexts current)
    (tidy : TidyTexts incoming) : TidyTexts (patchedBindings current incoming) := by
  obtain ⟨worker, node, lease, provider⟩ := tidy
  obtain ⟨worker', node', lease', provider'⟩ := held
  dsimp only [TidyTexts, patchedBindings]
  exact ⟨trimSpace_firstNonEmpty worker worker', trimSpace_firstNonEmpty node node',
    trimSpace_firstNonEmpty lease lease', trimSpace_firstNonEmpty provider provider'⟩

/-- The bindings change exactly when the command differs in one of them. -/
lemma patchedBindings_eq_iff {row patch : Server} (held : TidyTexts row.bindings)
    (tidy : TidyTexts patch.bindings) :
    patchedBindings row.bindings patch.bindings = row.bindings ↔
      runtimeBindingsChanged row patch = false := by
  obtain ⟨worker, node, lease, provider⟩ := tidy
  obtain ⟨worker', node', lease', provider'⟩ := held
  dsimp only [bindings] at *
  simp only [patchedBindings, Prod.mk.injEq, runtimeBindingsChanged, Bool.or_eq_false_iff]
  rw [firstNonEmpty_eq_iff worker worker', firstNonEmpty_eq_iff node node',
    firstNonEmpty_eq_iff lease lease', firstNonEmpty_eq_iff provider provider', and_assoc, and_assoc]

/-- Nothing follows on the end of a server but its end. -/
lemma lifecycle_of_ending {source target : String}
    (ending : source = "decommissioning" ∨ source = "decommissioned")
    (tidy : trimSpace target = target) (valid : validLifecycleTransition source target = true) :
    target = source ∨ target = "decommissioned" := by
  have first : trimSpace "decommissioning" = "decommissioning" := by decide +kernel
  have second : trimSpace "decommissioned" = "decommissioned" := by decide +kernel
  have next : lifecycleTransitions "decommissioning" = ["decommissioned"] := by decide +kernel
  have last : lifecycleTransitions "decommissioned" = [] := by decide +kernel
  rcases ending with rfl | rfl
  · simp only [validLifecycleTransition, first, tidy, next, Bool.and_eq_true, Bool.or_eq_true,
      beq_iff_eq, contains_iff_mem, mem_singleton] at valid
    exact valid.2.imp_left Eq.symm
  · simp only [validLifecycleTransition, second, tidy, last, Bool.and_eq_true, Bool.or_eq_true,
      beq_iff_eq, contains_iff_mem, not_mem_nil, or_false] at valid
    exact .inl valid.2.symm

/-! ### One command -/

section

variable {server : Server} {e' : Event π} {row : Server} {kept rest : ρ}
  {transitions : List Transition}

lemma commit_guard (tidy : trimSpace e.authority = e.authority)
    (authority : trimSpace e.authority = authorityGuard) :
    (s.commit e now server rest transitions).positions = s.positions ++
        [⟨server.generation, server.sourceEpoch, server.sourceSequence,
          server.sourceObservedAt.getD now⟩] ∧
      (s.commit e now server rest transitions).epochs = e.epochKey :: s.epochs := by
  have sent : e.authority = authorityGuard := tidy.symm.trans authority
  exact ⟨if_pos authority, if_pos sent⟩

lemma commit_other (tidy : trimSpace e.authority = e.authority)
    (authority : trimSpace e.authority ≠ authorityGuard) :
    (s.commit e now server rest transitions).positions = s.positions ∧
      (s.commit e now server rest transitions).epochs = s.epochs := by
  have sent : e.authority ≠ authorityGuard := tidy ▸ authority
  exact ⟨if_neg authority, if_neg sent⟩

namespace Writes

section

variable (writes : Writes s now e server e')
include writes

lemma tidy (sound : Sound s) (patch : e.runtime.Tidy) :
    server.Tidy := by
  cases writes with
  | observes outcome held _ _ _ _ _ _ _ shows_ =>
    have before := sound.tidy _ _ held
    refine ⟨?_, ?_⟩
    · rw [shows_.lifecycleState]
      exact before.lifecycle
    · rw [shows_.bindings]
      exact before.bindings
  | creates outcome missing _ shows_ =>
    have planned : trimSpace "planned" = "planned" := by decide +kernel
    refine ⟨?_, ?_⟩
    · rw [shows_.lifecycleState]
      exact trimSpace_patched patch.lifecycle planned
    · rw [shows_.bindings]
      exact tidy_patchedBindings
        ⟨trimSpace_empty, trimSpace_empty, trimSpace_empty, trimSpace_empty⟩ patch.bindings
  | projects outcome held _ _ shows_ =>
    have before := sound.tidy _ _ held
    refine ⟨?_, ?_⟩
    · rw [shows_.lifecycleState]
      exact trimSpace_patched patch.lifecycle before.lifecycle
    · rw [shows_.bindings]
      exact tidy_patchedBindings before.bindings patch.bindings

/-- A row that is created has revision and generation one. -/
lemma created (missing : s.row = none) :
    server.revision = 1 ∧ server.generation = 1 := by
  cases writes with
  | observes outcome held => cases missing.symm.trans held
  | creates outcome _ _ shows_ => exact ⟨shows_.revision, shows_.generation⟩
  | projects outcome held => cases missing.symm.trans held

lemma positive (before : Positive s) :
    0 < server.revision ∧ 0 < server.generation := by
  cases writes with
  | observes outcome held _ _ _ _ _ _ _ shows_ =>
    obtain ⟨revision, generation⟩ := before _ _ held
    rw [shows_.revision, shows_.generation]
    omega
  | creates outcome _ _ shows_ =>
    rw [shows_.revision, shows_.generation]
    omega
  | projects outcome held _ _ shows_ =>
    obtain ⟨revision, generation⟩ := before _ _ held
    rw [shows_.revision, shows_.generation]
    split <;> omega

/-- The revision rises by one; the generation does exactly when the bindings change. -/
lemma counted (sound : Sound s) (patch : e.runtime.Tidy) (held : s.row = some (row, kept)) :
    server.revision = row.revision + 1 ∧
      server.generation = row.generation + if server.bindings = row.bindings then 0 else 1 := by
  cases writes with
  | observes outcome held' _ _ _ _ _ _ _ shows_ =>
    cases held.symm.trans held'
    rw [shows_.bindings, if_pos rfl, add_zero]
    exact ⟨shows_.revision, shows_.generation⟩
  | creates outcome missing => cases missing.symm.trans held
  | projects outcome held' _ _ shows_ =>
    cases held.symm.trans held'
    have changed := patchedBindings_eq_iff (sound.tidy _ _ held).bindings patch.bindings
    refine ⟨shows_.revision, ?_⟩
    rw [shows_.generation, shows_.bindings]
    by_cases same : runtimeBindingsChanged row e.runtime = false
    · rw [if_pos (changed.mpr same), same]
      exact (add_zero _).symm
    · rw [if_neg (mt changed.mp same), if_pos (Bool.not_eq_false _ |>.mp same)]

/-- A row that is to be taken down keeps its lifecycle, or is taken down, and no Guard writes
it. -/
lemma teardown (patch : e.runtime.Tidy) (held : s.row = some (row, kept))
    (ending : row.lifecycleState = "decommissioning" ∨ row.lifecycleState = "decommissioned") :
    trimSpace e.authority ≠ authorityGuard ∧
      (server.lifecycleState = row.lifecycleState ∨ server.lifecycleState = "decommissioned") := by
  cases writes with
  | observes outcome held' _ _ _ _ open_ =>
    cases held.symm.trans held'
    exact absurd ending open_
  | creates outcome missing => cases missing.symm.trans held
  | projects outcome held' authority lifecycle shows_ =>
    cases held.symm.trans held'
    refine ⟨authority, ?_⟩
    rw [shows_.lifecycleState, patched]
    split
    case isFalse => exact .inl rfl
    case isTrue asked =>
      rcases lifecycle with nothing | same | valid
      · exact absurd nothing asked
      · exact .inl same
      · exact lifecycle_of_ending ending patch.lifecycle valid

/-- A Guard event follows the ones that were applied, and the row knows of it. -/
lemma placed (sound : Sound s) (tidy : trimSpace e.authority = e.authority)
    (tenants : ∀ row kept, s.row = some (row, kept) → row.tenantID = trimSpace e.tenantID)
    (rest : ρ) (transitions : List Transition) :
    Ordered (s.commit e now server rest transitions).positions ∧
      Placed (s.commit e now server rest transitions).epochs
        (s.commit e now server rest transitions).positions server := by
  cases writes with
  | @observes row _ _ outcome held authority named generation source _ unseen fresh shows_ =>
    obtain ⟨positions, epochs⟩ := commit_guard (s := s) (e := e) tidy authority
    have before := sound.placed row _ held
    have worker : trimSpace row.workerID = row.workerID := (sound.tidy row _ held).bindings.1
    have key : e.epochKey =
        ⟨row.tenantID, row.generation, trimSpace row.workerID, trimSpace e.sourceEpoch⟩ := by
      rw [worker, source, tenants row _ held, ← generation, Event.epochKey]
    obtain ⟨epoch, sequence, seen⟩ : server.sourceEpoch = trimSpace e.sourceEpoch ∧
        server.sourceSequence = e.sourceSequence ∧
        server.sourceObservedAt = some (e.instant now) := by
      simpa [Server.position] using shows_.position
    rw [positions, epochs, key, ← epoch, seen, getD_some]
    refine ⟨sound.ordered.snoc fun a mem same => ?_, ?_⟩
    · have follows := before.follows fresh (fun other known => unseen ⟨by simpa using other, ?_⟩)
        mem (same.trans shows_.generation)
      · rw [shows_.generation, epoch, sequence]
        simpa using follows
      · rw [contains_iff_mem, key]
        simpa using known
    · exact before.heard (shows_.tenantID.trans (tenants row _ held).symm) shows_.generation
        (congrArg Prod.fst shows_.bindings) (epoch ▸ named) seen
  | creates outcome missing authority shows_ =>
    obtain ⟨positions, epochs⟩ := commit_other (s := s) (e := e) tidy authority
    rw [positions, epochs]
    refine ⟨sound.ordered, .unheard (fun p mem => ?_) shows_.position⟩
    rw [(sound.fresh missing).2] at mem
    cases mem
  | @projects row _ _ outcome held authority _ shows_ =>
    obtain ⟨positions, epochs⟩ := commit_other (s := s) (e := e) tidy authority
    rw [positions, epochs]
    refine ⟨sound.ordered, ?_⟩
    have before := sound.placed row _ held
    by_cases changed : runtimeBindingsChanged row e.runtime = true
    · refine .unheard (fun p mem => ?_) (shows_.position.trans (if_pos changed))
      rw [shows_.generation, if_pos changed]
      exact Int.lt_add_one_of_le (before.older p mem)
    · have same : differs row.workerID e.runtime.workerID = false := by
        simp only [runtimeBindingsChanged, Bool.or_eq_true, not_or, Bool.not_eq_true] at changed
        exact changed.1.1.1
      have worker : server.workerID = firstNonEmpty [e.runtime.workerID, row.workerID] :=
        congrArg Prod.fst shows_.bindings
      refine before.transfer (shows_.tenantID.trans (tenants row _ held).symm)
        (shows_.generation.trans (if_neg changed)) ?_ (shows_.position.trans (if_neg changed))
      rw [worker]
      exact trimSpace_firstNonEmpty_of_same same

end

end Writes

/-- The transitions of an applied event, in one dimension. -/
lemma spans_commit (mem : d ∈ dimensions) {previous : Option Server} {observedAt : ℤ} :
    (s.commit e now server rest (serverEventTransitions previous server e' observedAt)).spans d =
      s.spans d ++ ((stateTransition previous server e' observedAt d).map (·.span)).toList := by
  rw [← spans_serverEventTransitions mem, ← spans_numbered d _ s.nextID]
  simp only [spans, Registry.commit, filter_append, map_append]

lemma forall_commit_row {P : Server → Prop} (new : ∀ createdAt, P (server.stamped createdAt)) :
    ∀ row kept, (s.commit e now server rest transitions).row = some (row, kept) → P row := by
  intro row kept held
  cases held
  exact new _

end

lemma eq_of_not_applied (refused : (s.applyServerEvent g now e).2 ≠ .applied) :
    (s.applyServerEvent g now e).1 = s := by
  unfold applyServerEvent at refused ⊢
  split
  · rfl
  · split
    · rfl
    · rfl
    case h_3 applied _ prepared =>
      rw [if_neg (by assumption), prepared] at refused
      exact absurd rfl refused

lemma stamped_state (server : Server) (createdAt : ℤ) (d : Dimension) :
    (server.stamped createdAt).state d = server.state d := by
  cases d <;> dsimp only [state, Server.stamped]

lemma stamped_valid (server : Server) (createdAt : ℤ) :
    validServerEventHead (server.stamped createdAt) = validServerEventHead server := by
  dsimp only [validServerEventHead, Server.stamped]

/-- **Every command keeps the chains.** -/
lemma Grounded.step (grounded : Grounded s) (g : Setting π ρ) (now : ℤ) (e : Event π) :
    Grounded (s.applyServerEvent g now e).1 := by
  by_cases applied : (s.applyServerEvent g now e).2 = .applied
  · obtain ⟨server, e', rest, writes, valid, -, written⟩ :=
      writes_of_applied grounded.positive applied
    rw [written]
    constructor
    case positive => exact forall_commit_row fun _ => writes.positive grounded.positive
    case fresh => exact fun missing => absurd missing (some_ne_none _)
    case valid => exact forall_commit_row fun _ => (stamped_valid server _).trans valid
    case chained =>
      intro d mem
      rw [spans_commit mem]
      refine forall_commit_row fun createdAt => ?_
      rw [stamped_state]
      refine Chained.next (fun blank => ?_) (fun missing => ?_) (fun row held => ?_)
      · exact state_nonblank valid mem (blank ▸ trimSpace_empty)
      · rw [spans, (grounded.fresh (map_eq_none_iff.mp missing)).1]
        rfl
      · obtain ⟨⟨row, kept⟩, found, rfl⟩ := map_eq_some_iff.mp held
        exact grounded.chained d mem row kept found
  · rw [eq_of_not_applied applied]
    exact grounded

lemma Grounded.empty : Grounded ({} : Registry ρ) := by
  constructor
  case fresh => exact fun _ => ⟨rfl, rfl⟩
  case chained => exact fun d mem row kept held => by cases held
  all_goals exact fun row kept held => by cases held

/-- **Every tidy command keeps the invariant.** -/
lemma Sound.step (sound : Sound s) (tidy : Tidy s (now, e)) :
    Sound (s.applyServerEvent g now e).1 := by
  have grounded := sound.toGrounded.step g now e
  by_cases applied : (s.applyServerEvent g now e).2 = .applied
  · obtain ⟨server, e', rest, writes, valid, tenants, written⟩ :=
      writes_of_applied sound.positive applied
    obtain ⟨ordered, placed⟩ := writes.placed sound tidy.authority tenants rest
      (serverEventTransitions (s.row.map Prod.fst) server e' (e.instant now))
    have tidied := writes.tidy sound tidy.runtime
    rw [written] at grounded ⊢
    exact ⟨grounded, forall_commit_row fun _ => ⟨tidied.lifecycle, tidied.bindings⟩, ordered,
      forall_commit_row fun _ => ⟨placed.older, placed.known, placed.current⟩⟩
  · rw [eq_of_not_applied applied]
    exact sound

lemma Sound.of_reaches (reached : (machine g).Reaches Tidy s) : Sound s := by
  refine reached.invariant Sound ?_ ?_
  · rintro _ rfl
    exact ⟨.empty, fun row kept held => (some_ne_none _ held.symm).elim, .nil,
      fun row kept held => (some_ne_none _ held.symm).elim⟩
  · rintro s ⟨now, e⟩ _ sound tidy rfl
    exact sound.step tidy

/-! ### The log as a whole -/

/-- The revision of a server; a server without a row has none yet. -/
def Registry.revision (s : Registry ρ) : ℤ := (s.row.map fun row => row.1.revision).getD 0

/-- What a command may do. -/
structure Lawful (s s' : Registry ρ) (verdict : Verdict) : Prop where
  applied : verdict = .applied → s'.revision = s.revision + 1
  unapplied : verdict ≠ .applied → s' = s
  generation : ∀ row kept row' kept', s.row = some (row, kept) → s'.row = some (row', kept') →
    row'.generation = row.generation + if row'.bindings = row.bindings then 0 else 1

/-- The history of Guard events, and the chains of transitions. -/
structure Coherent (s : Registry ρ) : Prop where
  ordered : Ordered s.positions
  chained : ∀ d ∈ dimensions, ∀ row kept, s.row = some (row, kept) →
    Chained (s.spans d) (row.state d)

/-- The server is to be taken down, or is. -/
def Server.Ending (row : Server) : Prop :=
  row.lifecycleState = "decommissioning" ∨ row.lifecycleState = "decommissioned"

lemma Sound.lawful (sound : Sound s) (tidy : Tidy s (now, e)) :
    Lawful s (s.applyServerEvent g now e).1 (s.applyServerEvent g now e).2 := by
  by_cases applied : (s.applyServerEvent g now e).2 = .applied
  · obtain ⟨server, e', rest, writes, -, -, written⟩ := writes_of_applied sound.positive applied
    rw [written, applied]
    refine ⟨fun _ => ?_, fun other => absurd rfl other, fun row kept row' kept' held held' => ?_⟩
    · rcases eq_none_or_eq_some s.row with missing | ⟨⟨row, kept⟩, held⟩
      · simp [Registry.revision, Registry.commit, Server.stamped, missing, writes.created missing]
      · simp [Registry.revision, Registry.commit, Server.stamped, held,
          (writes.counted sound tidy.runtime held).1]
    · revert held'
      refine forall_commit_row (P := fun row' => row'.generation = row.generation +
        if row'.bindings = row.bindings then 0 else 1) (fun createdAt => ?_) row' kept'
      exact (writes.counted sound tidy.runtime held).2
  · rw [eq_of_not_applied applied]
    refine ⟨fun other => absurd other applied, fun _ => rfl,
      fun row kept row' kept' held held' => ?_⟩
    cases held.symm.trans held'
    rw [if_pos rfl, add_zero]

lemma desired_of_ending {row : Server} (valid : validServerEventHead row = true)
    (tidy : row.Tidy) (ending : row.Ending) : row.desiredState = "absent" := by
  simp only [validServerEventHead, tidy.lifecycle, Bool.and_eq_true] at valid
  have last := valid.2
  rcases ending with first | second
  · rw [if_pos first, Bool.and_eq_true, beq_iff_eq] at last
    exact last.1
  · have other : row.lifecycleState ≠ "decommissioning" := by
      rw [second]
      decide
    rw [if_neg other, if_pos second, Bool.and_eq_true, beq_iff_eq] at last
    exact last.1

/-- A server that is to be taken down stays so, and no Guard event is applied to it. -/
lemma Sound.ending (sound : Sound s) (tidy : Tidy s (now, e)) {row : Server} {kept : ρ}
    (held : s.row = some (row, kept)) (ending : row.Ending) :
    (s.applyServerEvent g now e).1.positions = s.positions ∧
      ∃ row' kept', (s.applyServerEvent g now e).1.row = some (row', kept') ∧ row'.Ending ∧
        (row'.lifecycleState = row.lifecycleState ∨ row'.lifecycleState = "decommissioned") := by
  by_cases applied : (s.applyServerEvent g now e).2 = .applied
  · obtain ⟨server, e', rest, writes, -, -, written⟩ := writes_of_applied sound.positive applied
    obtain ⟨authority, lifecycle⟩ := writes.teardown tidy.runtime held ending
    rw [written]
    refine ⟨(commit_other tidy.authority authority).1, server.stamped _, rest, rfl, ?_, lifecycle⟩
    rcases lifecycle with same | last
    · exact ending.imp same.trans same.trans
    · exact .inr last
  · rw [eq_of_not_applied applied]
    exact ⟨rfl, row, kept, held, ending, .inl rfl⟩

lemma ending_later {t : Registry ρ} {row : Server} {kept : ρ}
    (reached : (machine g).Reaches Tidy s) (held : s.row = some (row, kept))
    (ending : row.Ending) (later : (machine g).Later Tidy s t) :
    t.positions = s.positions ∧ ∃ row' kept', t.row = some (row', kept') ∧ row'.Ending ∧
      (row'.lifecycleState = row.lifecycleState ∨ row'.lifecycleState = "decommissioned") := by
  refine later.keeps (fun t => t.positions = s.positions ∧ ∃ row' kept',
    t.row = some (row', kept') ∧ row'.Ending ∧ (row'.lifecycleState = row.lifecycleState ∨
      row'.lifecycleState = "decommissioned")) ?_ reached ⟨rfl, row, kept, held, ending, .inl rfl⟩
  rintro u ⟨now, e⟩ _ before ⟨positions, row', kept', held', ending', lifecycle⟩ tidy rfl
  obtain ⟨same, row'', kept'', held'', ending'', lifecycle'⟩ :=
    (Sound.of_reaches before).ending (g := g) tidy held' ending'
  refine ⟨same.trans positions, row'', kept'', held'', ending'', ?_⟩
  rcases lifecycle' with equal | last
  · exact lifecycle.imp equal.trans equal.trans
  · exact .inr last

/-- **The event log of a server.**  After tidy commands the Guard events are in order and the
transitions are chains that end in the states of the row.  A tidy command raises the revision by
one if it is applied and does nothing otherwise, and it raises the generation by one exactly when
the bindings change.  A server that is to be taken down only ever is taken down: it stays
unwanted, and no Guard event is applied to it any more. -/
theorem event_log_coherent (reached : (Registry.machine g).Reaches Tidy s) : Coherent s ∧
      (∀ now e, Tidy s (now, e) →
        Lawful s (s.applyServerEvent g now e).1 (s.applyServerEvent g now e).2) ∧
      ∀ row kept t, s.row = some (row, kept) → row.Ending → (Registry.machine g).Later Tidy s t →
        t.positions = s.positions ∧ ∃ row' kept', t.row = some (row', kept') ∧
          row'.desiredState = "absent" ∧
          (row'.lifecycleState = row.lifecycleState ∨ row'.lifecycleState = "decommissioned") := by
  have sound := Sound.of_reaches reached
  refine ⟨⟨sound.ordered, sound.chained⟩, fun now e tidy => sound.lawful tidy,
    fun row kept t held ending later => ?_⟩
  obtain ⟨positions, row', kept', held', ending', lifecycle⟩ :=
    ending_later reached held ending later
  have after := Sound.of_reaches (reached.later later)
  exact ⟨positions, row', kept', held',
    desired_of_ending (after.valid row' kept' held') (after.tidy row' kept' held') ending', lifecycle⟩

/-! ### Runs -/

/-- A setting that refuses no payload. -/
def openSetting : Setting Unit Unit :=
  ⟨"server", fun decision _ => some decision, fun _ => false, fun _ => true, fun _ => true,
    fun _ _ _ _ => some ()⟩

/-- The control plane asks for something. -/
def asks (expectedRevision : ℤ) (runtime : Server) : Event Unit :=
  { tenantID := "tenant", expectedRevision := expectedRevision, authority := authorityControlPlane,
    sourceID := "api", runtime := runtime, payload := () }

/-- The server is created with a worker. -/
def enrolls : Event Unit := asks 0 { ownerSubjectID := "owner", workerID := "worker" }

/-- The worker reports that it is connected. -/
def reports (authority : String) (expectedRevision : ℤ) (epoch : String) (sequence : ℤ) :
    Event Unit :=
  { tenantID := "tenant", expectedRevision := expectedRevision, generation := 1,
    authority := authority, sourceID := "worker", sourceEpoch := epoch,
    sourceSequence := sequence, runtime := { connectionState := "connected" }, payload := () }

/-- A command in the open setting. -/
def act (s : Registry Unit) (command : ℤ × Event Unit) : Option (Registry Unit) :=
  some (s.applyServerEvent openSetting command.1 command.2).1

lemma machine_step (s : Registry Unit) (command : ℤ × Event Unit) (s' : Registry Unit)
    (acted : act s command = some s') : (machine openSetting).step s command s' :=
  (Option.some.inj acted).symm

lemma enacted : (machine openSetting).Enacts act {} := ⟨rfl, machine_step⟩

/-- `Tidy`, as a check. -/
def tidyNow (_ : Registry Unit) (command : ℤ × Event Unit) : Bool :=
  [command.2.authority, command.2.runtime.lifecycleState, command.2.runtime.workerID,
    command.2.runtime.nodeID, command.2.runtime.leaseID, command.2.runtime.providerRef].all
      fun text => trimSpace text == text

lemma tidy_of_now (s : Registry Unit) (command : ℤ × Event Unit)
    (now : tidyNow s command = true) : Tidy s command := by
  simp only [tidyNow, all_cons, all_nil, Bool.and_true, Bool.and_eq_true,
    beq_iff_eq] at now
  obtain ⟨authority, lifecycle, bindings⟩ := now
  exact ⟨authority, lifecycle, bindings⟩

/-- A worker reports, starts again and reports again, and the server is taken down. -/
theorem event_log_coherent_reported :
    ∃ s, (Registry.machine openSetting).Reaches Tidy s ∧ s.positions.length = 3 ∧
      s.revision = 5 ∧ Coherent s := by
  obtain ⟨s, reached, positions, revision⟩ := enacted.reaches tidyNow tidy_of_now
    [(0, enrolls), (1, reports "guard" 1 "first" 1), (2, reports "guard" 2 "first" 2),
      (3, reports "guard" 3 "second" 1),
      (4, asks 4 { lifecycleState := "decommissioning", desiredState := "absent" })]
    (fun s => s.positions.length = 3 ∧ s.revision = 5) (by decide +kernel)
  exact ⟨s, reached, positions, revision, (event_log_coherent reached).1⟩

/-- Any command. -/
def anyCommand : Registry Unit → ℤ × Event Unit → Prop := fun _ _ => True

/-- A space behind the lifecycle lets a Guard event be applied to a server that is taken down, a
space behind the authority of a Guard lets a superseded epoch come back, and a space behind a
worker changes the bindings without a new generation. -/
theorem untidy_commands : (∃ s t, (Registry.machine openSetting).Reaches anyCommand s ∧
      (Registry.machine openSetting).Later anyCommand s t ∧
      (s.row.any fun row => row.1.lifecycleState == "decommissioning") = true ∧
      t.positions.length = s.positions.length + 1) ∧
    (∃ s, (Registry.machine openSetting).Reaches anyCommand s ∧ ¬Ordered s.positions) ∧
    ∃ s now e, (Registry.machine openSetting).Reaches anyCommand s ∧
      ¬Lawful s (s.applyServerEvent openSetting now e).1 (s.applyServerEvent openSetting now e).2 := by
  refine ⟨?_, ?_, ?_⟩
  · exact enacted.reaches_later (fun _ _ => true) (fun _ _ _ => trivial)
      [(0, enrolls), (1, asks 1 { lifecycleState := "decommissioning", desiredState := "absent" })]
      [(2, asks 2 { lifecycleState := "decommissioning " }), (3, reports "guard" 3 "first" 1)] _
      (by decide +kernel)
  · obtain ⟨s, reached, positions⟩ := enacted.reaches_any
      [(0, enrolls), (1, reports "guard " 1 "first" 1), (2, reports "guard" 2 "second" 1),
        (3, reports "guard" 3 "first" 1)]
      (fun s => s.positions = [⟨1, "first", 1, 1⟩, ⟨1, "second", 1, 2⟩, ⟨1, "first", 1, 3⟩])
      (by decide +kernel)
    refine ⟨s, reached, fun ordered => ?_⟩
    rw [positions] at ordered
    have same := ordered.contiguous 0 1 2 _ _ _ (by decide) (by decide) rfl rfl rfl rfl rfl
    exact absurd same (by decide)
  · obtain ⟨s, reached, ⟨row, kept⟩, held, ⟨row', kept'⟩, held', changed, same⟩ :=
      enacted.reaches_any [(0, enrolls)] (fun s => ∃ row ∈ s.row, ∃ row' ∈ (s.applyServerEvent
        openSetting 1 (asks 1 { workerID := "worker " })).1.row,
          row'.1.bindings ≠ row.1.bindings ∧ row'.1.generation = row.1.generation)
      (by decide +kernel)
    refine ⟨s, 1, asks 1 { workerID := "worker " }, reached, fun lawful => ?_⟩
    have raised := lawful.generation row kept row' kept' held held'
    rw [if_neg changed] at raised
    dsimp only at same
    omega

end TechStack.ServerRegistry
