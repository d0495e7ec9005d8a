import TechStack.ProviderControl.AtMostOnce

/-!
# Only the holder of the claim advances an operation

The receipts of an operation are one chain that ends in its head.  A receipt after the accepted
one is appended in the transaction that consumes the claim of the head, so the token of the
execution was stored, active and not expired at that moment; one row stands for each head.  A
claim that was taken over or released never comes back: a row gets its token when it is given,
and tokens are fresh (`only_holder_advances`).
-/

namespace TechStack.ProviderControl

open List Lib

variable {R : Type} {g : Setting R} {s s' : System}

/-! ### The chain of receipts -/

/-- The receipts of an operation, in the order in which they were inserted. -/
def Ledger.receiptsOf (l : Ledger) (key : Key) : List Receipt :=
  (l.receipts.filter fun entry => entry.1 = key).map Prod.snd

/-- A request, and receipts that extend each other by one, up to the head. -/
structure IsHistory (receipts : List Receipt) (head : Receipt) : Prop where
  first : receipts.head?.map (fun r => (r.sequence, r.phase)) = some (1, .requested)
  chain : receipts.IsChain fun a b =>
    b.sequence = a.sequence + 1 ∧ b.previousReceiptDigest = a.receiptDigest
  ends : receipts.getLast? = some head

lemma IsHistory.snoc {receipts : List Receipt} {head next : Receipt}
    (history : IsHistory receipts head) (extends_ : next.sequence = head.sequence + 1 ∧
      next.previousReceiptDigest = head.receiptDigest) : IsHistory (receipts ++ [next]) next := by
  constructor
  case first =>
    cases receipts with
    | nil => exact absurd history.ends (by simp)
    | cons first rest => exact history.first
  case chain =>
    refine history.chain.append (.singleton _) fun last ends first starts => ?_
    cases history.ends.symm.trans ends
    cases starts
    exact extends_
  case ends => exact getLast?_concat

/-- The ledger and the executions agree on the receipts. -/
structure Recorded (s : System) : Prop where
  history : ∀ key row, Table.lookup OperationRow.key key s.ledger.operations = some row →
    IsHistory (s.ledger.receiptsOf key) row.head
  fresh : ∀ key, Table.lookup OperationRow.key key s.ledger.operations = none →
    s.ledger.receiptsOf key = []
  unique : s.ledger.receipts.Pairwise fun a b => a.1 = b.1 → a.2.receiptDigest ≠ b.2.receiptDigest
  loaded : ∀ execution ∈ s.executions,
    (execution.record.command.key, execution.record.head) ∈ s.ledger.receipts
  claims : (s.ledger.claims.map ClaimRow.head).Nodup

lemma mem_receipts_of_head {l : Ledger} {key : Key} {head : Receipt}
    (history : IsHistory (l.receiptsOf key) head) : (key, head) ∈ l.receipts := by
  obtain ⟨entry, mem, rfl⟩ := mem_map.mp (mem_of_getLast? history.ends)
  obtain ⟨inside, same⟩ := mem_filter.mp mem
  exact of_decide_eq_true same ▸ inside

lemma eq_of_digest {receipts : List (Key × Receipt)}
    (unique : receipts.Pairwise fun a b => a.1 = b.1 → a.2.receiptDigest ≠ b.2.receiptDigest)
    {key : Key} {a b : Receipt} (first : (key, a) ∈ receipts) (second : (key, b) ∈ receipts)
    (same : a.receiptDigest = b.receiptDigest) : a = b := by
  induction unique with
  | nil => cases first
  | cons others _ ih =>
    rcases mem_cons.mp first with rfl | later
    · rcases mem_cons.mp second with eq | later'
      · exact (Prod.mk.inj eq).2.symm
      · exact absurd same (others _ later' rfl)
    · rcases mem_cons.mp second with rfl | later'
      · exact absurd same.symm (others _ later rfl)
      · exact ih later later'

lemma receiptsOf_snoc (l : Ledger) (receipts : List (Key × Receipt)) (key other : Key)
    (next : Receipt) (written : l.receipts = receipts ++ [(key, next)]) :
    l.receiptsOf other = (receipts.filter fun entry => entry.1 = other).map Prod.snd ++
      if key = other then [next] else [] := by
  rw [Ledger.receiptsOf, written, filter_append, map_append]
  split <;> simp_all

variable {row : ClaimRow}

lemma nodup_put {claims : List ClaimRow} (nodup : (claims.map ClaimRow.head).Nodup) :
    ((Table.put ClaimRow.head row claims).map ClaimRow.head).Nodup := by
  rw [Table.put, map_cons, nodup_cons]
  constructor
  · intro mem
    obtain ⟨other, inside, same⟩ := mem_map.mp mem
    exact of_decide_eq_true (mem_filter.mp inside).2 same
  · exact (filter_sublist.map _).nodup nodup

variable {a : Action R}

namespace Recorded

section

variable (recorded : Recorded s)
include recorded

/-- The execution knows the head as it is. -/
lemma head_eq {i : ℕ} {execution : Execution} {row : OperationRow}
    (held : s.executions[i]? = some execution)
    (found : Table.lookup OperationRow.key execution.record.command.key s.ledger.operations =
      some row) (same : row.head.receiptDigest = execution.record.head.receiptDigest) :
    row.head = execution.record.head :=
  eq_of_digest recorded.unique (mem_receipts_of_head (recorded.history _ row found))
    (recorded.loaded execution (mem_of_getElem? held)) same

/-- Executions keep what they have loaded. -/
lemma loaded_set {i : ℕ} {execution : Execution} {stage : Stage}
    {receipts : List (Key × Receipt)} (held : s.executions[i]? = some execution)
    (grown : s.ledger.receipts ⊆ receipts) :
    ∀ found ∈ s.executions.set i { execution with stage := stage },
      (found.record.command.key, found.record.head) ∈ receipts :=
  forall_mem_set (fun found mem => grown (recorded.loaded found mem))
    (grown (recorded.loaded execution (mem_of_getElem? held)))

/-- A step that leaves the receipts alone. -/
lemma of_same (operations : s'.ledger.operations = s.ledger.operations)
    (receipts : s'.ledger.receipts = s.ledger.receipts) (loaded : ∀ execution ∈ s'.executions,
      (execution.record.command.key, execution.record.head) ∈ s.ledger.receipts)
    (claims : (s'.ledger.claims.map ClaimRow.head).Nodup) : Recorded s' := by
  have same : ∀ key, s'.ledger.receiptsOf key = s.ledger.receiptsOf key := fun key => by
    rw [Ledger.receiptsOf, receipts, Ledger.receiptsOf]
  constructor
  case history =>
    intro key row found
    rw [same]
    exact recorded.history key row (operations ▸ found)
  case fresh =>
    intro key missing
    rw [same]
    exact recorded.fresh key (operations ▸ missing)
  case unique => exact receipts ▸ recorded.unique
  case loaded => exact receipts ▸ loaded
  case claims => exact claims

/-- The head is extended. -/
lemma of_appended {i : ℕ} {execution : Execution} {stage : Stage} {next : Receipt}
    (held : s.executions[i]? = some execution)
    (appended : Appended s.ledger s'.ledger execution.record.command execution.record.head next)
    (executions : s'.executions = s.executions.set i { execution with stage := stage })
    (claims : (s'.ledger.claims.map ClaimRow.head).Nodup) : Recorded s' := by
  obtain ⟨row, found, -, digest, operations⟩ := appended.written
  have key : row.key = execution.record.command.key := (Table.mem_of_lookup found).2
  have head := recorded.head_eq held found digest
  have receipts := fun other => receiptsOf_snoc s'.ledger _ _ other _ appended.receipts
  constructor
  case history =>
    intro other row' found'
    rw [receipts]
    by_cases same : other = execution.record.command.key
    · subst same
      rw [operations, ← key, show row.key = OperationRow.key { row with head := next } from rfl,
        Table.lookup_put_self] at found'
      cases found'
      rw [if_pos rfl]
      exact (recorded.history _ row found).snoc (head ▸ appended.extends_)
    · have elsewhere : other ≠ OperationRow.key { row with head := next } := key ▸ same
      rw [operations, Table.lookup_put_of_ne elsewhere] at found'
      rw [if_neg (Ne.symm same), append_nil]
      exact recorded.history other row' found'
  case fresh =>
    intro other missing
    rw [receipts]
    by_cases same : other = execution.record.command.key
    · subst same
      rw [operations, ← key, show row.key = OperationRow.key { row with head := next } from rfl,
        Table.lookup_put_self] at missing
      cases missing
    · have elsewhere : other ≠ OperationRow.key { row with head := next } := key ▸ same
      rw [operations, Table.lookup_put_of_ne elsewhere] at missing
      rw [if_neg (Ne.symm same), append_nil]
      exact recorded.fresh other missing
  case unique =>
    rw [appended.receipts]
    refine pairwise_append.mpr ⟨recorded.unique, pairwise_singleton _ _, ?_⟩
    intro entry mem last single same
    obtain rfl := mem_singleton.mp single
    exact appended.new entry mem same
  case loaded =>
    rw [executions, appended.receipts]
    exact recorded.loaded_set held (subset_append_left _ _)
  case claims => exact claims

/-- An operation is begun. -/
lemma begins {row : OperationRow}
    (new : Table.lookup OperationRow.key row.key s.ledger.operations = none)
    (first : row.head.sequence = 1) (requested : row.head.phase = .requested) :
    Recorded { s with ledger := { s.ledger with
      operations := Table.put OperationRow.key row s.ledger.operations
      receipts := s.ledger.receipts ++ [(row.key, row.head)] } } := by
  have nothing := recorded.fresh row.key new
  have absent : ∀ entry ∈ s.ledger.receipts, entry.1 ≠ row.key := by
    intro entry mem same
    have inside : entry.2 ∈ s.ledger.receiptsOf row.key :=
      mem_map.mpr ⟨entry, mem_filter.mpr ⟨mem, decide_eq_true same⟩, rfl⟩
    rw [nothing] at inside
    cases inside
  constructor
  case history =>
    intro other row' found
    rw [receiptsOf_snoc _ _ _ other _ rfl]
    by_cases same : other = row.key
    · subst same
      cases Table.lookup_put_self.symm.trans found
      have empty : (s.ledger.receipts.filter fun entry => entry.1 = row.key).map Prod.snd = [] :=
        nothing
      rw [if_pos rfl, empty]
      exact ⟨by simp [first, requested], .singleton _, rfl⟩
    · rw [Table.lookup_put_of_ne same] at found
      rw [if_neg (Ne.symm same), append_nil]
      exact recorded.history other row' found
  case fresh =>
    intro other missing
    rw [receiptsOf_snoc _ _ _ other _ rfl]
    by_cases same : other = row.key
    · subst same
      cases Table.lookup_put_self.symm.trans missing
    · rw [Table.lookup_put_of_ne same] at missing
      rw [if_neg (Ne.symm same), append_nil]
      exact recorded.fresh other missing
  case unique =>
    refine pairwise_append.mpr ⟨recorded.unique, pairwise_singleton _ _, ?_⟩
    intro entry mem last single same
    obtain rfl := mem_singleton.mp single
    exact absurd same (absent entry mem)
  case loaded =>
    exact fun execution mem => mem_append_left _ (recorded.loaded execution mem)
  case claims => exact recorded.claims

lemma step (moves : Moves g s a s') : Recorded s' := by
  cases moves with
  | outside later operations receipts claims guards =>
    exact recorded.of_same operations receipts recorded.loaded (claims ▸ recorded.claims)
  | begins row new first requested => exact recorded.begins new first requested
  | @loads record key _ stage loaded free =>
    refine recorded.of_same rfl rfl (forall_mem_snoc recorded.loaded ?_) recorded.claims
    have found := loadOperation_eq_some loaded
    have same : record.command.key = key := (Table.mem_of_lookup found).2
    dsimp only
    rw [same]
    exact mem_receipts_of_head (recorded.history key _ found)
  | enters held goes | refused held fresh | dispatches held granted =>
    exact recorded.of_same rfl rfl (recorded.loaded_set held (List.Subset.refl _)) recorded.claims
  | settles held goes found holds head token =>
    exact recorded.of_same rfl rfl (recorded.loaded_set held (List.Subset.refl _))
      (nodup_put recorded.claims)
  | accepts held appended claims requested accepted =>
    exact recorded.of_appended held appended rfl (claims ▸ recorded.claims)
  | acquires held acquiring solid fresh acquired holding permit spent =>
    exact recorded.of_same acquired.operations acquired.receipts
      (recorded.loaded_set held (List.Subset.refl _))
      (acquired.claims ▸ nodup_put recorded.claims)
  | appends held returned appended head found sequence holds claims goes =>
    exact recorded.of_appended held appended rfl (claims ▸ nodup_put recorded.claims)

end

lemma initial : Recorded {} := by
  constructor
  case history => exact nofun
  case fresh => exact fun _ _ => rfl
  case unique => exact .nil
  case loaded => exact fun _ mem => absurd mem not_mem_nil
  case claims => exact .nil

lemma of_reaches {admits : System → Action R → Prop}
    (reached : (System.machine g).Reaches admits s) : Recorded s :=
  reached.invariant Recorded (by rintro _ rfl; exact initial)
    fun _ _ _ recorded _ stepped => recorded.step (moves_of_act stepped)

end Recorded

/-! ### Claims that are gone -/

/-- The claim of a head that a token had is taken over, released or consumed. -/
def System.Superseded (g : Setting R) (s : System) (claim : Claim) : Prop :=
  ∀ row ∈ s.ledger.claims, row.head = claim.head →
    row.tokenDigest = g.tokenDigest claim.token → row.state ≠ .active

lemma Claim.Same.trans {a b c : Claim} (first : a.Same b) (second : b.Same c) : a.Same c := by
  unfold Claim.Same at first second ⊢
  rw [second, first]

/-- The row of a holder has its token and is active and not expired. -/
lemma holds_iff {clock : ℤ} {claim : Claim} (holds : Ledger.holds g clock claim row = true) :
    row.tokenDigest = g.tokenDigest claim.token ∧ row.state = .active ∧ clock < row.expiresAt := by
  simp only [Ledger.holds, Bool.and_eq_true, beq_iff_eq, decide_eq_true_eq] at holds
  exact ⟨holds.1.1.1, holds.1.2, holds.2⟩

/-- An execution whose claim is gone. -/
structure Gone (g : Setting R) (i : ℕ) (claim : Claim) (s : System) : Prop where
  superseded : s.Superseded g claim
  issued : (claim.token, i) ∈ s.issued
  held : ∃ execution, s.executions[i]? = some execution ∧
    System.acquiring execution.stage = false ∧
    ∀ holding, execution.stage.holding = some holding → claim.Same holding.claim

namespace Gone

variable {i j : ℕ} {claim : Claim} {execution : Execution} {stage : Stage}

section

variable (gone : Gone g i claim s)
include gone

/-- Another execution goes on, or this one without acquiring anything. -/
lemma held_set (found : s.executions[j]? = some execution)
    (goes : System.acquiring execution.stage = false → execution.stage.Goes stage) :
    ∃ after, (s.executions.set j { execution with stage := stage })[i]? = some after ∧
      System.acquiring after.stage = false ∧
      ∀ holding, after.stage.holding = some holding → claim.Same holding.claim := by
  obtain ⟨before, at_, spent, holds⟩ := gone.held
  by_cases same : j = i
  · subst same
    cases found.symm.trans at_
    refine ⟨_, List.getElem?_set_self (List.getElem?_eq_some_iff.mp found).1, ?_, ?_⟩
    · exact Bool.eq_false_iff.mpr fun acquiring =>
        Bool.false_ne_true (spent.symm.trans ((goes spent).acquired acquiring))
    · intro holding eq
      obtain ⟨holding', eq', renewed⟩ := (goes spent).claim holding eq
      exact (holds holding' eq').trans renewed
  · exact ⟨before, by rw [getElem?_set_ne same, at_], spent, holds⟩

/-- A row that is not active with the token changes nothing. -/
lemma superseded_put {claims : List ClaimRow}
    (new : row.head = claim.head → row.tokenDigest = g.tokenDigest claim.token →
      row.state ≠ .active) (written : claims = Table.put ClaimRow.head row s.ledger.claims) :
    ∀ x ∈ claims, x.head = claim.head → x.tokenDigest = g.tokenDigest claim.token →
      x.state ≠ .active := by
  intro x mem
  rw [written] at mem
  rcases Table.mem_put.mp mem with rfl | ⟨old, -⟩
  · exact new
  · exact gone.superseded x old

/-- **A claim that is gone stays gone.** -/
lemma step (moves : Moves g s a s') : Gone g i claim s' := by
  cases moves with
  | outside later operations receipts claims guards =>
    exact ⟨fun row mem => gone.superseded row (claims ▸ mem), gone.issued, gone.held⟩
  | begins row new first requested => exact ⟨gone.superseded, gone.issued, gone.held⟩
  | loads stage loaded free =>
    obtain ⟨before, at_, rest⟩ := gone.held
    have bound := (List.getElem?_eq_some_iff.mp at_).1
    exact ⟨gone.superseded, gone.issued, before, (List.getElem?_append_left bound).trans at_, rest⟩
  | enters held goes => exact ⟨gone.superseded, gone.issued, gone.held_set held fun _ => goes⟩
  | @settles _ _ row _ row' _ holding held goes found holds head token =>
    refine ⟨gone.superseded_put (fun same digest => ?_) rfl, gone.issued,
      gone.held_set held fun _ => goes⟩
    -- The holder has another token, since its row was active.
    have inside := (Table.mem_of_lookup found).1
    exact absurd (holds_iff holds).2.1 (gone.superseded row inside (head ▸ same) (token ▸ digest))
  | accepts held appended claims requested accepted =>
    exact ⟨fun row mem => gone.superseded row (claims ▸ mem), gone.issued,
      gone.held_set held fun _ => .done _⟩
  | @acquires _ _ token _ _ _ _ acquiredClaim held acquiring solid fresh acquired holding permit
      spent =>
      refine ⟨gone.superseded_put (fun same digest => ?_) acquired.claims,
        mem_cons_of_mem _ gone.issued,
        gone.held_set held fun unspent => absurd (unspent.symm.trans acquiring) Bool.false_ne_true⟩
      -- A token that was given out before is not given out again.
      have tokens : acquiredClaim.token = claim.token := g.tokenDigest_injective digest
      rw [acquired.token, solid] at tokens
      exact absurd gone.issued (tokens ▸ fresh i)
  | refused held fresh =>
    exact ⟨gone.superseded, mem_cons_of_mem _ gone.issued, gone.held_set held fun _ => .done _⟩
  | @dispatches _ _ _ _ holding held granted =>
    refine ⟨gone.superseded, gone.issued, gone.held_set held fun _ => ?_⟩
    exact goes_on (congrArg Stage.holding granted) rfl fun _ _ eq => nomatch eq
  | appends held returned appended head found sequence holds claims goes =>
    refine ⟨gone.superseded_put (fun _ _ active => ?_) claims, gone.issued,
      gone.held_set held fun _ => goes⟩
    cases active

/-- Its result is not appended. -/
lemma not_appended {env : Environment} {fate : Fate} (moves : Moves g s (.appends i env fate) s') :
    s'.ledger.receipts = s.ledger.receipts := by
  cases moves with
  | outside later operations receipts claims guards => exact receipts
  | enters held goes => rfl
  | settles held goes found holds head token => rfl
  | @appends _ _ _ row _ _ holding _ _ held returned appended head found sequence holds claims
      goes =>
      obtain ⟨before, at_, -, same⟩ := gone.held
      cases held.symm.trans at_
      have renewed := same holding (congrArg Stage.holding returned)
      obtain ⟨inside, key⟩ := Table.mem_of_lookup found
      obtain ⟨token, active, -⟩ := holds_iff holds
      rw [renewed.token] at token
      exact absurd active (gone.superseded row inside (key.trans renewed.head) token)

end

end Gone

/-! ### Steps that append -/

/-- The row of a head with the token of a claim, active and not expired. -/
structure System.Stored (g : Setting R) (s : System) (key : Key) (head : Receipt) (claim : Claim)
    (row : ClaimRow) : Prop where
  member : row ∈ s.ledger.claims
  key : row.key = key
  sequence : row.headSequence = head.sequence
  digest : row.headReceiptDigest = head.receiptDigest
  token : row.tokenDigest = g.tokenDigest claim.token
  active : row.state = .active
  unexpired : s.clock < row.expiresAt

/-- What a step may do to the receipts: nothing, begin an operation, or extend the head of an
operation by one.  The coordinator accepts a request; everything after it needs the claim. -/
inductive Extends (g : Setting R) (s s' : System) : Action R → Prop where
  | none {a : Action R} (same : s'.ledger.receipts = s.ledger.receipts) : Extends g s s' a
  | begins {env : Environment} (row : OperationRow)
      (new : s.ledger.receiptsOf row.key = []) (requested : row.head.phase = .requested)
      (written : s'.ledger.receipts = s.ledger.receipts ++ [(row.key, row.head)]) :
      Extends g s s' (.begins row env)
  | extends_ {a : Action R} (command : Command) (previous next : Receipt)
      (head : IsHistory (s.ledger.receiptsOf command.key) previous)
      (one : next.sequence = previous.sequence + 1 ∧
        next.previousReceiptDigest = previous.receiptDigest)
      (written : s'.ledger.receipts = s.ledger.receipts ++ [(command.key, next)])
      (allowed : previous.phase = .requested ∧ next.phase = .accepted ∨
        ∃ i env fate execution holding row, a = .appends i env fate ∧
          s.executions[i]? = some execution ∧ execution.stage = .returned holding next ∧
          s.Stored g command.key previous holding.claim row) :
      Extends g s s' a

lemma Recorded.extends_of_moves (recorded : Recorded s) (moves : Moves g s a s')
    : Extends g s s' a := by
  cases moves with
  | outside later operations receipts claims guards => exact .none receipts
  | begins row new first requested => exact .begins row (recorded.fresh _ new) requested rfl
  | acquires held acquiring solid fresh acquired holding permit spent =>
    exact .none acquired.receipts
  | loads | enters | settles | refused | dispatches => exact .none rfl
  | accepts held appended claims requested accepted =>
    obtain ⟨row, found, -, digest, -⟩ := appended.written
    have head := recorded.head_eq held found digest
    exact .extends_ _ _ _ (head ▸ recorded.history _ row found) appended.extends_
      appended.receipts (.inl ⟨requested, accepted⟩)
  | appends held returned appended head found sequence holds claims goes =>
    obtain ⟨row, there, -, digest, -⟩ := appended.written
    have same := recorded.head_eq held there digest
    obtain ⟨token, active, unexpired⟩ := holds_iff holds
    obtain ⟨inside, at_⟩ := Table.mem_of_lookup found
    obtain ⟨key, digest'⟩ := Prod.mk.inj (at_.trans head)
    exact .extends_ _ _ _ (same ▸ recorded.history _ row there) appended.extends_
      appended.receipts (.inr ⟨_, _, _, _, _, _, rfl, held, returned,
        ⟨inside, key, sequence, digest', token, active, unexpired⟩⟩)

/-- **Only the holder of the claim of a head advances an operation.** -/
theorem only_holder_advances (reached : (System.machine g).Reaches (fun _ _ => True) s) :
    (∀ key row, Table.lookup OperationRow.key key s.ledger.operations = some row →
      IsHistory (s.ledger.receiptsOf key) row.head) ∧
    (∀ a s', (System.machine g).step s a s' → Extends g s s' a) ∧
    (∀ row ∈ s.ledger.claims, ∀ row' ∈ s.ledger.claims, row.head = row'.head → row = row') ∧
    ∀ (i : ℕ) execution holding, s.executions[i]? = some execution →
      execution.stage.holding = some holding → s.Superseded g holding.claim →
      ∀ t, (System.machine g).Later (fun _ _ => True) s t → ∀ env fate t',
        (System.machine g).step t (.appends i env fate) t' →
        t'.ledger.receipts = t.ledger.receipts := by
  have recorded := Recorded.of_reaches reached
  refine ⟨recorded.history, fun a s' stepped => recorded.extends_of_moves (moves_of_act stepped),
    fun row member row' member' => inj_on_of_nodup_map recorded.claims member member', ?_⟩
  intro i execution holding held holds superseded t later env fate t' stepped
  have spent : System.acquiring execution.stage = false := by
    cases stage : execution.stage with
    | loaded | prepared binding => rw [stage] at holds; cases holds
    | granted | executing | returned | leaving | done => rfl
  have gone : Gone g i holding.claim s := by
    refine ⟨superseded, (Custodial.of_reaches reached).holders i execution holding held holds,
      execution, held, spent, fun holding' eq => ?_⟩
    cases holds.symm.trans eq
    exact .refl _
  have still : Gone g i holding.claim t :=
    later.keeps (Gone g i holding.claim)
      (fun _ _ _ _ before _ stepped => before.step (moves_of_act stepped)) reached gone
  exact still.not_appended (moves_of_act stepped)

/-- A coordinator stalls, its claim expires and another takes it over; what the first brings back
is not appended. -/
theorem only_holder_advances_stalled : ∃ (s : System) (execution : Execution) (holding : Holding),
      (System.machine openSetting).Reaches (fun _ _ => True) s ∧
      s.executions[1]? = some execution ∧ execution.stage.holding = some holding ∧
      s.Superseded openSetting holding.claim ∧
      ∀ t, (System.machine openSetting).Later (fun _ _ => True) s t → ∀ env fate t',
        (System.machine openSetting).step t (.appends 1 env fate) t' →
        t'.ledger.receipts = t.ledger.receipts := by
  obtain ⟨s, reached, execution, held, holding, stage, gone⟩ := System.enacted.reaches_any
    (System.accepted .plan "plan" ++ [.loads ⟨"tenant", "plan"⟩ "first",
      .loads ⟨"tenant", "plan"⟩ "second", .acquires 1 "one" openEnvironment .seen, .calls 1,
      .ticks 100, .acquires 2 "two" openEnvironment .seen])
    (fun s => ∃ execution ∈ s.executions[1]?, ∃ holding ∈ execution.stage.holding,
      ∀ row ∈ s.ledger.claims, row.head = holding.claim.head →
        row.tokenDigest = holding.claim.token → row.state ≠ .active)
    (by decide +kernel)
  have superseded : s.Superseded openSetting holding.claim := gone
  exact ⟨s, execution, holding, reached, held, stage, superseded,
    (only_holder_advances reached).2.2.2 1 execution holding held stage superseded⟩

end TechStack.ProviderControl
