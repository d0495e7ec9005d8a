import TechStack.ProviderControl.Steps

/-!
# Servers are created at most once

In the at-most-once mode an execution calls `DispatchPreparedProvision` only with the permit that
it got in the transaction that inserted the guard of the generation.  A guard is never deleted
and there is one for each generation; it carries the digest of the token of the claim, and a
token belongs to one execution, which calls once.  So a generation is dispatched at most once,
whatever is lost in between (`dispatched_at_most_once`).
-/

namespace TechStack.ProviderControl

open List Lib

variable {R : Type} {g : Setting R} {s s' : System}

/-- Stages from which no dispatch can come. -/
def Stage.Spent (stage : Stage) : Prop :=
  System.acquiring stage = false ∧ ∀ holding permit, stage ≠ .granted holding (some permit)

/-- Guards, tokens and dispatches belong together. -/
structure Custodial (g : Setting R) (s : System) : Prop where
  guards : (s.ledger.guards.map (·.generation)).Nodup
  issued : ∀ token i j, (token, i) ∈ s.issued → (token, j) ∈ s.issued → i = j
  holders : ∀ i execution holding, s.executions[i]? = some execution →
    execution.stage.holding = some holding → (holding.claim.token, i) ∈ s.issued
  permits : ∀ (i : ℕ) execution holding permit, s.executions[i]? = some execution →
    execution.stage = .granted holding (some permit) →
    ∃ guard ∈ s.ledger.guards, guard.Carries g execution.record.command holding.claim permit.1
  dispatched : ∀ d ∈ s.dispatches, (d.claim.token, d.execution) ∈ s.issued ∧
    ∃ guard ∈ s.ledger.guards, guard.Carries g d.command d.claim d.binding
  spent : ∀ d ∈ s.dispatches, ∃ execution, s.executions[d.execution]? = some execution ∧
    execution.stage.Spent
  once : s.dispatches.Pairwise fun a b => a.execution ≠ b.execution

lemma GuardRow.Carries.of_same {guard : GuardRow} {command : Command} {claim claim' : Claim}
    {binding : Binding} (carries : guard.Carries g command claim binding)
    (same : claim.Same claim') : guard.Carries g command claim' binding :=
  ⟨carries.generation, by rw [carries.token, same.token], carries.prepared⟩

lemma GuardsGrow.subset {guards guards' : List GuardRow} (grown : GuardsGrow guards guards') :
    guards ⊆ guards' := by
  rcases grown with rfl | ⟨guard, rfl, -⟩
  · exact List.Subset.refl _
  · exact subset_cons_self _ _

/-- An execution that was overwritten is the new one, and the others are as before. -/
lemma executions_set {l : List Execution} {i j : ℕ} {execution next found : Execution}
    (held : l[i]? = some execution) (eq : (l.set i next)[j]? = some found) :
    j = i ∧ found = next ∨ j ≠ i ∧ l[j]? = some found := by
  by_cases same : i = j
  · subst same
    rw [List.getElem?_set_self (List.getElem?_eq_some_iff.mp held).1] at eq
    exact .inl ⟨rfl, (Option.some.inj eq).symm⟩
  · rw [List.getElem?_set_ne same] at eq
    exact .inr ⟨Ne.symm same, eq⟩

lemma Stage.Goes.spent {stage stage' : Stage} (goes : stage.Goes stage') (spent : stage.Spent) :
    stage'.Spent := by
  refine ⟨Bool.eq_false_iff.mpr fun acquiring => ?_, fun holding permit eq => ?_⟩
  · exact Bool.false_ne_true (spent.1.symm.trans (goes.acquired acquiring))
  · obtain ⟨before, same, -⟩ := goes.permit holding permit eq
    exact spent.2 before permit same

namespace Custodial

variable {i : ℕ} {execution : Execution} {stage : Stage}

section

variable (custodial : Custodial g s)
include custodial

/-- What was spent stays spent when an execution goes on. -/
lemma spent_set (held : s.executions[i]? = some execution)
    (goes : execution.stage.Spent → stage.Spent) :
    ∀ d ∈ s.dispatches, ∃ found,
      (s.executions.set i { execution with stage := stage })[d.execution]? = some found ∧
        found.stage.Spent := by
  intro d mem
  obtain ⟨before, at_, spent⟩ := custodial.spent d mem
  by_cases same : i = d.execution
  · subst same
    cases held.symm.trans at_
    exact ⟨_, List.getElem?_set_self (List.getElem?_eq_some_iff.mp held).1, goes spent⟩
  · exact ⟨before, by rw [List.getElem?_set_ne same, at_], spent⟩

/-- An execution goes on without acquiring anything. -/
lemma of_goes (held : s.executions[i]? = some execution) (goes : execution.stage.Goes stage)
    (guards : s'.ledger.guards = s.ledger.guards)
    (executions : s'.executions = s.executions.set i { execution with stage := stage })
    (issued : s'.issued = s.issued) (dispatches : s'.dispatches = s.dispatches) :
    Custodial g s' := by
  constructor
  case guards => exact guards ▸ custodial.guards
  case issued => exact issued ▸ custodial.issued
  case holders =>
    intro j found holding eq holds
    rw [executions] at eq
    rw [issued]
    rcases executions_set held eq with ⟨rfl, rfl⟩ | ⟨-, old⟩
    · obtain ⟨before, holds', same⟩ := goes.claim holding holds
      rw [same.token]
      exact custodial.holders _ execution before held holds'
    · exact custodial.holders j found holding old holds
  case permits =>
    intro j found holding permit eq granted
    rw [executions] at eq
    rw [guards]
    rcases executions_set held eq with ⟨rfl, rfl⟩ | ⟨-, old⟩
    · obtain ⟨before, granted', same⟩ := goes.permit holding permit granted
      obtain ⟨guard, mem, carries⟩ := custodial.permits _ execution before permit held granted'
      exact ⟨guard, mem, carries.of_same same⟩
    · exact custodial.permits j found holding permit old granted
  case dispatched =>
    rw [dispatches, guards, issued]
    exact custodial.dispatched
  case spent =>
    rw [dispatches, executions]
    exact custodial.spent_set held goes.spent
  case once => exact dispatches ▸ custodial.once

/-- Nothing that matters has changed. -/
lemma of_same (guards : s'.ledger.guards = s.ledger.guards)
    (executions : s'.executions = s.executions) (issued : s'.issued = s.issued)
    (dispatches : s'.dispatches = s.dispatches) : Custodial g s' := by
  constructor
  case guards => exact guards ▸ custodial.guards
  case issued => exact issued ▸ custodial.issued
  case holders => exact executions ▸ issued ▸ custodial.holders
  case permits => exact executions ▸ guards ▸ custodial.permits
  case dispatched =>
    rw [dispatches, guards, issued]
    exact custodial.dispatched
  case spent => exact dispatches ▸ executions ▸ custodial.spent
  case once => exact dispatches ▸ custodial.once

/-- A new execution has nothing. -/
lemma loads {record : Record} {owner : String} (free : stage = .loaded ∨ stage = .done) :
    Custodial g { s with executions := s.executions ++ [⟨record, owner, stage⟩] } := by
  have bare : stage.holding = none := by rcases free with rfl | rfl <;> rfl
  refine { custodial with holders := ?_, permits := ?_, spent := ?_ }
  · intro j found holding eq holds
    rcases getElem?_snoc eq with old | ⟨-, rfl⟩
    · exact custodial.holders j found holding old holds
    · cases bare.symm.trans holds
  · intro j found holding permit eq granted
    rcases getElem?_snoc eq with old | ⟨-, rfl⟩
    · exact custodial.permits j found holding permit old granted
    · have holds : stage.holding = some holding := congrArg Stage.holding granted
      cases bare.symm.trans holds
  · intro d mem
    obtain ⟨before, at_, spent⟩ := custodial.spent d mem
    exact ⟨before, List.getElem?_append_left (List.getElem?_eq_some_iff.mp at_).1 ▸ at_, spent⟩

/-- A token is given out, and the guards may grow. -/
lemma acquires {token : String} (held : s.executions[i]? = some execution)
    (fresh : ∀ j, (token, j) ∉ s.issued) (grown : GuardsGrow s.ledger.guards s'.ledger.guards)
    (holding : ∀ holding, stage.holding = some holding → holding.claim.token = token)
    (permit : ∀ holding permit, stage = .granted holding (some permit) → ∃ guard ∈ s'.ledger.guards,
        guard.Carries g execution.record.command holding.claim permit.1)
    (unspent : execution.stage.Spent → stage.Spent)
    (executions : s'.executions = s.executions.set i { execution with stage := stage })
    (issued : s'.issued = (token, i) :: s.issued) (dispatches : s'.dispatches = s.dispatches) :
    Custodial g s' := by
  constructor
  case guards =>
    rcases grown with same | ⟨guard, eq, new⟩
    · exact same ▸ custodial.guards
    · rw [eq, map_cons]
      refine nodup_cons.mpr ⟨fun mem => ?_, custodial.guards⟩
      obtain ⟨other, inside, same⟩ := mem_map.mp mem
      exact new other inside same
  case issued =>
    rw [issued]
    intro token' a b first second
    rcases mem_cons.mp first with eq | old
    · obtain ⟨rfl, rfl⟩ := Prod.mk.inj eq
      rcases mem_cons.mp second with eq' | old'
      · exact (Prod.mk.inj eq').2.symm
      · exact absurd old' (fresh b)
    · rcases mem_cons.mp second with eq' | old'
      · obtain ⟨rfl, rfl⟩ := Prod.mk.inj eq'
        exact absurd old (fresh a)
      · exact custodial.issued token' a b old old'
  case holders =>
    intro j found holding' eq holds
    rw [executions] at eq
    rw [issued]
    rcases executions_set held eq with ⟨rfl, rfl⟩ | ⟨-, old⟩
    · rw [holding holding' holds]
      exact mem_cons_self
    · exact mem_cons_of_mem _ (custodial.holders j found holding' old holds)
  case permits =>
    intro j found holding' permit' eq granted
    rw [executions] at eq
    rcases executions_set held eq with ⟨rfl, rfl⟩ | ⟨-, old⟩
    · exact permit holding' permit' granted
    · obtain ⟨guard, mem, carries⟩ := custodial.permits j found holding' permit' old granted
      exact ⟨guard, grown.subset mem, carries⟩
  case dispatched =>
    rw [dispatches, issued]
    intro d mem
    obtain ⟨token', guard, inside, carries⟩ := custodial.dispatched d mem
    exact ⟨mem_cons_of_mem _ token', guard, grown.subset inside, carries⟩
  case spent =>
    rw [dispatches, executions]
    exact custodial.spent_set held unspent
  case once => exact dispatches ▸ custodial.once

/-- The permit is used: the execution can call no more. -/
lemma dispatches {holding : Holding} {binding : Binding} {permit : Permit}
    (held : s.executions[i]? = some execution)
    (granted : execution.stage = .granted holding (some (binding, permit))) :
    Custodial g { s.enter i execution (.executing holding) with
      dispatches := s.dispatches ++ [⟨i, execution.record.command, holding.claim, binding⟩] } := by
  have holds : execution.stage.holding = some holding := congrArg Stage.holding granted
  have called : Stage.Spent (.executing holding) := ⟨rfl, fun _ _ eq => nomatch eq⟩
  have entered : Custodial g (s.enter i execution (.executing holding)) :=
    custodial.of_goes held (goes_on holds rfl called.2) rfl rfl rfl rfl
  refine { entered with dispatched := ?_, spent := ?_, once := ?_ }
  · exact forall_mem_snoc entered.dispatched ⟨custodial.holders i execution holding held holds,
        custodial.permits i execution holding _ held granted⟩
  · exact forall_mem_snoc entered.spent
      ⟨_, List.getElem?_set_self (List.getElem?_eq_some_iff.mp held).1, called⟩
  · refine List.pairwise_append.mpr ⟨custodial.once, List.pairwise_singleton _ _, ?_⟩
    intro before old after new same
    obtain rfl := List.mem_singleton.mp new
    -- An execution that has called is spent, and this one still has its permit.
    obtain ⟨found, at_, spent⟩ := custodial.spent before old
    rw [same] at at_
    cases held.symm.trans at_
    exact spent.2 _ _ granted

end

lemma initial : Custodial g {} := by
  constructor
  case guards => exact .nil
  case once => exact .nil
  case issued => exact fun _ _ _ mem => absurd mem not_mem_nil
  case dispatched => exact fun _ mem => absurd mem not_mem_nil
  case spent => exact fun _ mem => absurd mem not_mem_nil
  case holders => exact fun _ _ _ eq => by cases eq
  case permits => exact fun _ _ _ _ eq => by cases eq

/-- **Every step keeps custody.** -/
lemma step (custodial : Custodial g s) {a : Action R} (moves : Moves g s a s') :
    Custodial g s' := by
  cases moves with
  | outside later operations receipts claims guards => exact custodial.of_same guards rfl rfl rfl
  | begins row new first requested => exact custodial.of_same rfl rfl rfl rfl
  | loads stage loaded free => exact custodial.loads free
  | enters held goes => exact custodial.of_goes held goes rfl rfl rfl rfl
  | settles held goes found holds head token => exact custodial.of_goes held goes rfl rfl rfl rfl
  | accepts held appended claims requested accepted =>
    exact custodial.of_goes held (.done _) appended.guards rfl rfl rfl
  | appends held returned appended head found sequence holds claims goes =>
    exact custodial.of_goes held goes appended.guards rfl rfl rfl
  | dispatches held granted => exact custodial.dispatches held granted
  | refused held fresh =>
    refine custodial.acquires held fresh (.inl rfl) ?_ ?_ (Stage.Goes.done _).spent rfl rfl rfl
    · exact fun _ eq => nomatch eq
    · exact fun _ _ eq => nomatch eq
  | acquires held acquiring solid fresh acquired holding permit spent =>
    refine custodial.acquires held fresh acquired.guards ?_ ?_ ?_ rfl rfl rfl
    · intro holding' eq
      rw [holding holding' eq, acquired.token, solid]
    · intro holding' permit' eq
      rw [holding holding' (congrArg Stage.holding eq)]
      exact permit holding' permit' eq
    · exact fun unspent => absurd (unspent.1.symm.trans acquiring) Bool.false_ne_true

lemma of_reaches {admits : System → Action R → Prop}
    (reached : (System.machine g).Reaches admits s) : Custodial g s :=
  reached.invariant (Custodial g) (by rintro _ rfl; exact initial)
    fun _ _ _ custodial _ stepped => custodial.step (moves_of_act stepped)

/-- Two dispatches of one generation are one. -/
lemma dispatch_unique (custodial : Custodial g s) {d d' : Dispatch} (mem : d ∈ s.dispatches)
    (mem' : d' ∈ s.dispatches) (same : d.command.generation = d'.command.generation) :
    d.execution = d'.execution := by
  obtain ⟨issued, guard, inside, carries⟩ := custodial.dispatched d mem
  obtain ⟨issued', guard', inside', carries'⟩ := custodial.dispatched d' mem'
  have generations : guard.generation = guard'.generation :=
    carries.generation.trans (same.trans carries'.generation.symm)
  obtain rfl := inj_on_of_nodup_map custodial.guards inside inside' generations
  have token : d.claim.token = d'.claim.token :=
    g.tokenDigest_injective (carries.token.symm.trans carries'.token)
  exact custodial.issued _ _ _ issued (token ▸ issued')

end Custodial

/-- The dispatches of a generation. -/
def System.dispatchesOf (s : System) (generation : Generation) : List Dispatch :=
  s.dispatches.filter fun d => d.command.generation = generation

/-- A dispatch comes after a guard that carries its claim and its prepared request. -/
def System.Guarded (g : Setting R) (s : System) (d : Dispatch) : Prop :=
  ∃ guard ∈ s.ledger.guards, guard.generation = d.command.generation ∧
    guard.tokenDigest = g.tokenDigest d.claim.token ∧ guard.prepared = some d.binding

/-- **A generation is dispatched at most once, and every dispatch comes after a committed guard
that carries the token of its claim and its prepared request.** -/
theorem dispatched_at_most_once (reached : (System.machine g).Reaches (fun _ _ => True) s) :
    (∀ generation, (s.dispatchesOf generation).length ≤ 1) ∧
      ∀ a s', (System.machine g).step s a s' → s'.dispatches = s.dispatches ∨
        ∃ d, s'.dispatches = s.dispatches ++ [d] ∧ s.Guarded g d := by
  have custodial := Custodial.of_reaches reached
  constructor
  · intro generation
    have apart : (s.dispatchesOf generation).Pairwise fun a b => a.execution ≠ b.execution :=
      custodial.once.filter _
    -- Two dispatches of the generation would be of one execution.
    match listed : s.dispatchesOf generation, apart with
    | [], _ => exact Nat.zero_le _
    | [_], _ => exact le_rfl
    | first :: second :: rest, apart =>
      have members : ∀ d ∈ [first, second], d ∈ s.dispatches ∧
          d.command.generation = generation := by
        intro d member
        have inside : d ∈ s.dispatchesOf generation := by
          rw [listed]
          exact mem_of_mem_take (i := 2) member
        exact ⟨mem_of_mem_filter inside, of_decide_eq_true (mem_filter.mp inside).2⟩
      obtain ⟨one, first'⟩ := members first (by simp)
      obtain ⟨two, second'⟩ := members second (by simp)
      have same := custodial.dispatch_unique one two (first'.trans second'.symm)
      exact absurd same ((pairwise_cons.mp apart).1 second mem_cons_self)
  · intro a s' stepped
    cases moves_of_act stepped with
    | dispatches held granted =>
      obtain ⟨guard, member, carries⟩ := custodial.permits _ _ _ _ held granted
      exact .inr ⟨_, rfl, guard, member, carries.generation, carries.token, carries.prepared⟩
    | outside | begins | loads | enters | settles | accepts | acquires | refused | appends =>
      exact .inl rfl

/-- The commit of the guard is seen, a server is created, and the process stops; a second
coordinator finds the guard. -/
theorem dispatched_at_most_once_stopped :
    ∃ s, (System.machine openSetting).Reaches (fun _ _ => True) s ∧ s.dispatches.length = 1 ∧
      s.executions.length = 3 ∧
      (s.dispatchesOf ⟨"tenant", "lease", "generation"⟩).length ≤ 1 := by
  obtain ⟨s, reached, once, executions⟩ := System.enacted.reaches_any (System.accepted .provision "create" ++
      [.loads ⟨"tenant", "create"⟩ "first",
        .prepares 1 ⟨"request", "custody", "connection", "correlation", "manifest"⟩,
        .acquires 1 "token" openEnvironment .seen, .calls 1, .stops 1, .ticks 100,
        .loads ⟨"tenant", "create"⟩ "second"])
    (fun s => s.dispatches.length = 1 ∧ s.executions.length = 3) (by decide +kernel)
  exact ⟨s, reached, once, executions, (dispatched_at_most_once reached).1 _⟩

end TechStack.ProviderControl
