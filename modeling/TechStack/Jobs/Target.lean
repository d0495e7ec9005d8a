import TechStack.Lib.Slots
import TechStack.Lib.Text
import TechStack.Lib.Transition

/-!
# One handler for each target

The workers of the job queue run at most one handler for a target at a time.  A target has an
entry in a map: a channel with room for one token, and the number of workers that refer to the
entry.  `acquireTargetExecution` looks the entry up or makes it and adds a reference in one
locked section, then waits for the token; `releaseTarget` puts the token back and drops the
reference in another locked section, which removes an entry nobody refers to.  A worker whose
context ends while it waits drops its reference without ever holding the token.

Every locked section and every operation on a channel is one step, so the steps of any number
of workers interleave.  The invariant `Exclusive` says what the map, the counts and the tokens
have to do with the workers under way; mutual exclusion is read off it.

A job without a target is not excluded at all: the key of such a job is made of nothing but
the separator, and `acquireTargetExecution` returns at once.
-/

namespace TechStack.Jobs

open Std (ExtTreeMap)
open List Option Lib

/-! ### The queue's targets -/

/-- The key of a job's target. -/
def targetKey (targetType targetID : String) : String :=
  trimSpace targetType ++ "\x00" ++ trimSpace targetID

/-- `strings.Trim(key, "\x00") == ""`: no target is named. -/
def untargeted (key : String) : Bool := key.toList.all (· == '\x00')

/-- `jobTargetExecution`: whether the token is in the channel, and the references. -/
structure TargetExecution where
  token : Bool
  refs : ℤ
  deriving DecidableEq

/-- Where a call of `processJob` is. -/
inductive Stage where
  /-- In the `select`, after the locked section that added the reference. -/
  | waiting
  /-- It has the token and has not called the handler. -/
  | acquired
  | handling
  | handled
  /-- It has put the token back. -/
  | returned
  /-- Its context ended while it waited. -/
  | aborted
  | done
  deriving DecidableEq

/-- The token is with the session. -/
def Stage.holding : Stage → Bool
  | .acquired | .handling | .handled => true
  | .waiting | .returned | .aborted | .done => false

/-- A call of `processJob`: its key, its entry unless it is exempt, where it is, and how
often it has dropped a reference. -/
structure Session where
  key : String
  entry : Option ℕ
  stage : Stage
  releases : ℕ

/-- `q.targets`, the entries it has ever held, and the calls of `processJob`.  An entry is
named by the order in which the entries were made. -/
structure Targets where
  targets : ExtTreeMap String ℕ compare
  executions : List TargetExecution
  sessions : List Session

/-- The steps of the workers. -/
inductive TargetMove where
  | acquire (targetType targetID : String)
  | receive (session : ℕ)
  | abort (session : ℕ)
  | invoke (session : ℕ)
  | finish (session : ℕ)
  | putBack (session : ℕ)
  | releaseRef (session : ℕ)

variable {entry : ℕ}

namespace Session

/-- The session refers to the entry: its reference is not dropped yet. -/
def refers (session : Session) (entry : ℕ) : Bool :=
  decide (session.entry = some entry ∧ session.stage ≠ .done)

/-- The session has the token of the entry. -/
def holds (session : Session) (entry : ℕ) : Bool :=
  decide (session.entry = some entry ∧ session.stage.holding = true)

@[simp] lemma refers_iff {session : Session} :
    session.refers entry = true ↔ session.entry = some entry ∧ session.stage ≠ .done := by
  simp [refers]

@[simp] lemma holds_iff {session : Session} :
    session.holds entry = true ↔ session.entry = some entry ∧ session.stage.holding = true := by
  simp [holds]

end Session

namespace Targets

/-- The queue before any job. -/
def empty : Targets := ⟨∅, [], []⟩

variable (q : Targets)

/-- The locked section of `acquireTargetExecution`. -/
def acquire (key : String) : Targets :=
  if untargeted key then { q with sessions := q.sessions ++ [⟨key, none, .acquired, 0⟩] }
  else
    match q.targets[key]? with
    | some entry =>
      { q with
        executions := q.executions.modify entry fun e => { e with refs := e.refs + 1 }
        sessions := q.sessions ++ [⟨key, some entry, .waiting, 0⟩] }
    | none =>
      { targets := q.targets.insert key q.executions.length
        executions := q.executions ++ [⟨true, 1⟩]
        sessions := q.sessions ++ [⟨key, some q.executions.length, .waiting, 0⟩] }

/-- `releaseTargetExecutionRef`. -/
def releaseTargetExecutionRef (key : String) (entry : ℕ) : Targets :=
  let executions := q.executions.modify entry fun e => { e with refs := e.refs - 1 }
  let unused := executions[entry]?.any (·.refs == 0)
  { q with
    executions
    targets := if unused && q.targets[key]? == some entry then q.targets.erase key
      else q.targets }

/-- The session moves on. -/
def put (i : ℕ) (session : Session) : Targets :=
  { q with sessions := q.sessions.set i session }

/-- The token of an entry is taken or put back. -/
def setToken (entry : ℕ) (token : Bool) : Targets :=
  { q with executions := q.executions.modify entry fun e => { e with token } }

/-- The token is in the channel of the entry. -/
def ready (entry : ℕ) : Bool := q.executions[entry]?.any (·.token)

/-- What a step does, when it can be taken. -/
def act : TargetMove → Option Targets
  | .acquire targetType targetID => some (q.acquire (targetKey targetType targetID))
  | .receive i =>
    match q.sessions[i]? with
    | some ⟨key, some entry, .waiting, n⟩ =>
      if q.ready entry then
        some ((q.setToken entry false).put i ⟨key, some entry, .acquired, n⟩)
      else none
    | _ => none
  | .abort i =>
    match q.sessions[i]? with
    | some ⟨key, some entry, .waiting, n⟩ => some (q.put i ⟨key, some entry, .aborted, n⟩)
    | _ => none
  | .invoke i =>
    match q.sessions[i]? with
    | some ⟨key, entry, .acquired, n⟩ => some (q.put i ⟨key, entry, .handling, n⟩)
    | _ => none
  | .finish i =>
    match q.sessions[i]? with
    | some ⟨key, entry, .handling, n⟩ => some (q.put i ⟨key, entry, .handled, n⟩)
    | _ => none
  | .putBack i =>
    match q.sessions[i]? with
    | some ⟨key, entry, stage, n⟩ =>
      -- The handler may never have been called: the job may not have been begun.
      if stage = .acquired ∨ stage = .handled then
        match entry with
        | none => some (q.put i ⟨key, none, .done, n⟩)
        | some entry =>
          -- A channel with room for one blocks the sender while it is full.
          if q.ready entry then none
          else some ((q.setToken entry true).put i ⟨key, some entry, .returned, n⟩)
      else none
    | none => none
  | .releaseRef i =>
    match q.sessions[i]? with
    | some ⟨key, some entry, stage, n⟩ =>
      if stage = .returned ∨ stage = .aborted then
        some ((q.releaseTargetExecutionRef key entry).put i ⟨key, some entry, .done, n + 1⟩)
      else none
    | _ => none

/-- The workers of the queue under any interleaving of their steps. -/
def workers : Machine Targets TargetMove where
  init q := q = empty
  step q move q' := q.act move = some q'

end Targets

/-! ### What a step does -/

/-- The ways the workers' state changes. -/
inductive Targets.Happens (q : Targets) : Targets → Prop where
  | exempt (key : String) : untargeted key = true →
      q.Happens { q with sessions := q.sessions ++ [⟨key, none, .acquired, 0⟩] }
  | join (key : String) (entry : ℕ) : untargeted key = false → q.targets[key]? = some entry →
      q.Happens { q with
        executions := q.executions.modify entry fun e => { e with refs := e.refs + 1 }
        sessions := q.sessions ++ [⟨key, some entry, .waiting, 0⟩] }
  | create (key : String) : untargeted key = false → q.targets[key]? = none →
      q.Happens {
        targets := q.targets.insert key q.executions.length
        executions := q.executions ++ [⟨true, 1⟩]
        sessions := q.sessions ++ [⟨key, some q.executions.length, .waiting, 0⟩] }
  /-- The session neither takes the token nor gives it back. -/
  | goes (i : ℕ) (key : String) (entry : Option ℕ) (stage stage' : Stage) (n : ℕ) :
      q.sessions[i]? = some ⟨key, entry, stage, n⟩ → stage ≠ .done → stage' ≠ .done →
      stage'.holding = stage.holding → q.Happens (q.put i ⟨key, entry, stage', n⟩)
  | receive (i : ℕ) (key : String) (entry n : ℕ) :
      q.sessions[i]? = some ⟨key, some entry, .waiting, n⟩ → q.ready entry = true →
      q.Happens ((q.setToken entry false).put i ⟨key, some entry, .acquired, n⟩)
  | putBack (i : ℕ) (key : String) (entry : ℕ) (stage : Stage) (n : ℕ) :
      q.sessions[i]? = some ⟨key, some entry, stage, n⟩ → stage.holding = true →
      q.ready entry = false →
      q.Happens ((q.setToken entry true).put i ⟨key, some entry, .returned, n⟩)
  | leave (i : ℕ) (key : String) (stage : Stage) (n : ℕ) :
      q.sessions[i]? = some ⟨key, none, stage, n⟩ → q.Happens (q.put i ⟨key, none, .done, n⟩)
  | release (i : ℕ) (key : String) (entry : ℕ) (stage : Stage) (n : ℕ) :
      q.sessions[i]? = some ⟨key, some entry, stage, n⟩ → stage.holding = false →
      stage ≠ .done →
      q.Happens ((q.releaseTargetExecutionRef key entry).put i ⟨key, some entry, .done, n + 1⟩)

/-- Every step is one of these changes. -/
lemma Targets.happens_of_act {q q' : Targets} {move : TargetMove}
    (stepped : q.act move = some q') : q.Happens q' := by
  cases move with
  | acquire targetType targetID =>
    obtain rfl := Option.some.inj stepped
    unfold acquire
    by_cases blank : untargeted (targetKey targetType targetID) = true
    · rw [if_pos blank]
      exact .exempt _ blank
    · rw [if_neg blank]
      have named := Bool.eq_false_iff.mpr blank
      rcases found : q.targets[targetKey targetType targetID]? with _ | entry
      · exact .create _ named found
      · exact .join _ entry named found
  | receive i =>
    simp only [act] at stepped
    split at stepped
    · rename_i key entry n held
      obtain ⟨ready, ⟨⟩⟩ := ite_none_right_eq_some.mp stepped
      exact .receive i key entry n held ready
    · cases stepped
  | abort i | invoke i | finish i =>
    simp only [act] at stepped
    split at stepped
    · rename_i held
      obtain rfl := Option.some.inj stepped
      exact .goes i _ _ _ _ _ held (by decide) (by decide) rfl
    · cases stepped
  | putBack i =>
    simp only [act] at stepped
    split at stepped
    · rename_i key entry stage n held
      obtain ⟨has, stepped⟩ := ite_none_right_eq_some.mp stepped
      have holding : stage.holding = true := by rcases has with rfl | rfl <;> rfl
      cases entry with
      | none =>
        obtain rfl := Option.some.inj stepped
        exact .leave i key stage n held
      | some entry =>
        obtain ⟨full, ⟨⟩⟩ := ite_none_left_eq_some.mp stepped
        exact .putBack i key entry stage n held holding (Bool.eq_false_iff.mpr full)
    · cases stepped
  | releaseRef i =>
    simp only [act] at stepped
    split at stepped
    · rename_i key entry stage n held
      obtain ⟨has, ⟨⟩⟩ := ite_none_right_eq_some.mp stepped
      exact .release i key entry stage n held (by rcases has with rfl | rfl <;> rfl)
        (by rcases has with rfl | rfl <;> decide)
    · cases stepped

/-! ### The invariant -/

/-- What the map and the number of entries have to do with one session. -/
structure Session.Served (targets : ExtTreeMap String ℕ compare) (size : ℕ) (session : Session) :
    Prop where
  /-- Only a session without a target is exempt. -/
  exempt : session.entry = none → untargeted session.key = true
  made : ∀ entry, session.entry = some entry → entry < size
  /-- The map has the entry of a session that refers to one. -/
  mapped : ∀ entry, session.refers entry = true → targets[session.key]? = some entry
  once : ∀ entry, session.entry = some entry →
    session.releases = if session.stage = .done then 1 else 0

/-- What an entry has to do with the sessions. -/
structure TargetExecution.Tallies (sessions : List Session) (entry : ℕ)
    (execution : TargetExecution) : Prop where
  refs : execution.refs = ((sessions.countP (·.refers entry) : ℕ) : ℤ)
  /-- The token is in the channel, or one session has it. -/
  one : execution.token.toNat + sessions.countP (·.holds entry) = 1

/-- What the map, the counts and the tokens have to do with the sessions. -/
structure Targets.Exclusive (q : Targets) : Prop where
  each : ∀ session ∈ q.sessions, session.Served q.targets q.executions.length
  /-- An entry serves one key. -/
  keyed : ∃ owner : ℕ → String, ∀ session ∈ q.sessions, ∀ entry,
    session.entry = some entry → session.key = owner entry
  /-- An entry of the map has a session that refers to it. -/
  wanted : ∀ key entry, q.targets[key]? = some entry →
    ∃ session ∈ q.sessions, session.key = key ∧ session.refers entry = true
  tallied : ∀ entry (execution : TargetExecution), q.executions[entry]? = some execution →
    execution.Tallies q.sessions entry

variable {key : String}

namespace Targets.Exclusive

variable {q : Targets}

lemma empty : Targets.empty.Exclusive := by
  constructor <;> simp [Targets.empty]

section

variable (inv : q.Exclusive)
include inv

/-- A session more takes nothing from an entry of the map. -/
lemma wanted_snoc {session : Session} {key' : String} (found : q.targets[key']? = some entry) :
    ∃ s ∈ q.sessions ++ [session], s.key = key' ∧ s.refers entry = true := by
  obtain ⟨s, there, facts⟩ := inv.wanted key' entry found
  exact ⟨s, mem_append_left _ there, facts⟩

/-- A session without a target begins. -/
lemma exempted (blank : untargeted key = true) :
    Exclusive { q with sessions := q.sessions ++ [⟨key, none, .acquired, 0⟩] } where
  each := forall_mem_snoc inv.each ⟨fun _ => blank, by simp, by simp, by simp⟩
  keyed := inv.keyed.imp fun owner serves => forall_mem_snoc serves (by simp)
  wanted _ _ := inv.wanted_snoc
  tallied := by
    intro entry execution at_entry
    obtain ⟨refs, one⟩ := inv.tallied entry execution at_entry
    exact ⟨by simp [refs, Session.refers, List.countP_append],
      by simpa [Session.holds, List.countP_append] using one⟩

/-- A session begins to wait at an entry, which is the one the map now has for its key. -/
lemma joined (found : q.targets[key]? = some entry) : Exclusive { q with
      executions := q.executions.modify entry fun e => { e with refs := e.refs + 1 }
      sessions := q.sessions ++ [⟨key, some entry, .waiting, 0⟩] } := by
  obtain ⟨first, mem, serves, refers⟩ := inv.wanted key entry found
  have owned : first.entry = some entry := (Session.refers_iff.mp refers).1
  obtain ⟨owner, owns⟩ := inv.keyed
  constructor
  case each =>
    rw [List.length_modify]
    refine forall_mem_snoc inv.each ⟨by simp, ?_, fun e mine => ?_, by simp⟩
    · rintro e ⟨⟩
      exact (inv.each first mem).made entry owned
    · exact Option.some.inj (Session.refers_iff.mp mine).1 ▸ found
  case keyed =>
    refine ⟨owner, forall_mem_snoc owns ?_⟩
    rintro e ⟨⟩
    exact serves.symm.trans (owns first mem entry owned)
  case wanted => exact fun _ _ => inv.wanted_snoc
  case tallied =>
    intro e execution at_e
    rw [List.getElem?_modify, Option.map_eq_map, Option.map_eq_some_iff] at at_e
    obtain ⟨before, held, rfl⟩ := at_e
    obtain ⟨refs, one⟩ := inv.tallied e before held
    by_cases same : entry = e
    · exact ⟨by simp [same, refs, Session.refers, List.countP_append],
        by simpa [same, Session.holds, Stage.holding, List.countP_append] using one⟩
    · exact ⟨by simp [same, refs, Session.refers, List.countP_append],
        by simpa [same, Session.holds, List.countP_append] using one⟩

/-- A session makes the entry of its key. -/
lemma created (absent : q.targets[key]? = none) : Exclusive {
      targets := q.targets.insert key q.executions.length
      executions := q.executions ++ [⟨true, 1⟩]
      sessions := q.sessions ++ [⟨key, some q.executions.length, .waiting, 0⟩] } := by
  have fresh : ∀ s ∈ q.sessions, s.entry ≠ some q.executions.length := fun s there mine =>
    Nat.lt_irrefl _ ((inv.each s there).made _ mine)
  constructor
  case each =>
    rw [length_append, length_singleton]
    refine forall_mem_snoc (fun s there => ?_) ⟨by simp, ?_, fun e mine => ?_, by simp⟩
    · have old := inv.each s there
      refine ⟨old.exempt, fun e mine => Nat.lt_succ_of_lt (old.made e mine), fun e mine => ?_, old.once⟩
      have found := old.mapped e mine
      rw [ExtTreeMap.getElem?_insert, if_neg, found]
      intro same
      rw [compare_eq_iff_eq.mp same, found] at absent
      cases absent
    · rintro e ⟨⟩
      exact Nat.lt_succ_self _
    · rw [ExtTreeMap.getElem?_insert_self]
      exact (Session.refers_iff.mp mine).1
  case keyed =>
    obtain ⟨owner, owns⟩ := inv.keyed
    refine ⟨Function.update owner q.executions.length key, forall_mem_snoc (fun s there e mine => ?_) ?_⟩
    · have other : e ≠ q.executions.length := fun same => fresh s there (same ▸ mine)
      rw [Function.update_of_ne other]
      exact owns s there e mine
    · rintro e ⟨⟩
      rw [Function.update_self]
  case wanted =>
    intro key' e at_key
    rw [ExtTreeMap.getElem?_insert] at at_key
    split at at_key
    · rename_i same
      obtain rfl := compare_eq_iff_eq.mp same
      cases at_key
      exact ⟨_, mem_append_right _ (.head _), rfl, by simp [Session.refers]⟩
    · exact inv.wanted_snoc at_key
  case tallied =>
    intro e execution at_e
    rcases getElem?_snoc at_e with old | ⟨rfl, rfl⟩
    · have lt := (List.getElem?_eq_some_iff.mp old).1
      obtain ⟨refs, one⟩ := inv.tallied e execution old
      exact ⟨by simp [refs, Session.refers, List.countP_append, Nat.ne_of_gt lt],
        by simpa [Session.holds, Stage.holding, List.countP_append] using one⟩
    · have none_before {p : Session → Bool}
          (named : ∀ s, p s = true → s.entry = some q.executions.length) :
          q.sessions.countP p = 0 :=
        List.countP_eq_zero.mpr fun s there counted => fresh s there (named s counted)
      constructor
      · rw [List.countP_append, none_before fun s refers => (Session.refers_iff.mp refers).1]
        simp [Session.refers]
      · rw [List.countP_append, none_before fun s holds => (Session.holds_iff.mp holds).1]
        simp [Session.holds, Stage.holding]

/-- A session under way moves on, and the tokens follow. -/
lemma advanced {i n : ℕ} {entry : Option ℕ} {stage stage' : Stage}
    {executions : List TargetExecution} (held : q.sessions[i]? = some ⟨key, entry, stage, n⟩)
    (running : stage ≠ .done) (running' : stage' ≠ .done)
    (size : executions.length = q.executions.length)
    (tokens : ∀ e execution, executions[e]? = some execution →
      ∃ before, q.executions[e]? = some before ∧ execution.refs = before.refs ∧
        execution.token.toNat + (if entry = some e ∧ stage'.holding = true then 1 else 0) =
          before.token.toNat + (if entry = some e ∧ stage.holding = true then 1 else 0)) :
    Exclusive { q with executions, sessions := q.sessions.set i ⟨key, entry, stage', n⟩ } := by
  have mem : (⟨key, entry, stage, n⟩ : Session) ∈ q.sessions := mem_of_getElem? held
  have own := inv.each _ mem
  have refers (e : ℕ) : Session.refers ⟨key, entry, stage', n⟩ e =
      Session.refers ⟨key, entry, stage, n⟩ e := by
    simp [Session.refers, running, running']
  constructor
  case each =>
    rw [size]
    refine forall_mem_set inv.each ⟨own.exempt, own.made, fun e mine => ?_, fun e mine => ?_⟩
    · rw [refers] at mine
      exact own.mapped e mine
    · rw [if_neg running']
      exact (own.once e mine).trans (if_neg running)
  case keyed =>
    exact inv.keyed.imp fun owner serves => forall_mem_set serves fun e => serves _ mem e
  case wanted =>
    intro key' e at_key
    exact exists_mem_set (inv.wanted key' e at_key) held (And.imp_right (refers e ▸ id))
  case tallied =>
    intro e execution at_e
    obtain ⟨before, at_before, same, token⟩ := tokens e execution at_e
    obtain ⟨refs, one⟩ := inv.tallied e before at_before
    constructor
    · have change := countP_set_add (p := (·.refers e)) held ⟨key, entry, stage', n⟩
      rw [refers] at change
      rw [same, refs]
      exact congrArg _ (Nat.add_right_cancel change).symm
    · have change := countP_set_add (p := (·.holds e)) held ⟨key, entry, stage', n⟩
      simp only [Session.holds_iff] at change
      show _ + (q.sessions.set i ⟨key, entry, stage', n⟩).countP (·.holds e) = 1
      omega

/-- A session without a target ends. -/
lemma left {i n : ℕ} {stage : Stage} (held : q.sessions[i]? = some ⟨key, none, stage, n⟩) :
    Exclusive (q.put i ⟨key, none, .done, n⟩) := by
  have mem : (⟨key, none, stage, n⟩ : Session) ∈ q.sessions := mem_of_getElem? held
  have blank : untargeted key = true := (inv.each _ mem).exempt rfl
  constructor
  case each => exact forall_mem_set inv.each ⟨fun _ => blank, by simp, by simp, by simp⟩
  case keyed => exact inv.keyed.imp fun owner serves => forall_mem_set serves (by simp)
  case wanted =>
    intro key' e at_key
    exact exists_mem_set (inv.wanted key' e at_key) held (by simp)
  case tallied =>
    intro e execution at_e
    obtain ⟨refs, one⟩ := inv.tallied e execution at_e
    have change (p : Session → Bool) := countP_set_add (p := p) held ⟨key, none, .done, n⟩
    constructor
    · rw [refs]
      exact congrArg _ (Nat.add_right_cancel (change (·.refers e))).symm
    · rw [← Nat.add_right_cancel (change (·.holds e))] at one
      exact one

/-- A session drops its reference, and the entry goes with the last one. -/
lemma released {i n entry : ℕ} {stage : Stage}
    (held : q.sessions[i]? = some ⟨key, some entry, stage, n⟩) (free : stage.holding = false)
    (running : stage ≠ .done) :
    Exclusive ((q.releaseTargetExecutionRef key entry).put i ⟨key, some entry, .done, n + 1⟩) := by
  have mem : (⟨key, some entry, stage, n⟩ : Session) ∈ q.sessions := mem_of_getElem? held
  have own := inv.each _ mem
  have refers : Session.refers ⟨key, some entry, stage, n⟩ entry = true := by
    simp [running]
  obtain ⟨owner, owns⟩ := inv.keyed
  have found : q.targets[key]? = some entry := own.mapped entry refers
  obtain ⟨before, at_before⟩ : ∃ before, q.executions[entry]? = some before :=
    ⟨_, getElem?_eq_getElem (own.made entry rfl)⟩
  have change (e : ℕ) := countP_set_add (p := (·.refers e)) held ⟨key, some entry, .done, n + 1⟩
  have less : ((q.sessions.set i ⟨key, some entry, .done, n + 1⟩).countP (·.refers entry) : ℤ) =
      before.refs - 1 := by
    have here := change entry
    rw [if_pos refers] at here
    rw [if_neg (by simp)] at here
    rw [(inv.tallied entry before at_before).refs]
    omega
  have targets : (q.releaseTargetExecutionRef key entry).targets =
      if before.refs = 1 then q.targets.erase key else q.targets := by
    simp only [releaseTargetExecutionRef, List.getElem?_modify, at_before, found]
    by_cases last : before.refs = 1
    · simp [last]
    · simp [last, sub_eq_zero]
  constructor
  case each =>
    simp only [put, releaseTargetExecutionRef, List.length_modify]
    intro s there
    rcases mem_or_eq_of_mem_set there with old | rfl
    · refine { inv.each s old with mapped := fun e mine => ?_ }
      show (q.releaseTargetExecutionRef key entry).targets[s.key]? = some e
      have mapped := (inv.each s old).mapped e mine
      rw [targets]
      split
      case isTrue last =>
        -- Nobody is left who refers to the entry that goes.
        have other : s.key ≠ key := by
          intro same
          rw [same, found] at mapped
          cases mapped
          have left : 1 ≤ (q.sessions.set i ⟨key, some entry, .done, n + 1⟩).countP
              (·.refers entry) := one_le_countP_of_mem there mine
          omega
        rw [ExtTreeMap.getElem?_erase, if_neg, mapped]
        intro same
        exact other (compare_eq_iff_eq.mp same).symm
      case isFalse => exact mapped
    · refine ⟨by simp, own.made, by simp, fun e mine => ?_⟩
      have count : n = _ := own.once entry rfl
      rw [if_neg running] at count
      simp only [if_true, count]
  case keyed => exact ⟨owner, forall_mem_set owns fun e => owns _ mem e⟩
  case wanted =>
    intro key' e at_key
    rw [show ((q.releaseTargetExecutionRef key entry).put i _).targets = _ from targets] at at_key
    split at at_key
    case isTrue last =>
      rw [ExtTreeMap.getElem?_erase] at at_key
      split at at_key
      · cases at_key
      · rename_i other
        exact exists_mem_set (inv.wanted key' e at_key) held fun serves =>
          absurd (compare_eq_iff_eq.mpr serves.1) other
    case isFalse more =>
      obtain ⟨session, there, serves, mine⟩ := inv.wanted key' e at_key
      rcases mem_set_or_eq there held ⟨key, some entry, .done, n + 1⟩ with still | rfl
      · exact ⟨session, still, serves, mine⟩
      · -- Somebody else refers to the entry, and for the same key.
        obtain rfl : entry = e := Option.some.inj (Session.refers_iff.mp mine).1
        obtain ⟨s, there, mine⟩ := countP_pos_iff.mp (show 0 <
          (q.sessions.set i ⟨key, some entry, .done, n + 1⟩).countP (·.refers entry) by
            have := (inv.tallied entry before at_before).refs
            omega)
        rcases mem_or_eq_of_mem_set there with old | rfl
        · have same := owns s old entry (Session.refers_iff.mp mine).1
          exact ⟨s, there, same.trans ((owns _ mem entry rfl).symm.trans serves), mine⟩
        · simp at mine
  case tallied =>
    intro e execution at_e
    simp only [put, releaseTargetExecutionRef, List.getElem?_modify, Option.map_eq_map,
      Option.map_eq_some_iff] at at_e
    obtain ⟨older, at_older, rfl⟩ := at_e
    obtain ⟨refs, one⟩ := inv.tallied e older at_older
    have here := countP_set_add (p := (·.holds e)) held ⟨key, some entry, .done, n + 1⟩
    rw [if_neg (by simp [free]), if_neg (by simp [Stage.holding])] at here
    rw [← Nat.add_right_cancel here] at one
    by_cases same : entry = e
    · subst same
      cases at_before.symm.trans at_older
      rw [if_pos rfl]
      exact ⟨less.symm, one⟩
    · have here := change e
      rw [if_neg (by simp [same]), if_neg (by simp)] at here
      rw [if_neg same]
      exact ⟨refs.trans (congrArg _ here.symm), one⟩

/-- Every step keeps the invariant. -/
lemma kept {q' : Targets} (happens : q.Happens q') : q'.Exclusive := by
  cases happens with
  | exempt key blank => exact inv.exempted blank
  | join key entry _ found => exact inv.joined found
  | create key _ absent => exact inv.created absent
  | goes i key entry stage stage' n held running running' same =>
    exact inv.advanced held running running' rfl fun e execution at_e =>
      ⟨execution, at_e, rfl, by rw [same]⟩
  | receive i key entry n held ready =>
    refine inv.advanced held (by decide) (by decide) (List.length_modify ..) ?_
    intro e execution at_e
    simp only [setToken, List.getElem?_modify, Option.map_eq_map, Option.map_eq_some_iff] at at_e
    obtain ⟨before, at_before, rfl⟩ := at_e
    refine ⟨before, at_before, by split <;> rfl, ?_⟩
    by_cases same : entry = e
    · subst same
      have full : before.token = true := by simpa [Targets.ready, at_before] using ready
      simp [Stage.holding, full]
    · simp [same]
  | putBack i key entry stage n held holding empty =>
    refine inv.advanced held ?_ (by decide) (List.length_modify ..) ?_
    · rintro rfl
      cases holding
    intro e execution at_e
    simp only [setToken, List.getElem?_modify, Option.map_eq_map, Option.map_eq_some_iff] at at_e
    obtain ⟨before, at_before, rfl⟩ := at_e
    refine ⟨before, at_before, by split <;> rfl, ?_⟩
    by_cases same : entry = e
    · subst same
      have taken : before.token = false := by simpa [Targets.ready, at_before] using empty
      simp [taken, holding, show Stage.returned.holding = false from rfl]
    · simp [same]
  | leave i key stage n held => exact inv.left held
  | release i key entry stage n held free running => exact inv.released held free running

end

/-- The invariant holds in every state the workers reach. -/
lemma of_reaches (reached : workers.Reaches (fun _ _ => True) q) : q.Exclusive :=
  reached.invariant Exclusive (by rintro _ rfl; exact .empty)
    fun _ _ _ inv _ stepped => inv.kept (happens_of_act stepped)

/-- Two sessions at one key that names a target do not both have the token. -/
lemma same (inv : q.Exclusive) {i j : ℕ} {s t : Session} (at_i : q.sessions[i]? = some s)
    (at_j : q.sessions[j]? = some t) (holding : s.stage.holding = true)
    (holding' : t.stage.holding = true) (key : s.key = t.key)
    (targeted : untargeted s.key = false) : i = j := by
  by_contra differ
  have entry_of {u : Session} (there : u ∈ q.sessions) (named : untargeted u.key = false) :
      ∃ entry, u.entry = some entry := by
    rcases none : u.entry with _ | entry
    · rw [(inv.each u there).exempt none] at named
      cases named
    · exact ⟨entry, rfl⟩
  have running {u : Session} (holding : u.stage.holding = true) : u.stage ≠ .done := by
    intro done
    rw [done] at holding
    cases holding
  have in_i := mem_of_getElem? at_i
  have in_j := mem_of_getElem? at_j
  obtain ⟨entry, mine⟩ := entry_of in_i targeted
  obtain ⟨entry', mine'⟩ := entry_of in_j (key ▸ targeted)
  -- Both refer to the entry the map has for the key.
  have mapped := (inv.each s in_i).mapped entry (Session.refers_iff.mpr ⟨mine, running holding⟩)
  have mapped' := (inv.each t in_j).mapped entry' (Session.refers_iff.mpr ⟨mine', running holding'⟩)
  rw [key, mapped'] at mapped
  obtain rfl := Option.some.inj mapped
  have two := two_le_countP (p := (·.holds entry')) at_i at_j differ
    (Session.holds_iff.mpr ⟨mine, holding⟩) (Session.holds_iff.mpr ⟨mine', holding'⟩)
  have count := (inv.tallied entry' _ (getElem?_eq_getElem ((inv.each s in_i).made entry' mine))).one
  omega

/-- A session that has the token can put it back: the channel has room. -/
lemma room (inv : q.Exclusive) {s : Session} (there : s ∈ q.sessions)
    (mine : s.entry = some entry) (holding : s.stage.holding = true) : q.ready entry = false := by
  have at_entry := getElem?_eq_getElem ((inv.each s there).made entry mine)
  have count := (inv.tallied entry _ at_entry).one
  have held : 1 ≤ q.sessions.countP (·.holds entry) :=
    one_le_countP_of_mem there (Session.holds_iff.mpr ⟨mine, holding⟩)
  rw [Targets.ready, at_entry, any_some]
  apply Bool.eq_false_iff.mpr
  intro full
  rw [full] at count
  simp only [Bool.toNat_true] at count
  omega

end Targets.Exclusive

/-! ### Exclusion -/

/-- The step of a session that is due to put its token back or to drop its reference. -/
def Session.due (session : Session) (i : ℕ) : Option TargetMove :=
  match session.stage with
  | .acquired | .handled => some (.putBack i)
  | .returned | .aborted => some (.releaseRef i)
  | .waiting | .handling | .done => none

namespace Targets

/-- What a session is due to do is never refused. -/
lemma Exclusive.due_enabled {q : Targets} (inv : q.Exclusive) {i : ℕ} {s : Session}
    {move : TargetMove} (at_i : q.sessions[i]? = some s) (named : s.entry ≠ none)
    (due : s.due i = some move) : (q.act move).isSome = true := by
  have there := mem_of_getElem? at_i
  obtain ⟨key, _ | entry, stage, n⟩ := s
  · exact absurd rfl named
  cases stage with
  | waiting | handling | done => cases due
  | acquired | handled =>
    cases due
    simp [act, at_i, inv.room there rfl rfl]
  | returned | aborted =>
    cases due
    simp [act, at_i]

/-- **One handler for each target.**  In every state the workers reach:

* two sessions whose handlers run for one key that names a target are one session;
* the map has the entry of every session that refers to one, so that no such entry is removed
  or replaced;
* an entry counts the sessions that refer to it, each of which drops its reference once, and
  what it takes to drop it is never refused;
* a key whose sessions have all dropped their references has no entry. -/
theorem one_handler_each_target {q : Targets} (reached : workers.Reaches (fun _ _ => True) q) :
    (∀ (i j : ℕ) (s t : Session), q.sessions[i]? = some s → q.sessions[j]? = some t →
      s.stage = .handling → t.stage = .handling → s.key = t.key → untargeted s.key = false → i = j) ∧
    (∀ s ∈ q.sessions, ∀ entry, s.refers entry = true → q.targets[s.key]? = some entry) ∧
    (∀ entry execution, q.executions[entry]? = some execution →
      execution.refs = ((q.sessions.countP (·.refers entry) : ℕ) : ℤ)) ∧
    (∀ (i : ℕ) (s : Session), q.sessions[i]? = some s → s.entry ≠ none →
      (s.releases = if s.stage = .done then 1 else 0) ∧
        ∀ move, s.due i = some move → (q.act move).isSome = true) ∧
    ∀ key, (∀ s ∈ q.sessions, s.key = key → s.stage = .done) → q.targets[key]? = none := by
  have inv := Exclusive.of_reaches reached
  refine ⟨?_, fun s there => (inv.each s there).mapped, fun e x at_e => (inv.tallied e x at_e).refs,
    ?_, ?_⟩
  · intro i j s t at_i at_j handling handling' key targeted
    exact inv.same at_i at_j (by rw [handling]; rfl) (by rw [handling']; rfl) key targeted
  · intro i s at_i named
    obtain ⟨entry, mine⟩ := ne_none_iff_exists'.mp named
    exact ⟨(inv.each s (mem_of_getElem? at_i)).once entry mine,
      fun move due => inv.due_enabled at_i named due⟩
  · intro key over_all
    by_contra present
    obtain ⟨entry, found⟩ := ne_none_iff_exists'.mp present
    obtain ⟨session, there, serves, refers⟩ := inv.wanted key entry found
    exact (Session.refers_iff.mp refers).2 (over_all session there serves)

lemma enacted : workers.Enacts act empty := ⟨rfl, fun _ _ _ => id⟩

/-- One of two jobs for a server runs while the other gives up waiting. -/
def contended : List TargetMove :=
  [.acquire " server" "s1", .acquire "server " "s1", .receive 0, .invoke 0, .abort 1, .releaseRef 1]

/-- The job that runs keeps its entry when the other leaves. -/
theorem one_handler_each_target_contended : ∃ q, workers.Reaches (fun _ _ => True) q ∧
      q.sessions.map (·.stage) = [.handling, .done] ∧
      q.executions = [⟨false, 1⟩] ∧
      (∀ s ∈ q.sessions, ∀ entry, s.refers entry = true → q.targets[s.key]? = some entry) := by
  obtain ⟨q, reached, stages, executions⟩ := enacted.reaches_any contended
    (fun q => q.sessions.map (·.stage) = [.handling, .done] ∧
      q.executions = [⟨false, 1⟩]) (by decide +kernel)
  exact ⟨q, reached, stages, executions, (one_handler_each_target reached).2.1⟩

/-- Two jobs without a target run at once. -/
theorem untargeted_together : ∃ q, workers.Reaches (fun _ _ => True) q ∧
      q.sessions.map (fun s => (s.key, s.stage)) =
        [(targetKey "" "", .handling), (targetKey "" "", .handling)] :=
  enacted.reaches_any [.acquire "" "", .acquire "" "", .invoke 0, .invoke 1] _ (by decide +kernel)

end Targets

end TechStack.Jobs
