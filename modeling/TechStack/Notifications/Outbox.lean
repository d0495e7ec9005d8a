import TechStack.Lib.Transition

/-!
# The notification outbox

Any number of workers run `processOne`.  A claim moves the next attempt of a row by the length of
a lease and hands out a copy of its attempts; the result is written later, to whatever the row has
become.  Nothing ties the write to the claim, so a worker that is late overwrites what others have
written (`State.delivered_taken_back`).

As long as nobody claims a row that a worker still has, the copy of the attempts is the row's, and
a row that is delivered or failed is with nobody (`State.delivered_stays`).
-/

namespace TechStack.Notifications

open List Lib

inductive Status where
  | pending
  | retrying
  | delivered
  | failed
  deriving DecidableEq

/-- What the dispatch of an item answered. -/
inductive Answer where
  | accepted
  | refused (retryable : Bool)
  deriving DecidableEq

/-- A row of `techstack_notification_outbox`, with its time in seconds. -/
structure Row where
  status : Status := .pending
  attempts : ℕ := 0
  nextAttemptAt : ℤ
  deriving DecidableEq

/-- What a worker has after its claim: the row, the time and the attempts of the claim, and the
answer once the item is dispatched. -/
structure Item where
  row : ℕ
  now : ℤ
  attempts : ℕ
  answer : Option Answer := none
  deriving DecidableEq

def outboxClaimLease : ℤ := 30

def outboxMaxAttempts : ℕ := 8

def retryDelay (attempt : ℕ) : ℤ := min (2 ^ min attempt 8) 300

abbrev Row.Open (row : Row) : Prop := row.status = .pending ∨ row.status = .retrying

/-- The update of `processOne` with the result of a dispatch. -/
def Row.settle (item : Item) (row : Row) : Answer → Row
  | .accepted => { row with status := .delivered }
  | .refused retryable =>
    let attempts := item.attempts + 1
    if attempts ≥ outboxMaxAttempts ∨ retryable = false then ⟨.failed, attempts, item.now⟩
    else ⟨.retrying, attempts, item.now + retryDelay attempts⟩

/-- The table, and the items that the workers have. -/
structure State where
  rows : List Row := []
  items : List Item := []
  deriving DecidableEq

inductive Move where
  | enqueue (now : ℤ)
  /-- Rows that others have locked are skipped, so that any row that is due can be claimed. -/
  | claim (row : ℕ) (now : ℤ)
  | dispatch (item : Item) (answer : Answer)
  | update (item : Item)
  /-- A worker ends without its update. -/
  | stop (item : Item)

namespace State

def act (s : State) : Move → Option State
  | .enqueue now => some { s with rows := s.rows ++ [{ nextAttemptAt := now }] }
  | .claim k now =>
    s.rows[k]?.bind fun row =>
      if row.Open ∧ row.nextAttemptAt ≤ now then
        some ⟨s.rows.modify k ({ · with nextAttemptAt := now + outboxClaimLease }),
          ⟨k, now, row.attempts, none⟩ :: s.items⟩
      else none
  | .dispatch item answer =>
    if item ∈ s.items then
      some { s with items := { item with answer := some answer } :: s.items.erase item }
    else none
  | .update item =>
    item.answer.bind fun answer =>
      if item ∈ s.items then
        some ⟨s.rows.modify item.row (Row.settle item · answer), s.items.erase item⟩
      else none
  | .stop item => some { s with items := s.items.erase item }

def machine : Machine State Move where
  init s := s = {}
  step s move s' := s.act move = some s'

/-- Nobody claims a row that a worker still has. -/
def Punctual (s : State) : Move → Bool
  | .claim k _ => s.items.all (·.row ≠ k)
  | _ => true

variable {s s' : State} {item : Item} {move : Move}

/-- The row of every item is open, with the attempts that were read, and no row has two items. -/
structure Exclusive (s : State) : Prop where
  copies : ∀ item ∈ s.items, ∃ row, s.rows[item.row]? = some row ∧
    row.attempts = item.attempts ∧ row.Open
  once : (s.items.map Item.row).Nodup

/-- What becomes of a row: its end is its end, and no attempt is lost. -/
def Onward (row row' : Row) : Prop :=
  (row.status = .delivered ∨ row.status = .failed → row'.status = row.status) ∧
    row.attempts ≤ row'.attempts

/-- Every row is still there. -/
def Advances (rows rows' : List Row) : Prop :=
  ∀ (k : ℕ) row, rows[k]? = some row → ∃ row', rows'[k]? = some row' ∧ Onward row row'

lemma Onward.trans {a b c : Row} (first : Onward a b) (second : Onward b c) : Onward a c := by
  refine ⟨fun final => ?_, first.2.trans second.2⟩
  have same := first.1 final
  exact (second.1 (same.symm ▸ final)).trans same

lemma onward_settle {row : Row} (is_open : row.Open) (copy : row.attempts = item.attempts)
    (answer : Answer) : Onward row (row.settle item answer) := by
  refine ⟨fun final => ?_, ?_⟩
  · rcases is_open with is | is <;> simp [is] at final
  · cases answer with
    | accepted => exact le_rfl
    | refused retryable =>
      simp only [Row.settle]
      split <;> exact copy.le.trans (Nat.le_succ _)

lemma advances_refl {rows : List Row} : Advances rows rows :=
  fun _ row found => ⟨row, found, fun _ => rfl, le_rfl⟩

lemma advances_modify {rows : List Row} {k : ℕ} {change : Row → Row}
    (onward : ∀ row, rows[k]? = some row → Onward row (change row)) :
    Advances rows (rows.modify k change) := by
  intro i row found
  by_cases same : k = i
  · subst same
    exact ⟨change row, by simp [found], onward row found⟩
  · exact ⟨row, (List.getElem?_modify_ne _ _ same).trans found, fun _ => rfl, le_rfl⟩

lemma Exclusive.apart (h : s.Exclusive) (mem : item ∈ s.items) :
    (∀ other ∈ s.items.erase item, item.row ≠ other.row) ∧
      ((s.items.erase item).map Item.row).Nodup := by
  have once := ((perm_cons_erase mem).map Item.row).nodup_iff.mp h.once
  rw [map_cons, nodup_cons, mem_map] at once
  exact ⟨fun other held same => once.1 ⟨other, held, same.symm⟩, once.2⟩

/-- A move keeps the items apart, and every row goes onward. -/
lemma Exclusive.kept (h : s.Exclusive) (punctual : s.Punctual move)
    (made : s.act move = some s') : s'.Exclusive ∧ Advances s.rows s'.rows := by
  have others {item other : Item} (held : other ∈ s.items.erase item) :=
    h.copies other (mem_of_mem_erase held)
  cases move with
  | enqueue now =>
    cases made
    have old {k : ℕ} {row : Row} (found : s.rows[k]? = some row) :
        (s.rows ++ [{ nextAttemptAt := now }])[k]? = some row :=
      (getElem?_append_left (List.getElem?_eq_some_iff.mp found).1).trans found
    refine ⟨⟨fun item held => ?_, h.once⟩, fun k row found => ⟨row, old found, fun _ => rfl, le_rfl⟩⟩
    obtain ⟨row, found, rest⟩ := h.copies item held
    exact ⟨row, old found, rest⟩
  | claim k now =>
    obtain ⟨row, found, claimed⟩ := Option.bind_eq_some_iff.mp made
    obtain ⟨⟨is_open, -⟩, ⟨⟩⟩ := Option.ite_none_right_eq_some.mp claimed
    have free : ∀ item ∈ s.items, item.row ≠ k := by simpa [Punctual] using punctual
    refine ⟨⟨?_, ?_⟩, advances_modify fun _ _ => ⟨fun _ => rfl, le_rfl⟩⟩
    · rintro item (_ | ⟨_, held⟩)
      · exact ⟨{ row with nextAttemptAt := now + outboxClaimLease }, by simp [found], rfl, is_open⟩
      · obtain ⟨row', found', rest⟩ := h.copies item held
        exact ⟨row', (List.getElem?_modify_ne _ _ (free item held).symm).trans found', rest⟩
    · refine nodup_cons.mpr ⟨fun taken => ?_, h.once⟩
      obtain ⟨item, held, same⟩ := mem_map.mp taken
      exact free item held same
  | dispatch item answer =>
    obtain ⟨mem, ⟨⟩⟩ := Option.ite_none_right_eq_some.mp made
    obtain ⟨apart, once⟩ := h.apart mem
    refine ⟨⟨?_, nodup_cons.mpr ⟨fun taken => ?_, once⟩⟩, advances_refl⟩
    · rintro other (_ | ⟨_, held⟩)
      · exact h.copies item mem
      · exact others held
    · obtain ⟨other, held, same⟩ := mem_map.mp taken
      exact apart other held same.symm
  | update item =>
    obtain ⟨answer, -, updated⟩ := Option.bind_eq_some_iff.mp made
    obtain ⟨mem, ⟨⟩⟩ := Option.ite_none_right_eq_some.mp updated
    obtain ⟨apart, once⟩ := h.apart mem
    refine ⟨⟨fun other held => ?_, once⟩, advances_modify fun row found => ?_⟩
    · obtain ⟨row, found, rest⟩ := others held
      exact ⟨row, (List.getElem?_modify_ne _ _ (apart other held)).trans found, rest⟩
    · obtain ⟨row', found', copy, is_open⟩ := h.copies item mem
      cases found.symm.trans found'
      exact onward_settle is_open copy answer
  | stop item =>
    cases made
    exact ⟨⟨fun _ held => others held, h.once.sublist (erase_sublist.map _)⟩, advances_refl⟩

/-- **A delivered notification stays delivered** in every run in which nobody claims a row that a
worker still has: a row that is delivered or failed keeps its status, and no row loses attempts. -/
theorem delivered_stays {k : ℕ} {row : Row} (reached : machine.Reaches (Punctual · ·) s)
    (later : machine.Later (Punctual · ·) s s') (found : s.rows[k]? = some row) :
    ∃ row', s'.rows[k]? = some row' ∧
      (row.status = .delivered ∨ row.status = .failed → row'.status = row.status) ∧
      row.attempts ≤ row'.attempts := by
  refine later.keeps (fun t => ∃ row', t.rows[k]? = some row' ∧ Onward row row') ?_ reached
    ⟨row, found, fun _ => rfl, le_rfl⟩
  rintro t move t' reached ⟨row', held, onward⟩ punctual made
  have h : t.Exclusive := by
    refine reached.invariant Exclusive ?_ fun _ _ _ h punctual made => (h.kept punctual made).1
    rintro _ rfl
    exact ⟨nofun, .nil⟩
  obtain ⟨row'', held', onward'⟩ := (h.kept punctual made).2 k row' held
  exact ⟨row'', held', onward.trans onward'⟩

/-- The first claim, which is dispatched only when its lease has long run out. -/
def stalled : Item := ⟨0, 0, 0, none⟩

/-- A second worker is refused twice and then delivers the notification. -/
def meanwhile : List Move :=
  [.enqueue 0, .claim 0 0, .claim 0 30, .dispatch ⟨0, 30, 0, none⟩ (.refused true),
    .update ⟨0, 30, 0, some (.refused true)⟩, .claim 0 32,
    .dispatch ⟨0, 32, 1, none⟩ (.refused true), .update ⟨0, 32, 1, some (.refused true)⟩,
    .claim 0 36, .dispatch ⟨0, 36, 2, none⟩ .accepted, .update ⟨0, 36, 2, some .accepted⟩]

lemma enacted : machine.Enacts act {} := ⟨rfl, fun _ _ _ => id⟩

/-- The refusal of the first worker takes back a delivery, and one of the attempts with it. -/
theorem delivered_taken_back : ∃ s s' : State, machine.Reaches (fun _ _ => True) s ∧
    machine.Later (fun _ _ => True) s s' ∧ s.rows = [⟨.delivered, 2, 66⟩] ∧
    s'.rows = [⟨.retrying, 1, 2⟩] :=
  enacted.reaches_later (fun _ _ => true) (fun _ _ _ => trivial) meanwhile
    [.dispatch stalled (.refused true), .update { stalled with answer := some (.refused true) }]
    _ (by decide +kernel)

/-- A notification is delivered, and another one enqueued. -/
theorem delivered_stays_beside : ∃ s s' : State, machine.Reaches (Punctual · ·) s ∧
    machine.Later (Punctual · ·) s s' ∧ s.rows[0]? = some ⟨.delivered, 0, 30⟩ ∧
    ∃ row', s'.rows[0]? = some row' ∧ row'.status = .delivered ∧ 0 ≤ row'.attempts := by
  obtain ⟨s, s', reached, later, delivered⟩ := enacted.reaches_later Punctual (fun _ _ => id)
    [.enqueue 0, .claim 0 0, .dispatch stalled .accepted,
      .update { stalled with answer := some .accepted }] [.enqueue 3]
    (fun s _ => s.rows[0]? = some ⟨.delivered, 0, 30⟩) (by decide +kernel)
  obtain ⟨row', found, final, attempts⟩ := delivered_stays reached later delivered
  exact ⟨s, s', reached, later, delivered, row', found, final (.inl rfl), attempts⟩

end State

end TechStack.Notifications
