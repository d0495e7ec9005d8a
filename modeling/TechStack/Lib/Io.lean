import Mathlib

/-!
# Programs over a device that may fail or die

A program that talks to the outside world through *sites* (its system calls),
each of which may succeed, fail, or be the last thing the process does.

* `Outcome` — what the environment answers to one operation.  A failed or
  interrupted operation may have been carried out in part; `done` says how far,
  in whatever unit the operation has.
* `Oracle` — all that the environment decides: the answers at every site and the
  readings of the clock.
* `World` — the device, how much of the oracle has been used up, and a trace of
  events.  The trace is ghost state: no program reads it.
* `Io` — a program: `none` is a process that died, with the device as it left
  it.

Nothing is proved about an `Io` by running it.  `Always oracle m device trace Q`
says that `Q` holds of what `m` returns and of the device and the trace it
leaves, however much of the oracle was used up before; `always_bind`,
`always_op`, `always_attempt`, `always_now` and `always_pure` take a program
apart along its binds.  `always_op` forgets which answer came and keeps only that
it is one the oracle gives at that site, so a proof by these rules covers every
pattern of faults at once.
-/

namespace TechStack.Lib

/-- What the environment answers to one operation. -/
inductive Outcome (ε : Type) where
  /-- The operation was carried out. -/
  | ok
  /-- The operation failed with a cause, having been carried out in part. -/
  | fail (cause : ε) (done : ℕ)
  /-- The process died during the operation. -/
  | crash (done : ℕ)

namespace Outcome

variable {ε : Type}

/-- What the program gets to see: nothing if it died, else the error if any. -/
def reply : Outcome ε → Option (Option ε)
  | .ok => some none
  | .fail cause _ => some (some cause)
  | .crash _ => none

end Outcome

/-- What the environment decides: the `n`-th answer at every site and the `n`-th
reading of the clock. -/
structure Oracle (κ ε : Type) where
  answer : κ → ℕ → Outcome ε
  clock : ℕ → ℤ

namespace Oracle

variable {κ ε : Type}

variable (oracle : Oracle κ ε)

/-- An answer that a site gives at some time. -/
def Answers (site : κ) (outcome : Outcome ε) : Prop :=
  ∃ n, oracle.answer site n = outcome

/-- A site at which some operation fails, that is, returns an error. -/
def FailsAt (site : κ) : Prop :=
  ∃ cause done, oracle.Answers site (.fail cause done)

/-- A site in which the process dies at some time. -/
def DiesAt (site : κ) : Prop :=
  ∃ done, oracle.Answers site (.crash done)

/-- A reading that the clock gives at some time. -/
def Reads (t : ℤ) : Prop := ∃ n, oracle.clock n = t

/-- Every system call succeeds, and the process lives. -/
def Faultless : Prop := ∀ site n, oracle.answer site n = .ok

lemma Faultless.not_failsAt {oracle : Oracle κ ε} (faultless : oracle.Faultless)
    (site : κ) : ¬ oracle.FailsAt site := by
  rintro ⟨cause, done, n, answer⟩
  rw [faultless] at answer
  cases answer

lemma Faultless.not_diesAt {oracle : Oracle κ ε} (faultless : oracle.Faultless)
    (site : κ) : ¬ oracle.DiesAt site := by
  rintro ⟨done, n, answer⟩
  rw [faultless] at answer
  cases answer

abbrev Fails (oracle : Oracle κ ε) : Prop := ∃ site, oracle.FailsAt site

abbrev Dies (oracle : Oracle κ ε) : Prop := ∃ site, oracle.DiesAt site

lemma Faultless.never_fails {oracle : Oracle κ ε} (faultless : oracle.Faultless) :
    ¬ oracle.Fails :=
  fun ⟨site, fails⟩ => faultless.not_failsAt site fails

lemma Faultless.never_dies {oracle : Oracle κ ε} (faultless : oracle.Faultless) :
    ¬ oracle.Dies :=
  fun ⟨site, dies⟩ => faultless.not_diesAt site dies

end Oracle

/-- The world a program runs in: the device, how many answers of each site and
how many readings of the clock have been used up, and the ghost trace. -/
structure World (δ κ τ : Type) where
  device : δ
  used : κ → ℕ
  reads : ℕ
  trace : List τ

/-- A program over a device: `none` is a process that died. -/
def Io (δ κ ε τ α : Type) : Type :=
  Oracle κ ε → World δ κ τ → Option α × World δ κ τ

namespace Io

variable {δ κ ε τ α β : Type}

instance : Monad (Io δ κ ε τ) where
  pure a := fun _ w => (some a, w)
  bind m f := fun oracle w =>
    match m oracle w with
    | (some a, w') => f a oracle w'
    | (none, w') => (none, w')

/-- One operation at a site: take the next answer, let it act on the device and
on the trace, and return the error if there was one. -/
def op [DecidableEq κ] (site : κ) (effect : Outcome ε → δ → δ)
    (events : Outcome ε → List τ) : Io δ κ ε τ (Option ε) := fun oracle w =>
  let outcome := oracle.answer site (w.used site)
  (outcome.reply, { w with
      device := effect outcome w.device
      used := Function.update w.used site (w.used site + 1)
      trace := w.trace ++ events outcome })

/-- An operation that only takes something in, such as a read: what it answers says how
far it came. -/
def attempt [DecidableEq κ] (site : κ) : Io δ κ ε τ (Outcome ε) := fun oracle w =>
  let outcome := oracle.answer site (w.used site)
  (outcome.reply.map fun _ => outcome,
    { w with used := Function.update w.used site (w.used site + 1) })

/-- Read the clock. -/
def now : Io δ κ ε τ ℤ := fun oracle w =>
  (some (oracle.clock w.reads), { w with reads := w.reads + 1 })

/-- Read the device; reading is not a step that can fail. -/
def look : Io δ κ ε τ δ := fun _ w => (some w.device, w)

/-- Record a ghost event. -/
def emit (event : τ) : Io δ κ ε τ Unit := fun _ w =>
  (some (), { w with trace := w.trace ++ [event] })

/-- Run a program from the beginning of an oracle. -/
def run (m : Io δ κ ε τ α) (oracle : Oracle κ ε) (device : δ) (trace : List τ) :
    Option α × World δ κ τ :=
  m oracle ⟨device, fun _ => 0, 0, trace⟩

/-- `Q` holds of what the program returns and of what it leaves. -/
def Always (oracle : Oracle κ ε) (m : Io δ κ ε τ α) (device : δ) (trace : List τ)
    (Q : Option α → δ → List τ → Prop) : Prop :=
  ∀ used reads, Q (m oracle ⟨device, used, reads, trace⟩).1
    (m oracle ⟨device, used, reads, trace⟩).2.device
    (m oracle ⟨device, used, reads, trace⟩).2.trace

section Rules

variable {oracle : Oracle κ ε} {m : Io δ κ ε τ α} {f : α → Io δ κ ε τ β} {device : δ}
  {trace : List τ}

lemma Always.run {Q : Option α → δ → List τ → Prop} (holds : Always oracle m device trace Q) :
    Q (m.run oracle device trace).1 (m.run oracle device trace).2.device
      (m.run oracle device trace).2.trace :=
  holds _ _

lemma Always.mono {Q R : Option α → δ → List τ → Prop} (holds : Always oracle m device trace Q)
    (weaker : ∀ result device' trace', Q result device' trace' → R result device' trace') :
    Always oracle m device trace R :=
  fun used reads => weaker _ _ _ (holds used reads)

lemma always_pure {a : α} {Q : Option α → δ → List τ → Prop} (holds : Q (some a) device trace) :
    Always oracle (pure a : Io δ κ ε τ α) device trace Q :=
  fun _ _ => holds

/-- A bind is taken apart at its first program. -/
lemma always_bind {Q : Option β → δ → List τ → Prop}
    (holds : Always oracle m device trace fun result device' trace' =>
      match result with
      | some a => Always oracle (f a) device' trace' Q
      | none => Q none device' trace') :
    Always oracle (m >>= f) device trace Q := by
  intro used reads
  have first := holds used reads
  change Q (match m oracle ⟨device, used, reads, trace⟩ with
    | (some a, w') => f a oracle w'
    | (none, w') => (none, w')).1 (match m oracle ⟨device, used, reads, trace⟩ with
    | (some a, w') => f a oracle w'
    | (none, w') => (none, w')).2.device (match m oracle ⟨device, used, reads, trace⟩ with
    | (some a, w') => f a oracle w'
    | (none, w') => (none, w')).2.trace
  rcases ran : m oracle ⟨device, used, reads, trace⟩ with ⟨_ | a, w'⟩
  · simpa [ran] using first
  · simp only [ran] at first
    exact first w'.used w'.reads

/-- **The rule for an operation**: the proof is given some answer the site
gives, and the device with that answer's effect. -/
lemma always_op [DecidableEq κ] {site : κ} {effect : Outcome ε → δ → δ}
    {events : Outcome ε → List τ} {Q : Option (Option ε) → δ → List τ → Prop}
    (holds : ∀ outcome, oracle.Answers site outcome →
      Q outcome.reply (effect outcome device) (trace ++ events outcome)) :
    Always oracle (op site effect events) device trace Q :=
  fun _ _ => holds _ ⟨_, rfl⟩

lemma always_attempt [DecidableEq κ] {site : κ} {Q : Option (Outcome ε) → δ → List τ → Prop}
    (holds : ∀ outcome, oracle.Answers site outcome →
      Q (outcome.reply.map fun _ => outcome) device trace) :
    Always oracle (attempt site) device trace Q :=
  fun _ _ => holds _ ⟨_, rfl⟩

lemma always_now {Q : Option ℤ → δ → List τ → Prop}
    (holds : ∀ t, oracle.Reads t → Q (some t) device trace) :
    Always oracle (now : Io δ κ ε τ ℤ) device trace Q :=
  fun _ _ => holds _ ⟨_, rfl⟩

lemma always_look {Q : Option δ → δ → List τ → Prop} (holds : Q (some device) device trace) :
    Always oracle (look : Io δ κ ε τ δ) device trace Q :=
  fun _ _ => holds

lemma always_emit {event : τ} {Q : Option Unit → δ → List τ → Prop}
    (holds : Q (some ()) device (trace ++ [event])) :
    Always oracle (emit event : Io δ κ ε τ Unit) device trace Q :=
  fun _ _ => holds

end Rules

end Io

end TechStack.Lib
