import TechStack.Lib.Transition
import TechStack.Telemetry.Queue

/-!
# The spool as a system

A spool directory over its whole life: it is opened, called and left, and the process
that has it open may die in any file operation.  One process has it open at a time, and
its calls exclude one another by the spool's mutex.

The history that a property needs is kept beside the directory: what was appended, and
up to where it was acknowledged or discarded.
-/

namespace TechStack.Telemetry

open Std (ExtTreeMap)
open Lib

/-- The calls of a spool. -/
inductive Op where
  | append (atTime : ℤ) (samples : List Sample) (drives : Option Bytes)
  | peek (maxRecords maxBytes : ℕ)
  | ack (sequence : ℕ)
  | discard (sequence : ℕ) (reason : GapReason)

/-- What they return. -/
inductive Answer where
  | appended (result : Except Fault Record)
  | peeked (result : Except Fault (List Record))
  | acked (failed : Option Fault)

/-- One call. -/
def call (codec : Codec) (s : Spool) : Op → SpoolIo (Spool × Answer)
  | .append atTime samples drives => do
      let (s, result) ← appendDrives codec s atTime samples drives
      return (s, .appended result)
  | .peek maxRecords maxBytes => do
      let result ← peek codec s maxRecords maxBytes
      return (s, .peeked result)
  | .ack sequence => do
      let (s, failed) ← ack codec s sequence
      return (s, .acked failed)
  | .discard sequence reason => do
      let (s, failed) ← discard codec s sequence reason
      return (s, .acked failed)

/-- The records on disk, taken over the segments in order. -/
def onDisk (codec : Codec) (dir : Dir) (s : Spool) : List Record :=
  s.segs.flatMap fun seg => (parse codec ((dir[seg.path]?).getD [])).1

/-- The sequence up to which a call acknowledges or discards. -/
def Op.releases : Op → ℕ
  | .ack sequence | .discard sequence _ => sequence
  | .append _ _ _ | .peek _ _ => 0

/-- A marker that is acknowledged or discarded is so with its whole range. -/
def Op.Whole (codec : Codec) (dir : Dir) (s : Spool) : Op → Prop
  | .ack sequence | .discard sequence _ =>
    ∀ r ∈ onDisk codec dir s, r.sequence ≤ sequence → r.upper ≤ sequence
  | .append _ _ _ | .peek _ _ => True

/-- The record that an append has taken. -/
def Answer.taken : Answer → List Record
  | .appended (.ok record) => [record]
  | _ => []

/-- A spool directory, the spool that has it open, and the history. -/
structure System where
  dir : Dir
  spool : Option Spool
  /-- The records whose append returned nil. -/
  appended : List Record
  /-- The highest sequence that was acknowledged or discarded. -/
  floor : ℕ

/-- The steps of a spool's life. -/
inductive Label where
  | open_ (cfg : Config) (random : Fin 12 → UInt8) (oracle : Oracle Site String)
  | call (op : Op) (oracle : Oracle Site String)
  /-- The process leaves the spool, or is killed between two calls. -/
  | exit

variable {sys : System}

namespace System

variable (codec : Codec)

/-- Open the spool. -/
def openDir (cfg : Config) (random : Fin 12 → UInt8) (oracle : Oracle Site String)
    (sys : System) : System :=
  match (openSpool codec cfg random).run oracle sys.dir [] with
  | (some (.ok s), w) => { sys with dir := w.device, spool := some s }
  | (_, w) => { sys with dir := w.device, spool := none }

/-- Call the open spool `s`. -/
def callSpool (op : Op) (oracle : Oracle Site String) (s : Spool) (sys : System) : System :=
  match (call codec s op).run oracle sys.dir [] with
  | (some (s', answer), w) =>
    ⟨w.device, some s', sys.appended ++ answer.taken, max sys.floor op.releases⟩
  | (none, w) => ⟨w.device, none, sys.appended, max sys.floor op.releases⟩

variable {codec}

lemma openDir_ok {cfg : Config} {random : Fin 12 → UInt8} {oracle : Oracle Site String}
    {s : Spool} (ran : ((openSpool codec cfg random).run oracle sys.dir []).1 = some (.ok s)) :
    sys.openDir codec cfg random oracle =
      { sys with
        dir := ((openSpool codec cfg random).run oracle sys.dir []).2.device
        spool := some s } := by
  unfold openDir
  rcases run : (openSpool codec cfg random).run oracle sys.dir [] with ⟨result, w⟩
  rw [run] at ran
  obtain rfl : result = some (.ok s) := ran
  rfl

lemma callSpool_some {op : Op} {oracle : Oracle Site String} {s s' : Spool} {answer : Answer}
    (ran : ((call codec s op).run oracle sys.dir []).1 = some (s', answer)) :
    sys.callSpool codec op oracle s =
      ⟨((call codec s op).run oracle sys.dir []).2.device, some s', sys.appended ++ answer.taken,
        max sys.floor op.releases⟩ := by
  unfold callSpool
  rcases run : (call codec s op).run oracle sys.dir [] with ⟨result, w⟩
  rw [run] at ran
  obtain rfl : result = some (s', answer) := ran
  rfl

variable (codec)

/-- What becomes of the files in a call. -/
def events (op : Op) (oracle : Oracle Site String) (s : Spool) (sys : System) : List Event :=
  ((call codec s op).run oracle sys.dir []).2.trace

end System

/-- The steps. -/
inductive Step (codec : Codec) : System → Label → System → Prop where
  | open_ {sys : System} (cfg : Config) (random : Fin 12 → UInt8) (oracle : Oracle Site String)
      (closed : sys.spool = none) :
      Step codec sys (.open_ cfg random oracle) (sys.openDir codec cfg random oracle)
  | call {sys : System} {s : Spool} (op : Op) (oracle : Oracle Site String)
      (isOpen : sys.spool = some s) :
      Step codec sys (.call op oracle) (sys.callSpool codec op oracle s)
  | exit (sys : System) : Step codec sys .exit { sys with spool := none }

/-- The empty directory. -/
def System.start : System := ⟨∅, none, [], 0⟩

/-- The life of a spool directory, from an empty one. -/
def spoolLife (codec : Codec) : Machine System Label where
  init sys := sys = System.start
  step := Step codec

/-- Its life from some state on. -/
def spoolLifeFrom (codec : Codec) (sys : System) : Machine System Label where
  init sys' := sys' = sys
  step := Step codec

/-! ### Running labels -/

namespace System

/-- A step as a function. -/
def act (codec : Codec) (sys : System) : Label → Option System
  | .open_ cfg random oracle =>
    if sys.spool.isNone then some (sys.openDir codec cfg random oracle) else none
  | .call op oracle => sys.spool.map fun s => sys.callSpool codec op oracle s
  | .exit => some { sys with spool := none }

lemma step_of_act {codec : Codec} {sys sys' : System} {label : Label}
    (acted : sys.act codec label = some sys') : Step codec sys label sys' := by
  cases label with
  | open_ cfg random oracle =>
    simp only [act, Option.ite_none_right_eq_some, Option.isNone_iff_eq_none] at acted
    obtain ⟨closed, ⟨⟩⟩ := acted
    exact .open_ cfg random oracle closed
  | call op oracle =>
    simp only [act, Option.map_eq_some_iff] at acted
    obtain ⟨s, isOpen, rfl⟩ := acted
    exact .call op oracle isOpen
  | exit =>
    cases acted
    exact .exit sys

/-- The steps one after the other, as long as a check allows them. -/
def acts (codec : Codec) (ok : System → Label → Bool) (sys : System) (labels : List Label) :
    Option System :=
  labels.foldlM (fun sys label => if ok sys label then sys.act codec label else none) sys

/-- Running labels reaches a state. -/
lemma reaches_of_acts {codec : Codec} {ok : System → Label → Bool} {labels : List Label}
    {admits : System → Label → Prop}
    (admitted : ∀ label ∈ labels, ∀ sys, ok sys label = true → admits sys label)
    (acted : start.acts codec ok labels = some sys) : (spoolLife codec).Reaches admits sys :=
  .of_follow rfl (fun _ _ _ => step_of_act) admitted acted

end System

/-- Every file operation succeeds. -/
def calm : Oracle Site String := ⟨fun _ _ => .ok, fun _ => 0⟩

lemma calm_faultless : calm.Faultless := fun _ _ => rfl

end TechStack.Telemetry
