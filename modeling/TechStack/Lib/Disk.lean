import TechStack.Lib.Bytes
import TechStack.Lib.Io

/-!
# A file system with write-back caching

Files are inodes; a directory gives names to some of them.  Two things can
differ between what a program sees and what the medium holds, and the model
keeps both:

* a file's `data` is what a reader sees, its `durable` the *set* of contents a
  power cut may leave.  Writing adds to the set, since the system may write
  back any part of a write at any time; only a successful `sync` narrows it to
  the data;
* a name's entry `dir` is what a lookup finds, `durableDir` the set of entries
  a power cut may leave; only a successful `syncDir` narrows it.

What a reader sees is always among what may survive, and the structures carry
that as a field.  `PowerCut` picks one survivor for every file and every name.

Each operation is an `Io.op`: its effect is a function of the answer.  A failed
write has written a proper part of the buffer; an operation whose process died
may or may not have taken effect.
-/

namespace TechStack.Lib

/-- One file: what a reader sees, and what a power cut may leave. -/
structure File where
  data : Bytes
  durable : Set Bytes
  data_mem : data ∈ durable

variable {offset : ℕ}

namespace File

/-- A file whose content is on the medium. -/
def settled (data : Bytes) : File := ⟨data, {data}, rfl⟩

@[simp] lemma settled_data (data : Bytes) : (settled data).data = data := rfl

@[simp] lemma settled_durable (data : Bytes) : (settled data).durable = {data} := rfl

/-- `data` with `buf` written at `offset`; a hole before it reads as zeros. -/
def splice (data : Bytes) (offset : ℕ) (buf : Bytes) : Bytes :=
  data.take offset ++ List.replicate (offset - data.length) 0 ++ buf ++
    data.drop (offset + buf.length)

@[simp] lemma splice_nil (data : Bytes) (inside : offset ≤ data.length) :
    splice data offset [] = data := by
  simp [splice, Nat.sub_eq_zero_of_le inside]

/-- Writing at the end appends. -/
lemma splice_length (data buf : Bytes) : splice data data.length buf = data ++ buf := by
  simp [splice]

/-- The file after `buf` reached the cache at `offset`: any part of it may have
been written back. -/
def write (file : File) (offset : ℕ) (buf : Bytes) : File where
  data := splice file.data offset buf
  durable := file.durable ∪ {content | ∃ n, content = splice file.data offset (buf.take n)}
  data_mem := Or.inr ⟨buf.length, by rw [List.take_length]⟩

/-- The file cut to `size` bytes. -/
def truncate (file : File) (size : ℕ) : File where
  data := file.data.take size
  durable := file.durable ∪ {file.data.take size}
  data_mem := Or.inr rfl

@[simp] lemma write_data (file : File) (offset : ℕ) (buf : Bytes) :
    (file.write offset buf).data = splice file.data offset buf := rfl

@[simp] lemma truncate_data (file : File) (size : ℕ) :
    (file.truncate size).data = file.data.take size := rfl

lemma mem_write_durable {file : File} {buf content : Bytes} :
    content ∈ (file.write offset buf).durable ↔
      content ∈ file.durable ∨ ∃ n, content = splice file.data offset (buf.take n) :=
  Iff.rfl

lemma mem_truncate_durable {file : File} {size : ℕ} {content : Bytes} :
    content ∈ (file.truncate size).durable ↔
      content ∈ file.durable ∨ content = file.data.take size :=
  Iff.rfl

/-- What an append that did not complete may have made of a file: a part of the
buffer is visible, and a part of it may be durable. -/
structure Touched (old : File) (buf : Bytes) (file : File) : Prop where
  data : ∃ n, file.data = old.data ++ buf.take n
  durable : ∀ content ∈ file.durable, content ∈ old.durable ∨ ∃ n, content = old.data ++ buf.take n

/-- A part of the buffer reached the end of the file. -/
lemma touched_write (old : File) (buf : Bytes) (n : ℕ) :
    old.Touched buf (old.write old.data.length (buf.take n)) := by
  refine ⟨⟨n, by rw [write_data, splice_length]⟩, fun content mem => ?_⟩
  refine (mem_write_durable.mp mem).imp_right ?_
  rintro ⟨k, rfl⟩
  exact ⟨min k n, by rw [splice_length, List.take_take]⟩

/-- Cutting the file back leaves nothing new. -/
lemma touched_truncate {old file : File} {buf : Bytes} (touched : old.Touched buf file) :
    old.Touched buf (file.truncate old.data.length) ∧
      (file.truncate old.data.length).data = old.data := by
  obtain ⟨n, data⟩ := touched.data
  have back : file.data.take old.data.length = old.data := by rw [data, List.take_left]
  refine ⟨⟨⟨0, by simpa using back⟩, fun content mem => ?_⟩, back⟩
  rcases mem_truncate_durable.mp mem with before | rfl
  · exact touched.durable content before
  · exact Or.inr ⟨0, by simpa using back⟩

end File

/-- Inodes and the names that point to them. -/
structure Disk (ν : Type) where
  files : ℕ → File
  next : ℕ
  dir : ν → Option ℕ
  durableDir : ν → Set (Option ℕ)
  dir_mem : ∀ name, dir name ∈ durableDir name

namespace Disk

variable {ν : Type}

/-- An empty directory. -/
def empty : Disk ν where
  files := fun _ => File.settled []
  next := 0
  dir := fun _ => none
  durableDir := fun _ => {none}
  dir_mem := fun _ => rfl

variable (disk : Disk ν)

/-- Replace one file. -/
def setFile (inode : ℕ) (file : File) : Disk ν :=
  { disk with files := Function.update disk.files inode file }

/-- A fresh, empty, unnamed file. -/
def create : Disk ν :=
  { disk with
    files := Function.update disk.files disk.next (File.settled [])
    next := disk.next + 1 }

/-- Point a name at an entry; until the directory is synced either may survive. -/
def link [DecidableEq ν] (disk : Disk ν) (name : ν) (entry : Option ℕ) : Disk ν :=
  { disk with
    dir := Function.update disk.dir name entry
    durableDir := Function.update disk.durableDir name (disk.durableDir name ∪ {entry})
    dir_mem := by
      intro other
      by_cases same : other = name
      · subst same; simp
      · simpa [Function.update_of_ne same] using disk.dir_mem other }

/-- The directory as it is reaches the medium. -/
def settleDir : Disk ν :=
  { disk with
    durableDir := fun name => {disk.dir name}
    dir_mem := fun _ => rfl }

@[simp] lemma setFile_files_self (inode : ℕ) (file : File) :
    (disk.setFile inode file).files inode = file := by simp [setFile]

@[simp] lemma setFile_setFile (inode : ℕ) (f g : File) :
    (disk.setFile inode f).setFile inode g = disk.setFile inode g := by
  simp [setFile]

lemma setFile_files_of_ne {inode other : ℕ} (file : File) (different : other ≠ inode) :
    (disk.setFile inode file).files other = disk.files other := by
  simp [setFile, different]

@[simp] lemma create_files_next :
    disk.create.files disk.next = File.settled [] := by simp [create]

lemma create_files_of_lt {inode : ℕ} (old : inode < disk.next) :
    disk.create.files inode = disk.files inode := by
  simp [create, Nat.ne_of_lt old]

@[simp] lemma link_files [DecidableEq ν] (disk : Disk ν) (name : ν) (entry : Option ℕ) :
    (disk.link name entry).files = disk.files := rfl

@[simp] lemma link_dir_self [DecidableEq ν] (disk : Disk ν) (name : ν) (entry : Option ℕ) :
    (disk.link name entry).dir name = entry := by simp [link]

lemma mem_link_durableDir_self [DecidableEq ν] {disk : Disk ν} {name : ν}
    {entry other : Option ℕ} :
    other ∈ (disk.link name entry).durableDir name ↔
      other ∈ disk.durableDir name ∨ other = entry := by
  simp [link, or_comm]

@[simp] lemma settleDir_files : disk.settleDir.files = disk.files := rfl

@[simp] lemma settleDir_next : disk.settleDir.next = disk.next := rfl

@[simp] lemma settleDir_dir : disk.settleDir.dir = disk.dir := rfl

@[simp] lemma settleDir_durableDir (name : ν) :
    disk.settleDir.durableDir name = {disk.dir name} := rfl

/-- What the name's file reads as. -/
def read (name : ν) : Option Bytes :=
  (disk.dir name).map fun inode => (disk.files inode).data

/-- **A power cut** leaves, of every file and of every name, one of the versions
that may survive, and that one is then settled. -/
structure PowerCut (before after : Disk ν) : Prop where
  next : after.next = before.next
  files : ∀ inode, ∃ content ∈ (before.files inode).durable,
    after.files inode = File.settled content
  dir : ∀ name, after.dir name ∈ before.durableDir name
  durableDir : ∀ name, after.durableDir name = {after.dir name}

/-! ### The operations -/

variable {κ ε τ : Type} [DecidableEq κ]

/-- No event of the trace. -/
def quiet : Outcome ε → List τ := fun _ => []

/-- Write a buffer at an offset of a file.  A failed write has written a proper
part of the buffer, an interrupted one any part. -/
def writeAt (site : κ) (inode : ℕ) (buf : Bytes) (offset : ℕ) :
    Io (Disk ν) κ ε τ (Option ε) :=
  Io.op site (fun outcome disk =>
    let written := match outcome with
      | .ok => buf
      | .fail _ done => buf.take (min done (buf.length - 1))
      | .crash done => buf.take done
    disk.setFile inode ((disk.files inode).write offset written)) quiet

/-- Force a file's data to the medium. -/
def sync (site : κ) (inode : ℕ) : Io (Disk ν) κ ε τ (Option ε) :=
  Io.op site (fun outcome disk =>
    match outcome with
    | .ok => disk.setFile inode (File.settled (disk.files inode).data)
    | _ => disk) quiet

/-- The operation took effect: it succeeded, or the process died after it did. -/
def tookEffect : Outcome ε → Bool
  | .ok => true
  | .fail _ _ => false
  | .crash done => done != 0

/-- Cut a file to a size. -/
def truncate (site : κ) (inode : ℕ) (size : ℕ) : Io (Disk ν) κ ε τ (Option ε) :=
  Io.op site (fun outcome disk =>
    if tookEffect outcome then
      disk.setFile inode ((disk.files inode).truncate size)
    else disk) quiet

/-- Create a file under a temporary name that nobody looks up. -/
def createTemp (site : κ) : Io (Disk ν) κ ε τ (Except ε ℕ) := do
  let disk ← Io.look
  match ← Io.op site (fun outcome disk =>
      if tookEffect outcome then disk.create else disk) quiet with
  | some cause => pure (.error cause)
  | none => pure (.ok disk.next)

/-- Give a file a name, recording an event if the name changed. -/
def rename [DecidableEq ν] (site : κ) (inode : ℕ) (name : ν) (event : τ) :
    Io (Disk ν) κ ε τ (Option ε) :=
  Io.op site (fun outcome disk =>
      if tookEffect outcome then disk.link name (some inode) else disk)
    (fun outcome => if tookEffect outcome then [event] else [])

/-- Remove a name. -/
def remove [DecidableEq ν] (site : κ) (name : ν) : Io (Disk ν) κ ε τ (Option ε) :=
  Io.op site (fun outcome disk =>
    if tookEffect outcome then disk.link name none else disk) quiet

/-- Force the directory to the medium. -/
def syncDir (site : κ) : Io (Disk ν) κ ε τ (Option ε) :=
  Io.op site (fun outcome disk =>
    match outcome with
    | .ok => disk.settleDir
    | _ => disk) quiet

/-- An operation that only reads: it may fail but never changes the device. -/
def access (site : κ) : Io (Disk ν) κ ε τ (Option ε) :=
  Io.op site (fun _ disk => disk) quiet

/-- The directory after a name was opened for writing from scratch: its file is
emptied, or created. -/
def reset [DecidableEq ν] (disk : Disk ν) (name : ν) : Disk ν :=
  match disk.dir name with
  | some inode => disk.setFile inode ((disk.files inode).truncate 0)
  | none => disk.create.link name (some disk.next)

/-- Open a file for writing from scratch, creating or emptying it.  An attempt
that failed may still have created or emptied it. -/
def openTruncated [DecidableEq ν] (site : κ) (name : ν) : Io (Disk ν) κ ε τ (Except ε ℕ) := do
  let disk ← Io.look
  match ← Io.op site (fun outcome disk =>
      match outcome with
      | .ok => disk.reset name
      | .fail _ done => if done = 0 then disk else disk.reset name
      | .crash done => if done = 0 then disk else disk.reset name) quiet with
  | some cause => pure (.error cause)
  | none => pure (.ok ((disk.dir name).getD disk.next))

/-! ### Their rules

One rule for each operation: what has to be shown if it succeeds, if it fails,
and if the process dies in it. -/

section Rules

open Io

variable {oracle : Oracle κ ε} {disk : Disk ν} {trace : List τ} {site : κ} {inode : ℕ}
  {name : ν} {Q : Option (Option ε) → Disk ν → List τ → Prop}

/-- An operation that leaves no event. -/
lemma always_quiet {effect : Outcome ε → Disk ν → Disk ν}
    (ok : Q (some none) (effect .ok disk) trace) (fail : ∀ cause done, oracle.FailsAt site →
      Q (some (some cause)) (effect (.fail cause done) disk) trace)
    (died : ∀ done, oracle.DiesAt site → Q none (effect (.crash done) disk) trace) :
    Always oracle (Io.op site effect quiet) disk trace Q := by
  refine always_op fun outcome answers => ?_
  rw [quiet, List.append_nil]
  cases outcome with
  | ok => exact ok
  | fail cause done => exact fail cause done ⟨cause, done, answers⟩
  | crash done => exact died done ⟨done, answers⟩

lemma always_writeAt {buf : Bytes}
    (ok : Q (some none) (disk.setFile inode ((disk.files inode).write offset buf)) trace)
    (fail : ∀ cause n, oracle.FailsAt site → n ≤ buf.length - 1 → Q (some (some cause))
      (disk.setFile inode ((disk.files inode).write offset (buf.take n))) trace)
    (died : ∀ n, oracle.DiesAt site → Q none
      (disk.setFile inode ((disk.files inode).write offset (buf.take n))) trace) :
    Always oracle (writeAt site inode buf offset) disk trace Q :=
  always_quiet ok (fun cause _ fails => fail cause _ fails (Nat.min_le_right _ _)) died

lemma always_sync
    (ok : Q (some none) (disk.setFile inode (File.settled (disk.files inode).data)) trace)
    (fail : ∀ cause, oracle.FailsAt site → Q (some (some cause)) disk trace)
    (died : oracle.DiesAt site → Q none disk trace) : Always oracle (sync site inode) disk trace Q :=
  always_quiet ok (fun cause _ => fail cause) fun _ => died

lemma always_truncate {size : ℕ}
    (ok : Q (some none) (disk.setFile inode ((disk.files inode).truncate size)) trace)
    (fail : ∀ cause, oracle.FailsAt site → Q (some (some cause)) disk trace)
    (before : oracle.DiesAt site → Q none disk trace)
    (after : oracle.DiesAt site → Q none (disk.setFile inode ((disk.files inode).truncate size)) trace) :
    Always oracle (truncate site inode size) disk trace Q := by
  refine always_quiet ok (fun cause _ => fail cause) fun done => ?_
  cases done with
  | zero => exact before
  | succ => exact after

lemma always_createTemp {Q : Option (Except ε ℕ) → Disk ν → List τ → Prop}
    (ok : Q (some (.ok disk.next)) disk.create trace)
    (fail : ∀ cause, oracle.FailsAt site → Q (some (.error cause)) disk trace)
    (before : oracle.DiesAt site → Q none disk trace) (after : oracle.DiesAt site → Q none disk.create trace) :
    Always oracle (createTemp site) disk trace Q := by
  refine always_bind (always_look (always_bind (always_quiet (always_pure ok) ?_ fun done => ?_)))
  · exact fun cause _ fails => always_pure (fail cause fails)
  · cases done with
    | zero => exact before
    | succ => exact after

lemma always_rename [DecidableEq ν] {event : τ}
    (ok : Q (some none) (disk.link name (some inode)) (trace ++ [event]))
    (fail : ∀ cause, oracle.FailsAt site → Q (some (some cause)) disk trace)
    (before : oracle.DiesAt site → Q none disk trace)
    (after : oracle.DiesAt site → Q none (disk.link name (some inode)) (trace ++ [event])) :
    Always oracle (rename site inode name event) disk trace Q := by
  refine always_op fun outcome answers => ?_
  cases outcome with
  | ok => exact ok
  | fail cause done => simpa [tookEffect, Outcome.reply] using fail cause ⟨cause, done, answers⟩
  | crash done => cases done with
    | zero => simpa [tookEffect, Outcome.reply] using before ⟨0, answers⟩
    | succ done => simpa [tookEffect, Outcome.reply] using after ⟨done + 1, answers⟩

lemma always_remove [DecidableEq ν] (ok : Q (some none) (disk.link name none) trace)
    (fail : ∀ cause, oracle.FailsAt site → Q (some (some cause)) disk trace)
    (before : oracle.DiesAt site → Q none disk trace) (after : oracle.DiesAt site → Q none (disk.link name none) trace) :
    Always oracle (remove site name) disk trace Q := by
  refine always_quiet ok (fun cause _ => fail cause) fun done => ?_
  cases done with
  | zero => exact before
  | succ => exact after

lemma always_syncDir (ok : Q (some none) disk.settleDir trace)
    (fail : ∀ cause, oracle.FailsAt site → Q (some (some cause)) disk trace)
    (died : oracle.DiesAt site → Q none disk trace) : Always oracle (syncDir site) disk trace Q :=
  always_quiet ok (fun cause _ => fail cause) fun _ => died

lemma always_access (ok : Q (some none) disk trace)
    (fail : ∀ cause, oracle.FailsAt site → Q (some (some cause)) disk trace)
    (died : oracle.DiesAt site → Q none disk trace) : Always oracle (access site) disk trace Q :=
  always_quiet ok (fun cause _ => fail cause) fun _ => died

lemma always_openTruncated [DecidableEq ν] {Q : Option (Except ε ℕ) → Disk ν → List τ → Prop}
    (ok : Q (some (.ok ((disk.dir name).getD disk.next))) (disk.reset name) trace)
    (fail : ∀ cause, oracle.FailsAt site →
      Q (some (.error cause)) disk trace ∧ Q (some (.error cause)) (disk.reset name) trace)
    (before : oracle.DiesAt site → Q none disk trace) (after : oracle.DiesAt site → Q none (disk.reset name) trace) :
    Always oracle (openTruncated site name) disk trace Q := by
  refine always_bind (always_look (always_bind
    (always_quiet (always_pure ok) (fun cause done fails => ?_) fun done => ?_)))
  · obtain ⟨untouched, touched⟩ := fail cause fails
    cases done with
    | zero => exact always_pure untouched
    | succ => exact always_pure touched
  · cases done with
    | zero => exact before
    | succ => exact after

end Rules

end Disk

end TechStack.Lib
