import Anago.ProgramEnds
import Mathlib.Logic.Function.Basic

/-!
# Files that are written whole or not at all

A file is written beside its place and then put there, by a rename that replaces what is
there or by a link that does not. Every call may fail and then has no effect, but for a
write, which may stop on the way.
-/

open Program

namespace Fsutil

abbrev Files := String → Option String

inductive Kind where
  | notFound
  | alreadyExists
  | other
  deriving DecidableEq, Repr

structure IoError where
  kind : Kind
  text : String
  deriving DecidableEq, Repr

/-- A call, with the paths it is made for. -/
inductive Op where
  | dir
  | dirMode
  | lock
  | reopen (path : String)
  | create (path : String)
  | mode (path : String)
  | owner (path : String)
  | write (path : String)
  | sync (path : String)
  | read (path : String)
  | rename (source target : String)
  | link (source target : String)
  | remove (path : String)
  deriving DecidableEq, Repr

/-- How a call fails, and how much of a write had gone out by then. -/
structure Fault where
  text : String
  written : Nat

/-- Which calls fail: the `n`-th of all, if it is this one. -/
class Faults where
  fault : Nat → Op → Option Fault

/-- The files by their paths, how many calls were made, which of them did not work, and the
paths at which one of them made a new file. -/
structure Disk where
  files : Files
  calls : Nat
  failed : List Op
  created : List String

/-- A disk on which nothing has been done yet. -/
def Disk.holding (files : Files) : Disk := ⟨files, 0, [], []⟩

def Op.creates : Op → List String
  | create path => [path]
  | _ => []

/-- The disk after a call. -/
def Disk.after {α : Type} (disk : Disk) (op : Op) (result : Outcome IoError α × Files) : Disk where
  files := result.2
  calls := disk.calls + 1
  failed := if result.1.isOk then disk.failed else disk.failed ++ [op]
  created := if result.1.isOk then disk.created ++ op.creates else disk.created

def put (path : String) (content : Option String) (files : Files) : Files :=
  Function.update files path content

abbrev Io (α : Type) := Program Disk IoError α

section
variable [Faults]

/-- A call: what it does to the files, or what a failure leaves of it. -/
def calling {α : Type} (op : Op) (torn : Fault → Files → Files)
    (f : Files → Outcome IoError α × Files) :
    Io α :=
  primitive fun disk =>
    let result : Outcome IoError α × Files := match Faults.fault disk.calls op with
      | some fault => (.err ⟨.other, fault.text⟩, torn fault disk.files)
      | none => f disk.files
    (result.1, disk.after op result)

def call {α : Type} (op : Op) (f : Files → Outcome IoError α × Files) : Io α :=
  calling op (fun _ files => files) f

/-- A mode or an owner that is set, a flush, a directory that is made: no file changes. -/
def quietly (op : Op) : Io Unit := call op fun files => (.ok (), files)

/-- Creates a file that must not exist yet. -/
def create (path : String) : Io Unit :=
  call (.create path) fun files =>
    match files path with
    | some _ => (.err ⟨.alreadyExists, "File exists (os error 17)"⟩, files)
    | none => (.ok (), put path (some "") files)

def missing : IoError := ⟨.notFound, "No such file or directory (os error 2)"⟩

def write (path text : String) : Io Unit :=
  calling (.write path)
    (fun fault => put path (some (String.ofList (text.toList.take fault.written))))
    fun files => (.ok (), put path (some text) files)

def read (path : String) : Io String :=
  call (.read path) fun files =>
    match files path with
    | none => (.err missing, files)
    | some text => (.ok text, files)

/-- Replaces what is there. -/
def rename (source target : String) : Io Unit :=
  call (.rename source target) fun files =>
    match files source with
    | none => (.err missing, files)
    | some text => (.ok (), put target (some text) (put source none files))

/-- Fails where something is there. -/
def hardLink (source target : String) : Io Unit :=
  call (.link source target) fun files =>
    match files source, files target with
    | none, _ => (.err missing, files)
    | some _, some _ => (.err ⟨.alreadyExists, "File exists (os error 17)"⟩, files)
    | some text, none => (.ok (), put target (some text) files)

def removeFile (path : String) : Io Unit :=
  call (.remove path) fun files =>
    match files path with
    | none => (.err missing, files)
    | some _ => (.ok (), put path none files)

/-- `create_new_with`: the file, and then its mode. -/
def createNewWith (path : String) : Io Unit := do
  create path
  (quietly (.mode path)).onErr (removeFile path)

/-- Clears anything left at that name first. -/
def replaceWith (path : String) : Io Unit :=
  (removeFile path).settle (fun _ => createNewWith path) fun e =>
    if e.kind = .notFound then createNewWith path else ret (.err e)

/-- Gives a file to its owner, if it is to have another. -/
def giveTo (path : String) (owner : Option (UInt32 × UInt32)) : Io Unit :=
  match owner with
  | some _ => quietly (.owner path)
  | none => ret (.ok ())

/-- All of the text, then the owner, and on disk. -/
def fill (path text : String) (owner : Option (UInt32 × UInt32)) : Io Unit := do
  write path text
  giveTo path owner
  quietly (.sync path)

/-- `write_private_owned`. -/
def writePrivateOwned (path text : String) (owner : Option (UInt32 × UInt32)) : Io Unit := do
  let tmp := path ++ ".tmp"
  replaceWith tmp
  (fill tmp text owner).onErr (removeFile tmp)
  (rename tmp path).onErr (removeFile tmp)

def writePrivate (path text : String) : Io Unit := writePrivateOwned path text none

/-- `write_system`: the same with another mode. -/
def writeSystem (path text : String) : Io Unit := do
  let tmp := path ++ ".tmp"
  replaceWith tmp
  (fill tmp text none).onErr (removeFile tmp)
  (rename tmp path).onErr (removeFile tmp)

/-- `prepare_private`: the sibling is left to the caller. -/
def preparePrivate (path text : String) : Io String := do
  let tmp := path ++ ".tmp"
  replaceWith tmp
  fill tmp text none
  ret (.ok tmp)

/-- Copies what `path` holds to a sibling; nothing where nothing was there. -/
def backUp (path : String) : Io (Option String) :=
  (read path).settle
    (fun previous => do
      let backup := path ++ ".bak"
      replaceWith backup
      fill backup previous none
      ret (.ok (some backup)))
    fun e => if e.kind = .notFound then ret (.ok none) else ret (.err e)

/-- What is reported when `path` could not be put back. -/
def notPutBack (path : String) (backup : Option String) (cause e : IoError) : IoError :=
  ⟨cause.kind,
    cause.text ++ "; and " ++ path ++ " could not be put back afterwards (" ++ e.text ++ ")" ++
    match backup with
    | some backup => " — the previous contents are in " ++ backup
    | none => ""⟩

/-- Puts `path` back the way it was. The error is the one that caused it, or both. -/
def undo (path : String) (backup : Option String) (cause : IoError) : Io Unit :=
  (match backup with
    | some backup => rename backup path
    | none => removeFile path).settle
    (fun _ => ret (.err cause)) fun e => ret (.err (notPutBack path backup cause e))

/-- `if let Some(backup)`: the copy goes. -/
def removeBackup (backup : Option String) : Io Unit :=
  match backup with
  | some backup => (removeFile backup).discard
  | none => ret (.ok ())

/-- The two renames, the first of which is undone if the second fails. -/
def publishPair (first second firstTmp secondTmp : String) (backup : Option String) : Io Unit := do
  (rename firstTmp first).onErr (do
    (removeFile firstTmp).discard
    (removeFile secondTmp).discard
    removeBackup backup : Io Unit)
  (rename secondTmp second).settle (fun _ => ret (.ok ())) fun e => do
    (removeFile secondTmp).discard
    undo first backup e
  removeBackup backup

/-- `write_private_pair`: nothing is put in place until both are ready. -/
def writePrivatePair (first second : String × String) : Io Unit := do
  let firstTmp ← preparePrivate first.1 first.2
  let secondTmp ← (preparePrivate second.1 second.2).onErr (removeFile firstTmp)
  let backup ← (backUp first.1).onErr (do
    (removeFile firstTmp).discard
    removeFile secondTmp : Io Unit)
  publishPair first.1 second.1 firstTmp secondTmp backup

/-- `create_new_private_owned`, by a link that does not replace. -/
def createNewPrivateOwned (pid path text : String)
    (owner : Option (UInt32 × UInt32)) : Io Unit := do
  let tmp := path ++ "." ++ pid ++ ".tmp"
  createNewWith tmp
  (fill tmp text owner).onErr (removeFile tmp)
  (hardLink tmp path).lastly (removeFile tmp)

def createNewPrivate (pid path text : String) : Io Unit := createNewPrivateOwned pid path text none

/-- `ensure_private_dir`: the directory and its mode. -/
def ensurePrivateDir : Io Unit := do
  quietly .dir
  quietly .dirMode

/-- Opens the lock's own file, or makes it. -/
def lockFile (path : String) : Io Unit :=
  (createNewWith path).settle (fun _ => ret (.ok ())) fun e =>
    if e.kind = .alreadyExists then quietly (.reopen path) else ret (.err e)

/-- `FileLock::acquire`. -/
def acquire (path : String) : Io Unit := do
  lockFile path
  quietly .lock

end

/-- What is known of the files before and after. -/
abbrev Leaves {ε α : Type} (pre : Files → Prop) (p : Program Disk ε α) (good : α → Files → Prop)
    (bad : ε → Files → Prop) : Prop :=
  Meets (fun disk => pre disk.files) p (fun a disk => good a disk.files) fun e disk =>
    bad e disk.files

/-- Where the files may differ from `files`. -/
def Only (aside : String → Prop) (files files' : Files) : Prop :=
  ∀ path, ¬aside path → files' path = files path

theorem put_other {path other : String} (h : other ≠ path)
    (content : Option String) (files : Files) :
    put path content files other = files other :=
  Function.update_of_ne h ..

theorem put_self (path : String) (content : Option String) (files : Files) :
    put path content files path = content :=
  Function.update_self ..

theorem Only.put {aside : String → Prop} {files files' : Files} (h : Only aside files files')
    {path : String} (free : aside path) (content : Option String) :
    Only aside files (put path content files') := by
  intro other hother
  rw [put_other (by rintro rfl; exact hother free)]
  exact h other hother

/-- All but one of them. -/
def without (aside : String → Prop) (path : String) : String → Prop :=
  fun other => aside other ∧ other ≠ path

/-- A file beside the others whose content is known. -/
theorem Only.know {aside : String → Prop} {files files' : Files} (h : Only aside files files')
    (path : String) (content : Option String) :
    Only (without aside path) (Fsutil.put path content files) (Fsutil.put path content files') := by
  intro other hother
  by_cases same : other = path
  · rw [same, put_self, put_self]
  · rw [put_other same, put_other same]
    exact h other fun free => hother ⟨free, same⟩

/-- What is known of a file beside the others is forgotten. -/
theorem Only.forget {aside : String → Prop} {files files' files'' : Files} {path : String}
    (h : Only (without aside path) files'' files') (free : aside path)
    (same : ∀ other, other ≠ path → files'' other = files other) : Only aside files files' := by
  intro other hother
  rw [h other fun free => hother free.1, same other (by rintro rfl; exact hother free)]

/-- Something that is put in place. -/
theorem Only.place {aside : String → Prop} {files files' : Files} (h : Only aside files files')
    (path : String) (content : Option String) :
    Only aside (Fsutil.put path content files) (Fsutil.put path content files') :=
  fun other hother => h.know path content other fun free => hother free.1

variable [Faults]

/-- No removal goes wrong. -/
def Removes : Prop := ∀ n path, Faults.fault n (.remove path) = none

section
variable {α : Type} {op : Op} {torn : Fault → Files → Files} {f : Files → Outcome IoError α × Files}
  (pre : Files → Prop) (good : α → Files → Prop) (bad : IoError → Files → Prop)

/-- A call works, or it is one of those that did not. -/
theorem calling_meets
    (fails : ∀ files fault, pre files → bad ⟨.other, fault.text⟩ (torn fault files))
    (works : ∀ files, pre files → Ends good bad (f files)) :
    Meets (fun disk => pre disk.files) (calling op torn f) (fun a disk => good a disk.files)
      fun e disk => bad e disk.files ∧ op ∈ disk.failed := by
  refine Meets.primitive fun disk hdisk => ?_
  cases Faults.fault disk.calls op with
  | some fault => exact .err ⟨fails _ fault hdisk, by simp [Disk.after, Outcome.isOk]⟩
  | none =>
    have ends := works _ hdisk
    revert ends
    generalize f disk.files = r
    rintro (h | h)
    · exact .ok h
    · exact .err ⟨h, by simp [Disk.after, Outcome.isOk]⟩

theorem calling_leaves
    (fails : ∀ files fault, pre files → bad ⟨.other, fault.text⟩ (torn fault files))
    (works : ∀ files, pre files → Ends good bad (f files)) :
    Leaves pre (calling op torn f) good bad :=
  (calling_meets pre good bad fails works).mono (fun _ h => h) (fun _ _ h => h) fun _ _ h => h.1

/-- A call of which it is known that it does not go wrong by itself. -/
theorem call_leaves (sure : ∀ n, Faults.fault n op = none)
    (works : ∀ files, pre files → Ends good bad (f files)) : Leaves pre (call op f) good bad := by
  refine Meets.primitive fun disk hdisk => ?_
  have ends := works _ hdisk
  rw [sure]
  revert ends
  generalize f disk.files = r
  rintro (h | h)
  · exact .ok h
  · exact .err h

end

theorem quietly_leaves (op : Op) (pre : Files → Prop) :
    Leaves pre (quietly op) (fun _ => pre) fun _ => pre :=
  calling_leaves pre (fun _ => pre) (fun _ => pre) (fun _ _ h => h) fun _ h => .ok h

theorem giveTo_leaves (path : String) (owner : Option (UInt32 × UInt32)) (pre : Files → Prop) :
    Leaves pre (giveTo path owner) (fun _ => pre) fun _ => pre := by
  cases owner with
  | none => exact Meets.value fun _ h => h
  | some owner => exact quietly_leaves _ pre

theorem ensurePrivateDir_leaves (pre : Files → Prop) :
    Leaves pre ensurePrivateDir (fun _ => pre) fun _ => pre :=
  (quietly_leaves _ pre).bind fun _ => quietly_leaves _ pre

/-- After a removal that works, or finds nothing. -/
theorem removeFile_clears {aside : String → Prop} {files : Files}
    (removes : Removes) (path : String) :
    Leaves (Only aside files) (removeFile path) (fun _ => Only aside (put path none files))
      fun _ => Only aside (put path none files) := by
  rw [removeFile]
  refine call_leaves (Only aside files) (fun _ => Only aside (put path none files))
    (fun _ => Only aside (put path none files)) (fun n => removes n path) fun files' h => ?_
  cases hpath : files' path with
  | some text => exact .ok (h.place path none)
  | none =>
    refine .err fun other hother => ?_
    by_cases same : other = path
    · rw [same, put_self, hpath]
    · rw [put_other same, h other hother]

section
variable {aside : String → Prop} {files : Files} {path : String} (free : aside path)
include free

theorem create_leaves :
    Leaves (Only aside files) (create path) (fun _ => Only aside files) fun _ =>
      Only aside files := by
  rw [create, call]
  refine calling_leaves (Only aside files) (fun _ => Only aside files) (fun _ => Only aside files)
    (fun _ _ h => h) fun files' h => ?_
  cases files' path with
  | some text => exact .err h
  | none => exact .ok (h.put free _)

theorem removeFile_leaves :
    Leaves (Only aside files) (removeFile path) (fun _ => Only aside files) fun _ =>
      Only aside files := by
  rw [removeFile, call]
  refine calling_leaves (Only aside files) (fun _ => Only aside files) (fun _ => Only aside files)
    (fun _ _ h => h) fun files' h => ?_
  cases files' path with
  | some text => exact .ok (h.put free _)
  | none => exact .err h

theorem createNewWith_leaves :
    Leaves (Only aside files) (createNewWith path) (fun _ => Only aside files) fun _ =>
      Only aside files :=
  (create_leaves free).bind fun _ =>
    Meets.onErr (quietly_leaves _ (Only aside files)) fun _ => removeFile_leaves free

theorem replaceWith_leaves :
    Leaves (Only aside files) (replaceWith path) (fun _ => Only aside files) fun _ =>
      Only aside files := by
  refine Meets.settle (removeFile_leaves free) (fun _ => createNewWith_leaves free) fun e => ?_
  by_cases notFound : e.kind = .notFound
  · rw [if_pos notFound]
    exact createNewWith_leaves free
  · rw [if_neg notFound]
    exact Meets.error fun _ h => h

theorem write_leaves (text : String) :
    Leaves (Only aside files) (write path text)
      (fun _ => Only (without aside path) (put path (some text) files)) fun _ => Only aside files :=
  calling_leaves (Only aside files)
    (fun _ => Only (without aside path) (put path (some text) files))
    (fun _ => Only aside files) (fun _ _ h => h.put free _) fun _ h => .ok (h.know path _)

/-- A sibling with all of its text, made durable. -/
theorem fill_leaves (text : String) (owner : Option (UInt32 × UInt32)) :
    Leaves (Only aside files) (fill path text owner)
      (fun _ => Only (without aside path) (put path (some text) files)) fun _ =>
        Only aside files := by
  have less : ∀ {files' : Files}, Only (without aside path) (put path (some text) files) files' →
      Only aside files files' := fun h => h.forget free fun _ hother => put_other hother ..
  refine (write_leaves free text).bind fun _ => ?_
  refine ((giveTo_leaves path owner _).mono (fun _ h => h) (fun _ _ h => h) fun _ _ h =>
    less h).bind fun _ => ?_
  exact (quietly_leaves _ _).mono (fun _ h => h) (fun _ _ h => h) fun _ _ h => less h

theorem acquire_leaves :
    Leaves (Only aside files) (acquire path) (fun _ => Only aside files) fun _ =>
      Only aside files := by
  refine (Meets.settle (createNewWith_leaves free) (fun _ => Meets.value fun _ h =>
    h) fun e => ?_).bind
    fun _ => quietly_leaves _ (Only aside files)
  by_cases exists' : e.kind = .alreadyExists
  · rw [if_pos exists']
    exact quietly_leaves _ (Only aside files)
  · rw [if_neg exists']
    exact Meets.error fun _ h => h

end

section
variable {aside : String → Prop} {files : Files} {source target : String}

theorem rename_meets {text : String} (full : files source = some text) (inside : ¬aside source) :
    Meets (fun disk => Only aside files disk.files) (rename source target)
      (fun _ disk => Only aside (put target (some text) (put source none files)) disk.files)
      fun _ disk => Only aside files disk.files ∧ .rename source target ∈ disk.failed := by
  rw [rename, call]
  refine calling_meets (Only aside files)
    (fun _ => Only aside (put target (some text) (put source none files)))
      (fun _ => Only aside files)
    (fun _ _ h => h) fun files' h => ?_
  rw [(h source inside).trans full]
  exact .ok ((h.place source none).place target (some text))

theorem rename_leaves {text : String} (full : files source = some text) (inside : ¬aside source) :
    Leaves (Only aside files) (rename source target)
      (fun _ => Only aside (put target (some text) (put source none files))) fun _ =>
        Only aside files :=
  (rename_meets full inside).mono (fun _ h => h) (fun _ _ h => h) fun _ _ h => h.1

/-- A link leaves alone what is there. -/
theorem hardLink_leaves {text : String} (full : files source = some text) (inside : ¬aside source)
    (there : ¬aside target) :
    Leaves (Only aside files) (hardLink source target)
      (fun _ files' => files target = none ∧ Only aside (put target (some text) files) files')
      fun _ => Only aside files := by
  rw [hardLink, call]
  refine calling_leaves (Only aside files)
    (fun _ files' => files target = none ∧ Only aside (put target (some text) files) files')
    (fun _ => Only aside files) (fun _ _ h => h) fun files' h => ?_
  rw [(h source inside).trans full, h target there]
  cases htarget : files target with
  | some text => exact .err h
  | none => exact .ok ⟨rfl, h.place target (some text)⟩

end

/-- `write_private` replaces the file with all of its text, or leaves it as it was. -/
theorem writePrivate_leaves {aside : String → Prop} (files : Files) {path : String} (text : String)
    (free : aside (path ++ ".tmp")) :
    Leaves (Only aside files) (writePrivate path text)
      (fun _ => Only aside (put path (some text) files)) fun _ => Only aside files := by
  refine (replaceWith_leaves free).bind fun _ => ?_
  refine (Meets.onErr (fill_leaves free text none) fun _ => removeFile_leaves free).bind fun _ => ?_
  refine Meets.onErr ((rename_leaves (put_self ..) fun h => h.2 rfl).mono (fun _ h => h)
    (fun _ _ h => h.forget free fun other hother => ?_)
    fun _ _ h => h.forget free fun _ hother => put_other hother ..) fun _ => removeFile_leaves free
  by_cases same : other = path
  · rw [same, put_self, put_self]
  · rw [put_other same, put_other same, put_other hother, put_other hother]

/-- `create_new_private` makes the file with all of its text where nothing was. -/
theorem createNewPrivate_leaves {aside : String → Prop} (files : Files)
    {pid path : String} (text : String) (free : aside (path ++ "." ++ pid ++ ".tmp"))
    (inside : ¬aside path) :
    Leaves (Only aside files) (createNewPrivate pid path text)
      (fun _ files' => files path = none ∧ Only aside (put path (some text) files) files')
      fun _ => Only aside files := by
  have apart : path ≠ path ++ "." ++ pid ++ ".tmp" := fun same => inside (same ▸ free)
  refine (createNewWith_leaves free).bind fun _ => ?_
  refine (Meets.onErr (fill_leaves free text none) fun _ => removeFile_leaves free).bind fun _ => ?_
  refine Meets.lastly ((hardLink_leaves (put_self ..) (fun h => h.2 rfl) fun h => inside h.1).mono
    (fun _ h => h) (fun _ _ h => ⟨?_, h.2.forget free fun other hother => ?_⟩)
    fun _ _ h => h.forget free fun _ hother => put_other hother ..)
    (fun _ => Meets.given fun new => (removeFile_leaves free).mono (fun _ h => h)
      (fun _ _ h => ⟨new, h⟩)
      fun _ _ h => ⟨new, h⟩) fun _ => removeFile_leaves free
  · rw [← h.1, put_other apart]
  · by_cases same : other = path
    · rw [same, put_self, put_self]
    · rw [put_other same, put_other same, put_other hother]

section
variable {aside : String → Prop} {files : Files} {path : String}

theorem preparePrivate_leaves (text : String) (free : aside (path ++ ".tmp")) :
    Leaves (Only aside files) (preparePrivate path text)
      (fun tmp files' => tmp = path ++ ".tmp" ∧
        Only (without aside (path ++ ".tmp")) (put (path ++ ".tmp") (some text) files) files')
      fun _ => Only aside files :=
  (replaceWith_leaves free).bind fun _ => (fill_leaves free text none).bind
    fun _ => Meets.value fun _ h => ⟨rfl, h⟩

/-- What a backup holds: nothing of a file that was not there, or all of what it held. -/
inductive BackedUp (aside : String → Prop) (path : String) (files : Files) :
    Option String → Files → Prop
  | absent {files' : Files} : files path = none → Only aside files files' →
    BackedUp aside path files none files'
  | copied {previous : String} {files' : Files} : files path = some previous →
    Only (without aside (path ++ ".bak")) (put (path ++ ".bak") (some previous) files) files' →
    BackedUp aside path files (some (path ++ ".bak")) files'

theorem backUp_leaves (free : aside (path ++ ".bak")) (inside : ¬aside path) :
    Leaves (Only aside files) (backUp path) (BackedUp aside path files) fun _ =>
      Only aside files := by
  have reads : Leaves (Only aside files) (read path)
      (fun previous files' => files path = some previous ∧ Only aside files files')
      fun e files' => (e.kind = .notFound → files path = none) ∧ Only aside files files' := by
    rw [read, call]
    refine calling_leaves (Only aside files)
      (fun previous files' => files path = some previous ∧ Only aside files files')
      (fun e files' => (e.kind = .notFound → files path = none) ∧ Only aside files files')
      (fun _ _ h => ⟨fun other => (by cases other), h⟩) fun files' h => ?_
    rw [h path inside]
    cases hpath : files path with
    | none => exact .err ⟨fun _ => rfl, h⟩
    | some previous => exact .ok ⟨rfl, h⟩
  refine Meets.settle reads (fun previous => ?_) fun e => ?_
  · exact Meets.given fun hprevious => (replaceWith_leaves free).bind fun _ =>
      (fill_leaves free previous none).bind fun _ => Meets.value fun _ h => .copied hprevious h
  · by_cases notFound : e.kind = .notFound
    · rw [if_pos notFound]
      exact Meets.value fun _ h => .absent (h.1 notFound) h.2
    · rw [if_neg notFound]
      exact Meets.error fun _ h => h.2

end

end Fsutil
