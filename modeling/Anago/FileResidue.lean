import Anago.FilePairs

/-!
# What a failed write leaves behind

A writer makes files beside the one it is to write, and removes them again when it fails.
The pair does not, where the text of such a file could not be written or flushed.
-/

open Program

namespace Fsutil

/-- The state of a disk after `n` calls. -/
def At (n : Nat) (files : Files) (created : List String) (disk : Disk) : Prop :=
  disk.calls = n ∧ disk.files = files ∧ disk.created = created

/-- A call that puts the text of a file on disk. -/
def Op.fills : Op → Bool
  | .write _ | .sync _ => true
  | _ => false

/-- The calls that make a file beside another. -/
def copyOps (tmp : String) : List Op := [.remove tmp, .create tmp, .mode tmp, .write tmp, .sync tmp]

/-- The calls that publish a pair, whose first file is there or not. -/
def pairOps (first second : String) (there : Bool) : List Op :=
  copyOps (first ++ ".tmp") ++ (copyOps (second ++ ".tmp") ++
    (.read first :: ((if there then copyOps (first ++ ".bak") else []) ++
      [.rename (first ++ ".tmp") first, .rename (second ++ ".tmp") second])))

/-- What a pair makes beside its files. -/
def siblings (first second : String) (backup : Option String) : List String :=
  (first ++ ".tmp") :: (second ++ ".tmp") :: backup.toList

variable [Faults]

/-- The first of these calls to go wrong, the first being the `n`-th of all. -/
def firstFault : Nat → List Op → Option Op
  | _, [] => none
  | n, op :: rest => if (Faults.fault n op).isSome then some op else firstFault (n + 1) rest

theorem firstFault_append (n : Nat) (before after : List Op) :
    firstFault n (before ++ after) =
      (firstFault n before).or (firstFault (n + before.length) after) := by
  induction before generalizing n with
  | nil => rfl
  | cons op before ih =>
    rw [List.cons_append, firstFault, firstFault]
    by_cases fails : (Faults.fault n op).isSome
    · rw [if_pos fails, if_pos fails]
      rfl
    · rw [if_neg fails, if_neg fails, ih, List.length_cons, Nat.add_right_comm, Nat.add_assoc]

section
variable {n : Nat} {files : Files} {created : List String} {path : String}

omit [Faults] in
/-- From a disk that is known in full. -/
theorem meets_known {ε α : Type} {p : Program Disk ε α} {pre : Disk → Prop} {good : α → Disk → Prop}
    {bad : ε → Disk → Prop}
    (h : ∀ disk, pre disk → Meets (At disk.calls disk.files disk.created) p good bad) :
    Meets pre p good bad :=
  fun disk hdisk => h disk hdisk disk ⟨rfl, rfl, rfl⟩

/-- The disk after a call is known from the disk before it. -/
theorem calling_at {α : Type} {op : Op} {torn : Fault → Files → Files}
    {f : Files → Outcome IoError α × Files} {good : α → Disk → Prop} {bad : IoError → Disk → Prop}
    {created' : List String} (lists : created ++ op.creates = created')
    (fails : ∀ fault, Faults.fault n op = some fault → ∀ disk,
      At (n + 1) (torn fault files) created disk →
      bad ⟨.other, fault.text⟩ disk)
    (works : Faults.fault n op = none → Ends (fun a files' => ∀ disk,
      At (n + 1) files' created' disk → good a disk)
      (fun e files' => ∀ disk, At (n + 1) files' created disk → bad e disk) (f files)) :
    Meets (At n files created) (calling op torn f) good bad := by
  subst lists
  refine Meets.primitive ?_
  rintro disk ⟨rfl, rfl, rfl⟩
  cases hfault : Faults.fault disk.calls op with
  | some fault => exact .err (fails fault hfault _ ⟨rfl, rfl, by simp [Disk.after, Outcome.isOk]⟩)
  | none =>
    have ends := works hfault
    revert ends
    generalize f disk.files = r
    rintro (h | h)
    · exact .ok (h _ ⟨rfl, rfl, by simp [Disk.after, Outcome.isOk]⟩)
    · exact .err (h _ ⟨rfl, rfl, by simp [Disk.after, Outcome.isOk]⟩)

theorem removeFile_at (removes : Removes) (path : String) :
    Meets (At n files created) (removeFile path) (fun _ => At (n + 1) (put path none files) created)
      fun e disk => e = missing ∧ At (n + 1) (put path none files) created disk := by
  rw [removeFile, call]
  refine calling_at (List.append_nil created) (fun fault fails => ?_) fun _ => ?_
  · rw [removes] at fails
    cases fails
  · cases hpath : files path with
    | some text => exact .ok fun _ h => h
    | none =>
      refine .err fun _ h => ⟨rfl, h.1, ?_, h.2.2⟩
      rw [h.2.1, put, ← hpath, Function.update_eq_self]

theorem create_at (absent : files path = none) :
    Meets (At n files created) (create path)
      (fun _ disk => Faults.fault n (.create path) = none ∧
        At (n + 1) (put path (some "") files) (created ++ [path]) disk)
      fun _ disk => (Faults.fault n (.create path)).isSome ∧ At (n + 1) files created disk := by
  rw [create, call]
  refine calling_at rfl (fun fault fails _ h => ⟨by rw [fails]; rfl, h⟩) fun works => ?_
  rw [absent]
  exact .ok fun _ h => ⟨works, h⟩

theorem quietly_at {op : Op} (plain : op.creates = []) :
    Meets (At n files created) (quietly op)
      (fun _ disk => Faults.fault n op = none ∧ At (n + 1) files created disk)
      fun _ disk => (Faults.fault n op).isSome ∧ At (n + 1) files created disk := by
  rw [quietly, call]
  refine calling_at (by rw [plain, List.append_nil])
    (fun fault fails _ h => ⟨by rw [fails]; rfl, h⟩)
    fun works => .ok fun _ h => ⟨works, h⟩

theorem write_at (path text : String) :
    Meets (At n files created) (write path text)
      (fun _ disk => Faults.fault n (.write path) = none ∧
        At (n + 1) (put path (some text) files) created disk)
      fun _ disk => (Faults.fault n (.write path)).isSome ∧
        ∃ rest, At (n + 1) (put path (some rest) files) created disk := by
  rw [write]
  exact calling_at (List.append_nil created) (fun fault fails _ h => ⟨by rw [fails]; rfl, _, h⟩)
    fun works => .ok fun _ h => ⟨works, h⟩

theorem read_at (path : String) :
    Meets (At n files created) (read path)
      (fun text disk => files path = some text ∧ Faults.fault n (.read path) = none ∧
        At (n + 1) files created disk)
      fun e disk => At (n + 1) files created disk ∧
        ((e.kind = .notFound ∧ files path = none ∧ Faults.fault n (.read path) = none) ∨
          (e.kind ≠ .notFound ∧ (Faults.fault n (.read path)).isSome)) := by
  rw [read, call]
  refine calling_at (List.append_nil created)
    (fun fault fails _ h => ⟨h, .inr ⟨by rintro ⟨⟩, by rw [fails]; rfl⟩⟩)
    fun works => ?_
  cases hpath : files path with
  | some text => exact .ok fun _ h => ⟨rfl, works, h⟩
  | none => exact .err fun _ h => ⟨h, .inl ⟨rfl, rfl, works⟩⟩

theorem rename_at {text : String} (full : files path = some text) (target : String) :
    Meets (At n files created) (rename path target)
      (fun _ disk => Faults.fault n (.rename path target) = none ∧
        At (n + 1) (put target (some text) (put path none files)) created disk)
      fun _ disk => (Faults.fault n (.rename path target)).isSome ∧
        At (n + 1) files created disk := by
  rw [rename, call]
  refine calling_at (List.append_nil created)
    (fun fault fails _ h => ⟨by rw [fails]; rfl, h⟩) fun works => ?_
  rw [full]
  exact .ok fun _ h => ⟨works, h⟩

end

omit [Faults] in
theorem put_put (path : String) (first second : Option String) (files : Files) :
    put path second (put path first files) = put path second files :=
  Function.update_idem ..

/-- A file that was made beside another, if at all, is gone again. -/
def Gone (files : Files) (created : List String) (tmp : String) (disk : Disk) : Prop :=
  disk.files = put tmp none files ∧ ∀ path ∈ disk.created, path ∈ created ∨ path = tmp

/-- A file beside another that could not be made: it is gone, or what there is of it is left. -/
inductive Broken (n : Nat) (files : Files) (created : List String) (tmp : String)
    (disk : Disk) : Prop
  | gone (op : Op) : firstFault n (copyOps tmp) = some op → op.fills = false →
    Gone files created tmp disk →
    Broken n files created tmp disk
  | left (op : Op) {rest : String} : firstFault n (copyOps tmp) = some op → op.fills = true →
    disk.files = put tmp (some rest) files → disk.created = created ++ [tmp] →
    Broken n files created tmp disk

section
variable (removes : Removes) {n : Nat} {files : Files} {created : List String} {path : String}
include removes

/-- A file that is removed again. -/
theorem swept_at {content : Option String} :
    Meets (At n (put path content files) (created ++ [path])) (removeFile path)
      (fun _ => Gone files created path) fun _ => Gone files created path := by
  have gone : ∀ {disk : Disk} {m : Nat},
      At m (put path none (put path content files)) (created ++ [path]) disk →
      Gone files created path disk := by
    intro disk m h
    refine ⟨h.2.1.trans (put_put ..), fun other hother => ?_⟩
    rw [h.2.2, List.mem_append, List.mem_singleton] at hother
    exact hother
  exact (removeFile_at removes path).mono (fun _ h => h) (fun _ _ h => gone h) fun _ _ h => gone h.2

theorem createNewWith_at (absent : files path = none) :
    Meets (At n files created) (createNewWith path)
      (fun _ disk => Faults.fault n (.create path) = none ∧
        Faults.fault (n + 1) (.mode path) = none ∧
        At (n + 2) (put path (some "") files) (created ++ [path]) disk)
      fun _ disk => ((Faults.fault n (.create path)).isSome ∨
          Faults.fault n (.create path) = none ∧ (Faults.fault (n + 1) (.mode path)).isSome) ∧
        Gone files created path disk := by
  refine Meets.bind ((create_at absent).mono (fun _ h => h) (fun _ _ h => h) fun _ disk h => ?_)
    fun _ => Meets.given fun works => ?_
  · refine ⟨.inl h.1, ?_, fun other hother => .inl (by rwa [h.2.2.2] at hother)⟩
    rw [h.2.2.1, put, ← absent, Function.update_eq_self]
  · exact Meets.onErr
      ((quietly_at rfl).mono (fun _ h => h) (fun _ _ h => ⟨works, h⟩) fun _ _ h => h)
      fun _ => Meets.given fun fails => (swept_at removes).mono (fun _ h => h)
        (fun _ _ h => ⟨.inr ⟨works, fails⟩, h⟩) fun _ _ h => ⟨.inr ⟨works, fails⟩, h⟩

theorem replaceWith_at (path : String) :
    Meets (At n files created) (replaceWith path)
      (fun _ disk => Faults.fault (n + 1) (.create path) = none ∧
        Faults.fault (n + 2) (.mode path) = none ∧
        At (n + 3) (put path (some "") files) (created ++ [path]) disk)
      fun _ => Broken n files created path := by
  have made : Meets (At (n + 1) (put path none files) created) (createNewWith path)
      (fun _ disk => Faults.fault (n + 1) (.create path) = none ∧
        Faults.fault (n + 2) (.mode path) = none ∧
        At (n + 3) (put path (some "") files) (created ++ [path]) disk)
      fun _ => Broken n files created path := by
    refine (createNewWith_at removes (put_self ..)).mono (fun _ h => h)
      (fun _ _ h => ?_) fun _ disk h => ?_
    · rwa [put_put] at h
    · have gone : Gone files created path disk := by
        obtain ⟨_, same, others⟩ := h
        exact ⟨by rw [same, put_put], others⟩
      rcases h.1 with fails | ⟨works, fails⟩
      · exact .gone (.create path) (by simp [copyOps, firstFault, removes _ path, fails]) rfl gone
      · exact .gone (.mode path)
          (by simp [copyOps, firstFault, removes _ path, works, fails]) rfl gone
  refine Meets.settle (removeFile_at removes path) (fun _ => made) fun e => Meets.given ?_
  rintro rfl
  exact made

/-- A file is made beside another, all of it, unless one of its calls goes wrong. -/
theorem copied_at {α : Type} (x : α) (path text : String) :
    Meets (At n files created)
      (do
        replaceWith path
        fill path text none
        ret (.ok x) : Io α)
      (fun a disk => a = x ∧ firstFault n (copyOps path) = none ∧
        At (n + 5) (put path (some text) files) (created ++ [path]) disk)
      fun _ => Broken n files created path := by
  refine (replaceWith_at removes path).bind fun _ => Meets.given fun creates =>
    Meets.given fun modes => ?_
  have early : firstFault n (copyOps path) = firstFault (n + 3) [.write path, .sync path] := by
    simp [copyOps, firstFault, removes _ path, creates, modes]
  have filled : Meets (At (n + 3) (put path (some "") files) (created ++ [path]))
      (fill path text none)
      (fun _ disk => firstFault n (copyOps path) = none ∧
        At (n + 5) (put path (some text) files) (created ++ [path]) disk)
      fun _ => Broken n files created path := by
    refine Meets.bind ((write_at path text).mono (fun _ h => h) (fun _ _ h => h) fun _ disk h => ?_)
      fun _ => Meets.given fun writes => ?_
    · obtain ⟨fails, rest, _, same, made⟩ := h
      exact .left (.write path) (by rw [early]; simp [firstFault, fails]) rfl
        (same.trans (put_put ..)) made
    · refine Meets.bind (M := fun _ => At (n + 4) (put path (some text) (put path (some "") files))
        (created ++ [path]))
        (Meets.value fun _ h => h) fun _ => ?_
      refine (quietly_at rfl).mono (fun _ h => h) (fun _ _ h => ?_) fun _ disk h => ?_
      · rw [put_put] at h
        exact ⟨by rw [early]; simp [firstFault, writes, h.1], h.2⟩
      · obtain ⟨fails, _, same, made⟩ := h
        exact .left (.sync path) (by rw [early]; simp [firstFault, writes, fails]) rfl
          (same.trans (put_put ..))
          made
  exact filled.bind fun _ => Meets.value fun _ h => ⟨rfl, h⟩

end

/-- No file that was made is there. -/
def Clean (disk : Disk) : Prop := ∀ path ∈ disk.created, disk.files path = none

/-- What a call makes is all that is known of it. -/
theorem calling_makes {α : Type} {op : Op} {torn : Fault → Files → Files}
    {f : Files → Outcome IoError α × Files} {created created' : List String}
    (lists : created ++ op.creates = created')
    (ends : ∀ files, Ends (fun _ _ => True) (fun _ _ => True) (f files)) :
    Meets (fun disk => disk.created = created) (calling op torn f)
      (fun _ disk => disk.created = created')
      fun _ disk => disk.created = created := by
  refine meets_known fun disk made => ?_
  rw [made]
  refine calling_at lists (fun _ _ _ h => h.2.2) fun _ => ?_
  have ended := ends disk.files
  revert ended
  generalize f disk.files = r
  rintro (_ | _)
  · exact .ok fun _ h => h.2.2
  · exact .err fun _ h => h.2.2

section
variable {tmp : String}

theorem quietly_makes {op : Op} (plain : op.creates = []) :
    Meets (fun disk => disk.created = [tmp]) (quietly op) (fun _ disk => disk.created = [tmp])
      fun _ disk => disk.created = [tmp] := by
  rw [quietly, call]
  exact calling_makes (by rw [plain, List.append_nil]) fun _ => .ok trivial

theorem fill_makes (text : String) (owner : Option (UInt32 × UInt32)) :
    Meets (fun disk => disk.created = [tmp]) (fill tmp text owner)
      (fun _ disk => disk.created = [tmp])
      fun _ disk => disk.created = [tmp] := by
  refine Meets.bind (calling_makes (List.append_nil [tmp]) fun _ => .ok trivial) fun _ => ?_
  refine Meets.bind (M := fun _ disk => disk.created = [tmp]) ?_ fun _ => quietly_makes rfl
  cases owner with
  | none => exact Meets.value fun _ h => h
  | some owner => exact quietly_makes rfl

theorem rename_makes (target : String) :
    Meets (fun disk => disk.created = [tmp]) (rename tmp target)
      (fun _ disk => disk.created = [tmp])
      fun _ disk => disk.created = [tmp] := by
  rw [rename, call]
  refine calling_makes rfl fun files => ?_
  cases files tmp with
  | none => exact .err trivial
  | some text => exact .ok trivial

theorem hardLink_makes (target : String) :
    Meets (fun disk => disk.created = [tmp]) (hardLink tmp target)
      (fun _ disk => disk.created = [tmp])
      fun _ disk => disk.created = [tmp] := by
  rw [hardLink, call]
  refine calling_makes rfl fun files => ?_
  cases files tmp with
  | none => exact .err trivial
  | some text =>
    cases files target with
    | none => exact .ok trivial
    | some there => exact .err trivial

variable (removes : Removes)
include removes

theorem removeFile_cleans :
    Meets (fun disk => disk.created = [tmp]) (removeFile tmp) (fun _ => Clean) fun _ => Clean := by
  have clean : ∀ {n : Nat} {files : Files} {disk : Disk},
      At n (put tmp none files) [tmp] disk → Clean disk := by
    intro n files disk h path hpath
    rw [h.2.2, List.mem_singleton] at hpath
    rw [h.2.1, hpath, put_self]
  refine meets_known fun disk made => ?_
  rw [made]
  exact (removeFile_at removes tmp).mono (fun _ h => h)
    (fun _ _ h => clean h) fun _ _ h => clean h.2

theorem createNewWith_makes :
    Meets (fun disk => disk.created = []) (createNewWith tmp) (fun _ disk => disk.created = [tmp])
      fun _ => Clean := by
  have creates : Meets (fun disk => disk.created = []) (create tmp)
      (fun _ disk => disk.created = [tmp])
      fun _ disk => disk.created = [] := by
    rw [create, call]
    refine calling_makes rfl fun files => ?_
    cases files tmp with
    | none => exact .ok trivial
    | some text => exact .err trivial
  refine (creates.mono (fun _ h => h) (fun _ _ h => h) fun _ _ h => ?_).bind fun _ =>
    Meets.onErr (quietly_makes rfl) fun _ => removeFile_cleans removes
  intro path hpath
  rw [h] at hpath
  cases hpath

theorem replaceWith_makes :
    Meets (fun disk => disk.created = []) (replaceWith tmp) (fun _ disk => disk.created = [tmp])
      fun _ => Clean := by
  have clears : Meets (fun disk => disk.created = []) (removeFile tmp)
      (fun _ disk => disk.created = [])
      fun e disk => e = missing ∧ disk.created = [] := by
    refine meets_known fun disk made => ?_
    rw [made]
    exact (removeFile_at removes tmp).mono (fun _ h => h) (fun _ _ h => h.2.2) fun _ _ h =>
      ⟨h.1, h.2.2.2⟩
  refine Meets.settle clears (fun _ => createNewWith_makes removes) fun e => Meets.given ?_
  rintro rfl
  exact createNewWith_makes removes

theorem writePrivateOwned_cleans (path text : String) (owner : Option (UInt32 × UInt32)) :
    Meets (fun disk => disk.created = []) (writePrivateOwned path text owner)
      (fun _ _ => True) fun _ => Clean := by
  refine (replaceWith_makes removes).bind fun _ => ?_
  refine (Meets.onErr (fill_makes text owner) fun _ => removeFile_cleans removes).bind fun _ => ?_
  exact Meets.onErr ((rename_makes path).mono (fun _ h => h) (fun _ _ _ => trivial) fun _ _ h => h)
    fun _ => removeFile_cleans removes

theorem createNewPrivateOwned_cleans (pid path text : String) (owner : Option (UInt32 × UInt32)) :
    Meets (fun disk => disk.created = []) (createNewPrivateOwned pid path text owner)
      (fun _ _ => True)
      fun _ => Clean := by
  refine (createNewWith_makes removes).bind fun _ => ?_
  refine (Meets.onErr (fill_makes text owner) fun _ => removeFile_cleans removes).bind fun _ => ?_
  exact Meets.lastly (hardLink_makes path) (fun _ => (removeFile_cleans removes).mono (fun _ h => h)
    (fun _ _ _ => trivial) fun _ _ _ => trivial) fun _ => removeFile_cleans removes

end

/-- What a pair ends with that fails, with the files in `pending` still to be removed:
nothing else that was made, or something whose text was being put on disk when a call went
wrong for the first time. -/
inductive Verdict (ops : List Op) (pending : List String) (disk : Disk) : Prop
  | clean (op : Op) : firstFault 0 ops = some op → op.fills = false →
    (∀ path ∈ disk.created, path ∈ pending ∨ disk.files path = none) → Verdict ops pending disk
  | left (op : Op) {tmp : String} : firstFault 0 ops = some op → op.fills = true →
    tmp ∉ pending → tmp ∈ disk.created → disk.files tmp ≠ none → Verdict ops pending disk

section
variable {ops : List Op} {n : Nat} {files : Files} {created : List String} {tmp : String}

theorem Broken.verdict {disk : Disk} (h : Broken n files created tmp disk)
    (found : ∀ op, firstFault n (copyOps tmp) = some op → firstFault 0 ops = some op)
    (new : tmp ∉ created) :
    Verdict ops created disk := by
  cases h with
  | gone op fails fills gone =>
    refine .clean op (found _ fails) fills fun path hpath => ?_
    rcases gone.2 path hpath with old | rfl
    · exact .inl old
    · exact .inr (by rw [gone.1, put_self])
  | left op fails fills same made =>
    refine .left op (found _ fails) fills new (by simp [made]) ?_
    rw [same, put_self]
    rintro ⟨⟩

theorem removeFile_verdict (removes : Removes) (path : String) {pending : List String} :
    Meets (Verdict ops (path :: pending)) (removeFile path) (fun _ => Verdict ops pending)
      fun _ => Verdict ops pending := by
  refine meets_known fun disk verdict => ?_
  have after : ∀ {m : Nat} {disk' : Disk}, At m (put path none disk.files) disk.created disk' →
      Verdict ops pending disk' := by
    intro m disk' h
    cases verdict with
    | clean op fails fills clean =>
      refine .clean op fails fills fun other hother => ?_
      rw [h.2.2] at hother
      rw [h.2.1]
      by_cases same : other = path
      · exact .inr (by rw [same, put_self])
      · rw [put_other same]
        exact (clean other hother).imp_left fun mem => (List.mem_cons.mp mem).resolve_left same
    | left op fails fills kept made full =>
      rw [List.mem_cons, not_or] at kept
      refine .left op fails fills kept.2 (h.2.2 ▸ made) ?_
      rw [h.2.1, put_other kept.1]
      exact full
  exact (removeFile_at removes path).mono (fun _ h => h)
    (fun _ _ h => after h) fun _ _ h => after h.2

end

section
variable (removes : Removes) {first second : String × String}
include removes

/-- The second could not follow, and what was done before it is undone. -/
theorem undo_verdict {ops : List Op} {op : Op} {ready : Files} {backup : Option String}
    {n : Nat} {e : IoError}
    (undoes : ∀ n, Faults.fault n (.rename (first.1 ++ ".bak") first.1) = none)
    (fails : firstFault 0 ops = some op) (fills : op.fills = false) (made : List String)
    (inside : first.1 ∉ made)
    (kept : ∀ path ∈ made, path = second.1 ++ ".tmp" ∨ backup = some path ∨ ready path = none)
    (copy : ∀ path, backup = some path → path = first.1 ++ ".bak" ∧ path ≠ second.1 ++ ".tmp" ∧
      ∃ previous, ready path = some previous) :
    Meets (At n ready made)
      (do
        (removeFile (second.1 ++ ".tmp")).discard
        undo first.1 backup e : Io Unit)
      (fun _ _ => False) fun _ => Verdict ops [] := by
  have removed : Meets (At n ready made) ((removeFile (second.1 ++ ".tmp")).discard : Io Unit)
      (fun _ => At (n + 1) (put (second.1 ++ ".tmp") none ready) made) fun _ _ => False :=
    Meets.discard ((removeFile_at removes _).mono (fun _ h => h) (fun _ _ h => h) fun _ _ h => h.2)
  refine (removed.mono (fun _ h => h) (fun _ _ h => h) fun _ _ h => h.elim).bind fun _ => ?_
  have clean : ∀ {disk : Disk} {content : Option String} {files' : Files},
      At (n + 2) (put first.1 content files') made disk → (∀ path ∈ made, files' path = none) →
        Verdict ops [] disk := by
    intro disk content files' h absent
    refine .clean op fails fills fun path hpath => .inr ?_
    rw [h.2.2] at hpath
    rw [h.2.1, put_other (by rintro rfl; exact inside hpath), absent path hpath]
  cases backup with
  | none =>
    have absent : ∀ path ∈ made, put (second.1 ++ ".tmp") none ready path = none := by
      intro path hpath
      by_cases same : path = second.1 ++ ".tmp"
      · rw [same, put_self]
      · rw [put_other same]
        exact ((kept path hpath).resolve_left same).resolve_left (by rintro ⟨⟩)
    exact Meets.settle (removeFile_at removes first.1)
      (fun _ => Meets.error fun _ h => clean h absent)
      fun _ => Meets.error fun _ h => clean h.2 absent
  | some backup =>
    obtain ⟨rfl, apart, previous, full⟩ := copy backup rfl
    refine Meets.settle (rename_at ((put_other apart ..).trans full) first.1)
      (fun _ => Meets.error fun _ h => ?_)
      fun _ => Meets.error fun _ h => ?_
    · refine clean h.2 fun path hpath => ?_
      by_cases back : path = first.1 ++ ".bak"
      · rw [back, put_self]
      · rw [put_other back]
        by_cases same : path = second.1 ++ ".tmp"
        · rw [same, put_self]
        · rw [put_other same]
          exact ((kept path hpath).resolve_left same).resolve_left fun h =>
            back (Option.some.inj h).symm
    · rw [undoes] at h
      cases h.1

/-- Both are renamed, or a rename went wrong and nothing that was made is left. -/
theorem publishPair_verdict {ops : List Op} {ready : Files} {backup : Option String} {n : Nat}
    (undoes : ∀ n, Faults.fault n (.rename (first.1 ++ ".bak") first.1) = none)
    (apart : second.1 ++ ".tmp" ≠ first.1 ++ ".tmp") (inside : first.1 ≠ second.1 ++ ".tmp")
    (outside : first.1 ∉ siblings first.1 second.1 backup)
    (found : ∀ op, firstFault n [.rename (first.1 ++ ".tmp") first.1,
      .rename (second.1 ++ ".tmp") second.1] = some op →
      firstFault 0 ops = some op)
    (firstFull : ready (first.1 ++ ".tmp") = some first.2)
      (secondFull : ready (second.1 ++ ".tmp") = some second.2)
    (copy : ∀ path, backup = some path → path = first.1 ++ ".bak" ∧ ∃ previous,
      ready path = some previous) :
    Meets (At n ready (siblings first.1 second.1 backup))
      (publishPair first.1 second.1 (first.1 ++ ".tmp") (second.1 ++ ".tmp") backup)
      (fun _ _ => firstFault n [.rename (first.1 ++ ".tmp") first.1,
        .rename (second.1 ++ ".tmp") second.1] = none)
      fun _ => Verdict ops [] := by
  have backedUp : ∀ {pre : Disk → Prop} {good : Disk → Prop},
      (∀ path, backup = some path → Meets pre (removeFile path) (fun _ => good) fun _ => good) →
      (backup = none → ∀ disk, pre disk → good disk) →
      Meets pre (removeBackup backup) (fun _ => good) fun _ _ => False := by
    intro pre good some none
    cases backup with
    | none => exact Meets.value (none rfl)
    | some path => exact Meets.discard (some path rfl)
  have cleaned : Meets (Verdict ops (siblings first.1 second.1 backup))
      (do
        (removeFile (first.1 ++ ".tmp")).discard
        (removeFile (second.1 ++ ".tmp")).discard
        removeBackup backup : Io Unit) (fun _ => Verdict ops []) fun _ _ => False := by
    refine (Meets.discard (removeFile_verdict removes _)).bind fun _ =>
      (Meets.discard (removeFile_verdict removes _)).bind fun _ => backedUp ?_ ?_
    · rintro path rfl
      exact removeFile_verdict removes path
    · rintro rfl _ h
      exact h
  refine Meets.bind (Meets.onErr ((rename_at firstFull first.1).mono (fun _ h => h) (fun _ _ h => h)
    fun _ disk h => ?_) fun _ => cleaned.mono (fun _ h => h) (fun _ _ h => h) fun _ _ h => h.elim)
    fun _ => Meets.given fun works => ?_
  · refine Verdict.clean (.rename (first.1 ++ ".tmp") first.1) (found _ ?_) rfl fun path hpath => ?_
    · rw [firstFault, if_pos h.1]
    · exact .inl (h.2.2.2 ▸ hpath)
  have afterFirst : firstFault n [.rename (first.1 ++ ".tmp") first.1,
      .rename (second.1 ++ ".tmp") second.1] =
      firstFault (n + 1) [.rename (second.1 ++ ".tmp") second.1] := by
    rw [firstFault, works]
    rfl
  have secondThere : put first.1 (some first.2) (put (first.1 ++ ".tmp") none ready)
      (second.1 ++ ".tmp") =
      some second.2 := by
    rw [put_other inside.symm, put_other apart, secondFull]
  have followed :
      Meets (At (n + 1) (put first.1 (some first.2) (put (first.1 ++ ".tmp") none ready))
        (siblings first.1 second.1 backup))
      ((rename (second.1 ++ ".tmp") second.1).settle (fun _ => ret (.ok ())) fun e => do
        (removeFile (second.1 ++ ".tmp")).discard
        undo first.1 backup e)
      (fun _ _ => firstFault n [.rename (first.1 ++ ".tmp") first.1,
        .rename (second.1 ++ ".tmp") second.1] = none)
      fun _ => Verdict ops [] := by
    refine Meets.settle (rename_at secondThere second.1) (fun _ => Meets.value fun _ h => ?_)
      fun e => Meets.given fun fails => ?_
    · rw [afterFirst, firstFault, h.1]
      rfl
    · have foundHere := found (.rename (second.1 ++ ".tmp") second.1)
        (by rw [afterFirst, firstFault, if_pos fails])
      refine (undo_verdict removes undoes foundHere rfl _ outside
        (fun path hpath => ?_) fun path hpath => ?_).mono
        (fun _ h => h) (fun _ _ h => h.elim) fun _ _ h => h
      · simp only [siblings, List.mem_cons, Option.mem_toList] at hpath
        rcases hpath with rfl | rfl | kept
        · exact .inr
            (.inr (by rw [put_other (ne_of_mem_of_not_mem (by simp [siblings]) outside), put_self]))
        · exact .inl rfl
        · exact .inr (.inl kept)
      · obtain ⟨rfl, previous, full⟩ := copy path hpath
        refine ⟨rfl, bak_ne_tmp _ _, previous, ?_⟩
        rw [put_other (ne_of_mem_of_not_mem (by simp [siblings, hpath]) outside),
          put_other (bak_ne_tmp _ _), full]
  refine followed.bind fun _ => (backedUp (fun path _ => ?_) fun _ _ h => h).mono
    (fun _ h => h) (fun _ _ h => h)
    fun _ _ h => h.elim
  exact meets_known fun disk fact => (removeFile_at removes path).mono (fun _ h => h)
    (fun _ _ _ => fact)
    fun _ _ _ => fact

/-- A backup that was made, or was not called for. -/
inductive Kept (n : Nat) (files : Files) (created : List String) (path : String) :
    Option String → Disk → Prop
  | absent {disk : Disk} : files path = none → Faults.fault n (.read path) = none →
    At (n + 1) files created disk →
    Kept n files created path none disk
  | copied {previous : String} {disk : Disk} : files path = some previous →
    Faults.fault n (.read path) = none →
    firstFault (n + 1) (copyOps (path ++ ".bak")) = none →
    At (n + 6) (put (path ++ ".bak") (some previous) files) (created ++ [path ++ ".bak"]) disk →
    Kept n files created path (some (path ++ ".bak")) disk

theorem backUp_at {n : Nat} {files : Files} {created : List String} (path : String) :
    Meets (At n files created) (backUp path) (Kept n files created path)
      fun _ disk => ((Faults.fault n (.read path)).isSome ∧ At (n + 1) files created disk) ∨
        (Faults.fault n (.read path) = none ∧ (files path).isSome ∧
          Broken (n + 1) files created (path ++ ".bak") disk) := by
  refine Meets.settle (read_at path) (fun previous => ?_) fun e => ?_
  · refine Meets.given fun hprevious => Meets.given fun works => ?_
    refine (copied_at removes (some (path ++ ".bak")) (path ++ ".bak") previous).mono
      (fun _ h => h) ?_
      fun _ _ broken => .inr ⟨works, by rw [hprevious]; rfl, broken⟩
    rintro _ _ ⟨rfl, prepared, h⟩
    exact .copied hprevious works prepared h
  · by_cases notFound : e.kind = .notFound
    · rw [if_pos notFound]
      refine Meets.value fun disk h => ?_
      rcases h.2 with ⟨_, absent, works⟩ | ⟨other, _⟩
      · exact .absent absent works h.1
      · exact absurd notFound other
    · rw [if_neg notFound]
      refine Meets.error fun disk h => ?_
      rcases h.2 with ⟨missing, _⟩ | ⟨_, fails⟩
      · exact absurd missing notFound
      · exact .inl ⟨fails, h.1⟩

/-- Every failure of a pair is one of the calls that were to be made. -/
theorem writePrivatePair_verdict (files : Files)
    (undoes : ∀ n, Faults.fault n (.rename (first.1 ++ ".bak") first.1) = none)
    (distinct : [first.1, second.1, first.1 ++ ".tmp", second.1 ++ ".tmp", first.1 ++ ".bak",
      second.1 ++ ".bak"].Nodup) :
    Meets (At 0 files []) (writePrivatePair first second)
      (fun _ _ => firstFault 0 (pairOps first.1 second.1 (files first.1).isSome) = none)
      fun _ => Verdict (pairOps first.1 second.1 (files first.1).isSome) [] := by
  have apart : second.1 ++ ".tmp" ≠ first.1 ++ ".tmp" := fun same => by simp [same] at distinct
  have outside : first.1 ≠ first.1 ++ ".tmp" ∧ first.1 ≠ second.1 ++ ".tmp" ∧
      first.1 ≠ first.1 ++ ".bak" := by
    have others := (List.nodup_cons.mp distinct).1
    simp only [List.mem_cons, not_or] at others
    exact ⟨others.2.1, others.2.2.1, others.2.2.2.1⟩
  let firstReady := put (first.1 ++ ".tmp") (some first.2) files
  let ready := put (second.1 ++ ".tmp") (some second.2) firstReady
  let ops := pairOps first.1 second.1 (files first.1).isSome
  refine Meets.bind
    ((copied_at removes (first.1 ++ ".tmp") (first.1 ++ ".tmp") first.2).mono (fun _ h => h)
    (fun _ _ h => h) fun _ _ broken => ?_) fun firstTmp => Meets.given ?_
  · refine broken.verdict (fun op fails => ?_) (by rintro ⟨⟩)
    rw [pairOps, firstFault_append, fails]
    rfl
  rintro rfl
  refine Meets.given fun prepared => ?_
  have afterFirst : firstFault 0 ops = firstFault 5 (copyOps (second.1 ++ ".tmp") ++
      (.read first.1 :: ((if (files first.1).isSome then copyOps (first.1 ++ ".bak") else []) ++
        [.rename (first.1 ++ ".tmp") first.1, .rename (second.1 ++ ".tmp") second.1]))) :=
    (firstFault_append 0 (copyOps (first.1 ++ ".tmp")) _).trans (by rw [prepared]; rfl)
  have secondSwept : Meets (Broken 5 firstReady [first.1 ++ ".tmp"] (second.1 ++ ".tmp"))
      (removeFile (first.1 ++ ".tmp")) (fun _ => Verdict ops []) fun _ => Verdict ops [] :=
    (removeFile_verdict removes _).mono (fun _ broken => broken.verdict
      (fun op fails => by rw [afterFirst, firstFault_append, fails]; rfl) (by simpa using apart))
      (fun _ _ h => h) fun _ _ h => h
  refine Meets.bind
    (Meets.onErr (copied_at removes (second.1 ++ ".tmp") (second.1 ++ ".tmp") second.2)
    fun _ => secondSwept) fun secondTmp => Meets.given ?_
  rintro rfl
  refine Meets.given fun secondPrepared => ?_
  have afterBoth : firstFault 0 ops =
      firstFault 10
        (.read first.1 :: ((if (files first.1).isSome then copyOps (first.1 ++ ".bak") else []) ++
        [.rename (first.1 ++ ".tmp") first.1, .rename (second.1 ++ ".tmp") second.1])) := by
    rw [afterFirst, firstFault_append, secondPrepared]
    rfl
  have firstThere : ready first.1 = files first.1 :=
    (put_other outside.2.1 ..).trans (put_other outside.1 ..)
  have firstFull : ready (first.1 ++ ".tmp") = some first.2 :=
    (put_other apart.symm ..).trans (put_self ..)
  have secondFull : ready (second.1 ++ ".tmp") = some second.2 := put_self ..
  have pendingSwept : Meets (Verdict ops [first.1 ++ ".tmp", second.1 ++ ".tmp"])
      (do
        (removeFile (first.1 ++ ".tmp")).discard
        removeFile (second.1 ++ ".tmp") : Io Unit) (fun _ => Verdict ops []) fun _ =>
          Verdict ops [] :=
    (Meets.discard (removeFile_verdict removes _)).bind fun _ => removeFile_verdict removes _
  refine Meets.bind (Meets.onErr ((backUp_at removes first.1).mono (fun _ h => h) (fun _ _ h => h)
    fun _ disk h => ?_) fun _ => pendingSwept) fun backup => ?_
  · rcases h with ⟨fails, _, _, made⟩ | ⟨works, there, broken⟩
    · refine .clean (.read first.1) (by rw [afterBoth, firstFault, if_pos fails])
        rfl fun path hpath => ?_
      rw [made] at hpath
      exact .inl hpath
    · have there' : (files first.1).isSome := firstThere ▸ there
      refine broken.verdict (fun op fails => ?_) ?_
      · rw [afterBoth, firstFault, works, if_pos there', firstFault_append, fails]
        rfl
      · simp [bak_ne_tmp]
  · intro disk kept
    cases kept with
    | absent absent works h =>
      have absent' : files first.1 = none := firstThere.symm.trans absent
      have afterRead : firstFault 0 ops = firstFault 11
          [.rename (first.1 ++ ".tmp") first.1, .rename (second.1 ++ ".tmp") second.1] := by
        rw [afterBoth, firstFault, works, absent']
        rfl
      refine (publishPair_verdict removes undoes apart outside.2.1 (by simp [siblings, outside])
        (fun op fails => afterRead.trans fails) firstFull secondFull
          (by rintro _ ⟨⟩)).mono (fun _ h => h)
        (fun _ _ works => afterRead.trans works) (fun _ _ h => h) disk h
    | copied hprevious works kept h =>
      have there : (files first.1).isSome :=
        Option.isSome_iff_exists.mpr ⟨_, firstThere.symm.trans hprevious⟩
      have afterRead : firstFault 0 ops = firstFault 16
          [.rename (first.1 ++ ".tmp") first.1, .rename (second.1 ++ ".tmp") second.1] := by
        rw [afterBoth, firstFault, works, if_pos there, firstFault_append, kept]
        rfl
      refine (publishPair_verdict removes undoes apart outside.2.1 (by simp [siblings, outside])
        (fun op fails => afterRead.trans fails) ?_ ?_ ?_).mono (fun _ h => h)
        (fun _ _ works => afterRead.trans works) (fun _ _ h => h) disk h
      · exact (put_other (bak_ne_tmp _ _).symm ..).trans firstFull
      · exact (put_other (bak_ne_tmp _ _).symm ..).trans secondFull
      · rintro _ ⟨⟩
        exact ⟨rfl, _, put_self ..⟩

end

/-- One of the writers, with what it is to write. -/
inductive Writing where
  | privateOwned (path text : String) (owner : Option (UInt32 × UInt32))
  | system (path text : String)
  | newPrivateOwned (pid path text : String) (owner : Option (UInt32 × UInt32))
  | pair (first second : String × String)

def Writing.run : Writing → Io Unit
  | .privateOwned path text owner => writePrivateOwned path text owner
  | .system path text => writeSystem path text
  | .newPrivateOwned pid path text owner => createNewPrivateOwned pid path text owner
  | .pair first second => writePrivatePair first second

/-- The six names are six, and what puts the first back does not go wrong. -/
def Writing.Sound : Writing → Prop
  | .pair first second =>
    [first.1, second.1, first.1 ++ ".tmp", second.1 ++ ".tmp", first.1 ++ ".bak",
      second.1 ++ ".bak"].Nodup ∧
      ∀ n, Faults.fault n (.rename (first.1 ++ ".bak") first.1) = none
  | _ => True

/-- The first call of a pair to go wrong puts no text on disk. -/
def Writing.Spared (files : Files) : Writing → Prop
  | .pair first second =>
    ∀ op, firstFault 0 (pairOps first.1 second.1 (files first.1).isSome) =
      some op → op.fills = false
  | _ => True

/-- A failed write leaves nothing it made, but for a pair whose first call to go wrong is a
write or a flush. -/
theorem failed_write_clean_iff (removes : Removes) (files : Files) (writing : Writing)
    (sound : writing.Sound) :
    let ended := writing.run.exec (Disk.holding files)
    (∀ e, ended.1 = .err e → ∀ path ∈ ended.2.created, ended.2.files path = none) ↔
      writing.Spared files := by
  have single : ∀ {p : Io Unit}, Meets (fun disk => disk.created = [])
      p (fun _ _ => True) (fun _ => Clean) →
      ∀ e, (p.exec (Disk.holding files)).1 = .err e → Clean (p.exec (Disk.holding files)).2 := by
    intro p cleans
    have ends := cleans (Disk.holding files) rfl
    revert ends
    generalize p.exec (Disk.holding files) = ended
    rintro (_ | clean)
    · rintro _ ⟨⟩
    · exact fun _ _ => clean
  cases writing with
  | privateOwned path text owner =>
    exact iff_of_true (single (writePrivateOwned_cleans removes path text owner)) trivial
  | system path text =>
    exact iff_of_true (single (writePrivateOwned_cleans removes path text none)) trivial
  | newPrivateOwned pid path text owner =>
    exact iff_of_true (single (createNewPrivateOwned_cleans removes pid path text owner)) trivial
  | pair first second =>
    have ends := writePrivatePair_verdict removes files sound.2 sound.1
      (Disk.holding files) ⟨rfl, rfl, rfl⟩
    rw [Writing.run, Writing.Spared]
    revert ends
    generalize (writePrivatePair first second).exec (Disk.holding files) = ended
    rintro (works | verdict)
    · refine iff_of_true (by rintro _ ⟨⟩) fun op fails => ?_
      rw [works] at fails
      cases fails
    · cases verdict with
      | clean op fails fills clean =>
        refine iff_of_true
          (fun _ _ path hpath => (clean path hpath).resolve_left List.not_mem_nil) fun op same => ?_
        rw [fails] at same
        exact Option.some.inj same ▸ fills
      | left op fails fills _ made full =>
        refine iff_of_false (fun clean => full (clean _ rfl _ made)) fun spared => ?_
        rw [spared _ fails] at fills
        cases fills

omit [Faults] in
/-- The certificate cannot follow its key: nothing of either is left beside them. -/
theorem failed_write_clean_sample :
    letI := noFollowing
    let writing : Writing := .pair ("key", "new key") ("cert", "new cert")
    let ended := writing.run.exec (Disk.holding sampleFiles)
    ∀ e, ended.1 = .err e → ∀ path ∈ ended.2.created, ended.2.files path = none := by
  have first : @firstFault noFollowing 0 (pairOps "key" "cert" (sampleFiles "key").isSome) =
      some (.rename "cert.tmp" "cert") := by decide +kernel
  refine (@failed_write_clean_iff noFollowing (fun _ _ => rfl) sampleFiles
    (.pair ("key", "new key") ("cert", "new cert")) ⟨by decide +kernel, fun _ => rfl⟩).mpr
      fun op fails => ?_
  cases first.symm.trans fails
  rfl

/-- There is no room for the key. -/
@[reducible] def noRoomForKey : Faults :=
  ⟨fun _ op => if op = .write "key.tmp" then some ⟨"no space", 3⟩ else none⟩

omit [Faults] in
/-- The key cannot be written whole: what there is of it stays beside its place. -/
theorem pair_leaves_key :
    letI := noRoomForKey
    ¬∀ writing : Writing, Removes → writing.Sound →
      let ended := writing.run.exec (Disk.holding fun _ => none)
      ∀ e, ended.1 = .err e → ∀ path ∈ ended.2.created, ended.2.files path = none := by
  have ended :
      letI := noRoomForKey
      let ended := (Writing.run (.pair ("key", "new key") ("cert", "new cert"))).exec
        (Disk.holding fun _ => none)
      ended.1 = .err ⟨.other, "no space"⟩ ∧ ended.2.created = ["key.tmp"] ∧
        ended.2.files "key.tmp" = some "new" := by
    decide +kernel
  intro clean
  have gone := clean (.pair ("key", "new key") ("cert", "new cert")) (fun _ _ => rfl)
    ⟨by decide +kernel, fun _ => rfl⟩ ⟨.other, "no space"⟩ ended.1 "key.tmp"
      (by rw [ended.2.1]; simp)
  cases ended.2.2.symm.trans gone

end Fsutil
