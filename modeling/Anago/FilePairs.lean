import Anago.Fsutil

/-!
# Two files that have to agree

A certificate and its key are published together: both are ready beside their places
before the first is put in place, and the first is put back if the second cannot follow.
-/

open Program

namespace Fsutil

/-- Where two files are written: what goes beside them is aside, they are not. -/
structure Pair (aside : String → Prop) (first second : String) : Prop where
  firstTmp : aside (first ++ ".tmp")
  secondTmp : aside (second ++ ".tmp")
  backup : aside (first ++ ".bak")
  firstInside : ¬aside first
  secondInside : ¬aside second
  apart : first ≠ second

/-- Both are ready beside their places, and so is what the first held before. -/
structure Ready (aside hidden : String → Prop) (files ready : Files)
    (first second : String × String) (backup : Option String) : Prop where
  within : ∀ path, hidden path → aside path
  same : ∀ path, ¬aside path → ready path = files path
  firstTmp : ¬hidden (first.1 ++ ".tmp") ∧ ready (first.1 ++ ".tmp") = some first.2
  secondTmp : ¬hidden (second.1 ++ ".tmp") ∧ ready (second.1 ++ ".tmp") = some second.2
  backup : (backup = none ∧ files first.1 = none) ∨
    (backup = some (first.1 ++ ".bak") ∧ ¬hidden (first.1 ++ ".bak") ∧ ∃ previous,
      files first.1 = some previous ∧ ready (first.1 ++ ".bak") = some previous)

/-- The call that was to put `path` back did not work. -/
def UndoFailed (path : String) (disk : Disk) : Prop :=
  .rename (path ++ ".bak") path ∈ disk.failed ∨ .remove path ∈ disk.failed

/-- What a pair leaves that could not be put in place. -/
def Torn (aside : String → Prop) (files : Files) (first : String × String) (disk : Disk) : Prop :=
  Only aside files disk.files ∨
    (UndoFailed first.1 disk ∧ Only aside (put first.1 (some first.2) files) disk.files)

theorem ne_of_aside {aside : String → Prop} {path other : String} (free : aside path)
    (inside : ¬aside other) :
    path ≠ other := by
  rintro rfl
  exact inside free

theorem put_aside {aside : String → Prop} {path other : String} (free : aside path)
    (hother : ¬aside other) (content : Option String) (files : Files) :
    put path content files other = files other :=
  put_other (ne_of_aside free hother).symm content files

theorem put_same {files ready : Files} {other : String}
    (h : ready other = files other) (path : String) (content : Option String) :
    put path content ready other = put path content files other := by
  by_cases same : other = path
  · rw [same, put_self, put_self]
  · rw [put_other same, put_other same, h]

theorem append_tmp_inj {first second : String} (h : first ++ ".tmp" = second ++ ".tmp") :
    first = second := by
  have lists := congrArg String.toList h
  rw [String.toList_append, String.toList_append] at lists
  exact String.toList_inj.mp (List.append_cancel_right lists)

theorem bak_ne_tmp (first second : String) : first ++ ".bak" ≠ second ++ ".tmp" := by
  intro h
  have lists := congrArg (fun s => s.toList.getLast?) h
  simp [String.toList_append] at lists

section
variable {aside hidden : String → Prop} {files ready files' : Files}
  {first second : String × String}
  {backup : Option String}

/-- From what is known of all but the hidden files to what is known of fewer. -/
theorem Only.less {fewer : String → Prop} (h : Only hidden ready files')
    (within : ∀ path, hidden path → fewer path)
    (same : ∀ path, ¬fewer path → ready path = files path) :
    Only fewer files files' :=
  fun path hpath => (h path fun free => hpath (within path free)).trans (same path hpath)

/-- The first is in place, the second is not. -/
def halfway (first : String × String) (ready : Files) : Files :=
  put first.1 (some first.2) (put (first.1 ++ ".tmp") none ready)

theorem Ready.halfway_same (h : Ready aside hidden files ready first second backup)
    (pair : Pair aside first.1 second.1) {path : String} (hpath : ¬aside path) :
    halfway first ready path = put first.1 (some first.2) files path :=
  put_same ((put_aside pair.firstTmp hpath none ready).trans (h.same path hpath))
    first.1 (some first.2)

variable [Faults]

theorem removeBackup_leaves (pair : Pair aside first.1 second.1)
    (h : Ready aside hidden files ready first second backup) :
    Leaves (Only aside files') (removeBackup backup) (fun _ => Only aside files')
      fun _ _ => False := by
  rcases h.backup with ⟨rfl, _⟩ | ⟨rfl, _⟩
  · exact Meets.value fun _ h => h
  · exact Meets.discard (removeFile_leaves pair.backup)

/-- Nothing was there: what is there now is removed. -/
theorem undo_absent (absent : files first.1 = none) (cause : IoError) :
    Meets (fun disk => Only aside (put first.1 (some first.2) files) disk.files)
      (undo first.1 none cause)
      (fun _ _ => False) fun _ => Torn aside files first := by
  have removed : Meets (fun disk => Only aside (put first.1 (some first.2) files) disk.files)
      (removeFile first.1)
      (fun _ disk => Only aside files disk.files)
      fun _ disk => Only aside (put first.1 (some first.2) files) disk.files ∧
        .remove first.1 ∈ disk.failed := by
    rw [removeFile, call]
    refine calling_meets (Only aside (put first.1 (some first.2) files)) (fun _ => Only aside files)
      (fun _ => Only aside (put first.1 (some first.2) files)) (fun _ _ h => h) fun files' h => ?_
    cases files' first.1 with
    | none => exact .err h
    | some text =>
      refine .ok ((h.place first.1 none).less (fun _ h => h) fun path _ => ?_)
      by_cases same : path = first.1
      · rw [same, put_self, absent]
      · rw [put_other same, put_other same]
  exact Meets.settle removed (fun _ => Meets.error fun _ only => .inl only)
    fun _ => Meets.error fun _ h => .inr ⟨.inr h.2, h.1⟩

/-- Something was there: its copy is put back. -/
theorem undo_copied (pair : Pair aside first.1 second.1) {previous : String}
    (hprevious : files first.1 = some previous) (cause : IoError) :
    Meets (fun disk => Only (without aside (first.1 ++ ".bak"))
        (put (first.1 ++ ".bak") (some previous) (put first.1 (some first.2) files)) disk.files)
      (undo first.1 (some (first.1 ++ ".bak")) cause) (fun _ _ => False) fun _ =>
        Torn aside files first := by
  refine Meets.settle (rename_meets (put_self ..) fun h => h.2 rfl)
    (fun _ => Meets.error fun _ only => .inl ?_)
    fun _ => Meets.error fun _ h => .inr ⟨.inl h.2, ?_⟩
  · refine only.less (fun _ h => h.1) fun path hpath => ?_
    by_cases same : path = first.1
    · rw [same, put_self, hprevious]
    · rw [put_other same, put_aside pair.backup hpath, put_aside pair.backup hpath, put_other same]
  · exact h.1.less (fun _ h => h.1) fun path hpath => put_aside pair.backup hpath ..

/-- The second could not follow: the first is as it was, or its undoing failed. -/
theorem undo_leaves (pair : Pair aside first.1 second.1)
    (h : Ready aside hidden files ready first second backup) (cause : IoError) :
    Meets (fun disk => Only hidden (halfway first ready) disk.files)
      (do
        (removeFile (second.1 ++ ".tmp")).discard
        undo first.1 backup cause : Io Unit)
      (fun _ _ => False) fun _ => Torn aside files first := by
  rcases h.backup with ⟨rfl, absent⟩ | ⟨rfl, shown, previous, hprevious, full⟩
  · refine Meets.bind ((Meets.discard (@removeFile_leaves _ _ (put first.1 (some first.2) files) _
      pair.secondTmp)).mono (fun _ only => ?_) (fun _ _ h => h) fun _ _ h => h) fun _ =>
        undo_absent absent cause
    exact only.less h.within fun path hpath => h.halfway_same pair hpath
  · have free : without aside (first.1 ++ ".bak") (second.1 ++ ".tmp") :=
      ⟨pair.secondTmp, (bak_ne_tmp _ _).symm⟩
    refine Meets.bind ((Meets.discard (@removeFile_leaves _ _
      (put (first.1 ++ ".bak") (some previous) (put first.1 (some first.2) files)) _ free)).mono
      (fun _ only => ?_) (fun _ _ h => h) fun _ _ h => h) fun _ => undo_copied pair hprevious cause
    refine only.less (fun path hpath => ⟨h.within path hpath, ?_⟩) fun path hpath => ?_
    · rintro rfl
      exact shown hpath
    · by_cases same : path = first.1 ++ ".bak"
      · rw [same, put_self, halfway, put_other (ne_of_aside pair.backup pair.firstInside),
          put_other (bak_ne_tmp _ _), full]
      · have inside : ¬aside path := fun free => hpath ⟨free, same⟩
        rw [put_other same, h.halfway_same pair inside]

/-- With both ready, they are put in place together; or the first is as it was, or it is new. -/
theorem publishPair_leaves (pair : Pair aside first.1 second.1)
    (h : Ready aside hidden files ready first second backup) :
    Meets (fun disk => Only hidden ready disk.files)
      (publishPair first.1 second.1 (first.1 ++ ".tmp") (second.1 ++ ".tmp") backup)
      (fun _ disk => Only aside (put second.1 (some second.2)
        (put first.1 (some first.2) files)) disk.files)
      fun _ => Torn aside files first := by
  have tmps : second.1 ++ ".tmp" ≠ first.1 ++ ".tmp" := fun same =>
    pair.apart (append_tmp_inj same).symm
  have secondFull : halfway first ready (second.1 ++ ".tmp") = some second.2 := by
    rw [halfway, put_other (ne_of_aside pair.secondTmp pair.firstInside), put_other tmps]
    exact h.secondTmp.2
  have cleaned : Leaves (Only aside files)
      (do
        (removeFile (first.1 ++ ".tmp")).discard
        (removeFile (second.1 ++ ".tmp")).discard
        removeBackup backup : Io Unit) (fun _ => Only aside files) fun _ _ => False :=
    (Meets.discard (removeFile_leaves pair.firstTmp)).bind fun _ =>
      (Meets.discard (removeFile_leaves pair.secondTmp)).bind fun _ => removeBackup_leaves pair h
  refine Meets.bind (Meets.onErr (M := fun _ disk => Only aside files disk.files)
    ((rename_leaves h.firstTmp.2 h.firstTmp.1).mono (fun _ h => h) (fun _ _ h => h)
      fun _ _ only => only.less h.within h.same)
    fun _ => cleaned.mono (fun _ h => h) (fun _ _ only => .inl only) fun _ _ h =>
      h.elim) fun _ => ?_
  have followed : Meets (fun disk => Only hidden (halfway first ready) disk.files)
      ((rename (second.1 ++ ".tmp") second.1).settle (fun _ => ret (.ok ())) fun e => do
        (removeFile (second.1 ++ ".tmp")).discard
        undo first.1 backup e)
      (fun _ disk => Only hidden (put second.1 (some second.2)
        (put (second.1 ++ ".tmp") none (halfway first ready))) disk.files) fun _ =>
          Torn aside files first :=
    Meets.settle (rename_leaves secondFull h.secondTmp.1) (fun _ => Meets.value fun _ only => only)
      fun e => (undo_leaves pair h e).mono (fun _ h => h) (fun _ _ h => h.elim) fun _ _ h => h
  refine followed.bind fun _ => (removeBackup_leaves pair h).mono
    (fun _ only => only.less h.within fun path hpath => ?_) (fun _ _ h => h) fun _ _ h => h.elim
  refine put_same ?_ second.1 (some second.2)
  rw [put_aside pair.secondTmp hpath, h.halfway_same pair hpath]

/-- Both files are put in place, or neither; or the first is there with its new text because
what was there could not be put back. -/
theorem writePrivatePair_leaves (files : Files) (first second : String × String)
    (pair : Pair aside first.1 second.1) :
    Meets (fun disk => Only aside files disk.files) (writePrivatePair first second)
      (fun _ disk => Only aside (put second.1 (some second.2)
        (put first.1 (some first.2) files)) disk.files)
      fun _ => Torn aside files first := by
  have tmps : first.1 ++ ".tmp" ≠ second.1 ++ ".tmp" := fun same => pair.apart (append_tmp_inj same)
  let hidden := without (without aside (first.1 ++ ".tmp")) (second.1 ++ ".tmp")
  let ready := put (second.1 ++ ".tmp") (some second.2)
    (put (first.1 ++ ".tmp") (some first.2) files)
  have firstOnly : ∀ {files' : Files},
      Only (without aside (first.1 ++ ".tmp")) (put (first.1 ++ ".tmp")
        (some first.2) files) files' →
        Only aside files files' :=
    fun only => only.forget pair.firstTmp fun _ hother => put_other hother ..
  have secondFree : without aside (first.1 ++ ".tmp") (second.1 ++ ".tmp") :=
    ⟨pair.secondTmp, tmps.symm⟩
  have bothOnly : ∀ {files' : Files}, Only hidden ready files' → Only aside files files' :=
    fun only => firstOnly (only.forget secondFree fun _ hother => put_other hother ..)
  have firstGone : Leaves (Only aside files) (removeFile (first.1 ++ ".tmp"))
      (fun _ => Only aside files)
    fun _ => Only aside files := removeFile_leaves pair.firstTmp
  refine Meets.bind ((preparePrivate_leaves first.2 pair.firstTmp).mono
    (fun _ h => h) (fun _ _ h => h)
    fun _ _ only => .inl only) fun firstTmp => Meets.given ?_
  rintro rfl
  refine Meets.bind
    (Meets.onErr ((preparePrivate_leaves second.2 secondFree).mono (fun _ h => h) (fun _ _ h => h)
    fun _ _ only => firstOnly only) fun _ => firstGone.mono (fun _ h => h)
      (fun _ _ only => .inl only)
      fun _ _ only => .inl only) fun secondTmp => Meets.given ?_
  rintro rfl
  have backupFree : hidden (first.1 ++ ".bak") := ⟨⟨pair.backup, bak_ne_tmp _ _⟩, bak_ne_tmp _ _⟩
  have firstInside : ¬hidden first.1 := fun h => pair.firstInside h.1.1
  refine Meets.bind
    (Meets.onErr ((backUp_leaves backupFree firstInside).mono (fun _ h => h) (fun _ _ h => h)
    fun _ _ only => bothOnly only) fun _ => (Meets.discard firstGone).bind fun _ =>
      (removeFile_leaves pair.secondTmp).mono (fun _ h => h) (fun _ _ only => .inl only)
        fun _ _ only => .inl only) fun backup => ?_
  have same : ∀ path, ¬aside path → ready path = files path := fun path hpath =>
    (put_aside pair.secondTmp hpath ..).trans (put_aside pair.firstTmp hpath ..)
  have firstFull : ready (first.1 ++ ".tmp") = some first.2 :=
    (put_other tmps ..).trans (put_self ..)
  have secondFull : ready (second.1 ++ ".tmp") = some second.2 := put_self ..
  intro disk backed
  cases backed with
  | absent absent only =>
    refine publishPair_leaves pair ⟨fun _ h => h.1.1, same, ⟨fun h => h.1.2 rfl, firstFull⟩,
      ⟨fun h => h.2 rfl, secondFull⟩, Or.inl ⟨rfl, ?_⟩⟩ disk only
    exact (same _ pair.firstInside).symm.trans absent
  | copied hprevious only =>
    refine publishPair_leaves pair ⟨fun _ h => h.1.1.1, fun path hpath => ?_,
      ⟨fun h => h.1.1.2 rfl, ?_⟩, ⟨fun h => h.1.2 rfl, ?_⟩,
      Or.inr ⟨rfl, fun h => h.2 rfl, _, ?_, put_self ..⟩⟩ disk only
    · exact (put_aside pair.backup hpath ..).trans (same path hpath)
    · exact (put_other (bak_ne_tmp _ _).symm ..).trans firstFull
    · exact (put_other (bak_ne_tmp _ _).symm ..).trans secondFull
    · exact (same _ pair.firstInside).symm.trans hprevious

end

/-- What goes beside two files. -/
def beside (first second : String) (path : String) : Prop :=
  path ∈ [first ++ ".tmp", second ++ ".tmp", first ++ ".bak", second ++ ".bak"]

variable [Faults]

/-- `write_private_pair` is all or nothing, whichever calls fail and whatever was there. -/
theorem pair_all_or_nothing (files : Files) (first second : String × String)
    (distinct : [first.1, second.1, first.1 ++ ".tmp", second.1 ++ ".tmp", first.1 ++ ".bak",
      second.1 ++ ".bak"].Nodup) :
    let ended := (writePrivatePair first second).exec (Disk.holding files)
    (∀ result, ended.1 = .ok result →
      ended.2.files first.1 = some first.2 ∧ ended.2.files second.1 = some second.2) ∧
    (∀ e, ended.1 = .err e → ¬UndoFailed first.1 ended.2 →
      ended.2.files first.1 = files first.1 ∧ ended.2.files second.1 = files second.1) ∧
    ((∃ result, ended.1 = .ok result) ∨ ∃ e, ended.1 = .err e) ∧
    (ended.2.files first.1 = files first.1 ∨ ended.2.files first.1 = some first.2) ∧
    (ended.2.files second.1 = files second.1 ∨ ended.2.files second.1 = some second.2) := by
  have apart : first.1 ≠ second.1 := fun same => by simp [same] at distinct
  have inside : ¬beside first.1 second.1 first.1 ∧ ¬beside first.1 second.1 second.1 := by
    rw [List.nodup_cons, List.nodup_cons] at distinct
    exact ⟨fun h => distinct.1 (List.mem_cons_of_mem _ h), distinct.2.1⟩
  have pair : Pair (beside first.1 second.1) first.1 second.1 :=
    ⟨by simp [beside], by simp [beside], by simp [beside], inside.1, inside.2, apart⟩
  have ends := writePrivatePair_leaves files first second pair (Disk.holding files) fun _ _ => rfl
  revert ends
  generalize (writePrivatePair first second).exec (Disk.holding files) = ended
  rintro (done | only | ⟨failed, only⟩)
  · have firstNew := done _ inside.1
    have secondNew := done _ inside.2
    rw [put_other apart, put_self] at firstNew
    rw [put_self] at secondNew
    refine ⟨fun _ _ => ⟨firstNew, secondNew⟩, ?_, Or.inl ⟨_, rfl⟩,
      Or.inr firstNew, Or.inr secondNew⟩
    rintro _ ⟨⟩
  · have firstOld := only _ inside.1
    have secondOld := only _ inside.2
    refine ⟨?_, fun _ _ _ => ⟨firstOld, secondOld⟩, Or.inr ⟨_, rfl⟩,
      Or.inl firstOld, Or.inl secondOld⟩
    rintro _ ⟨⟩
  · have firstNew := only _ inside.1
    have secondOld := only _ inside.2
    rw [put_self] at firstNew
    rw [put_other apart.symm] at secondOld
    refine ⟨?_, fun _ _ undone => absurd failed undone, Or.inr ⟨_, rfl⟩,
      Or.inr firstNew, Or.inl secondOld⟩
    rintro _ ⟨⟩

def sampleFiles : Files := put "key" (some "old key") fun _ => none

@[reducible] def noFollowing : Faults :=
  ⟨fun _ op => if op = .rename "cert.tmp" "cert" then some ⟨"no space", 0⟩ else none⟩

omit [Faults] in
/-- The certificate cannot follow its new key: the old key is back. -/
theorem pair_all_or_nothing_sample :
    letI := noFollowing
    let ended := (writePrivatePair ("key", "new key") ("cert", "new cert")).exec
      (Disk.holding sampleFiles)
    ended.2.files "key" = sampleFiles "key" ∧ ended.2.files "cert" = sampleFiles "cert" := by
  have failed :
      letI := noFollowing
      let ended := (writePrivatePair ("key", "new key") ("cert", "new cert")).exec
        (Disk.holding sampleFiles)
      ended.1 = .err ⟨.other, "no space"⟩ ∧ ended.2.failed =
        [.remove "key.tmp", .remove "cert.tmp", .remove "key.bak", .rename "cert.tmp" "cert"] := by
    decide +kernel
  have undone :
      letI := noFollowing
      ¬UndoFailed "key"
        ((writePrivatePair ("key", "new key") ("cert", "new cert")).exec
          (Disk.holding sampleFiles)).2 := by
    simp [UndoFailed, failed.2]
  exact (@pair_all_or_nothing noFollowing sampleFiles ("key", "new key") ("cert", "new cert")
    (by decide +kernel)).2.1
    ⟨.other, "no space"⟩ failed.1 undone

end Fsutil
