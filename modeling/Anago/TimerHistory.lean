import Anago.TimerInstall

/-!
# The schedule over many commands

Removing the schedule, and what any sequence of installs and removals has told of it.
-/

open Program

namespace Timer

variable {μ : Type} [Host μ]

section
variable {armed : μ → Bool} {held : μ → UnixPath → Option String} {m₀ : Machine μ}

/-- The schedule may be running without its files. -/
def NotStopped (e : TimerError) : Prop := ∃ why confirmed check, e = .notStopped why confirmed check

theorem run_kind {cmd : Cmd} {e : TimerError} {m m' : Machine μ}
    (h : (run cmd).exec m = (.err e, m')) : ¬NotStopped e := by
  rw [run, primitive, exec, exec] at h
  simp only at h
  split at h
  · cases h
    rintro ⟨_, _, _, ⟨⟩⟩
  · split at h
    · cases h
    · cases h
      rintro ⟨_, _, _, ⟨⟩⟩

theorem run_ends {cmd : Cmd} (m₁ : Machine μ) :
    Meets (· = m₁) (run cmd)
      (fun _ m => m.files = m₁.files ∧ Works m₁.calls cmd m₁.files m₁.manager m.manager)
      fun e m => ¬NotStopped e ∧ m.files = m₁.files := by
  rintro m rfl
  rcases perform_ends (.run cmd) m with ⟨m', h⟩ | ⟨e, m', h⟩
  · have ran := run_ok h
    rw [perform] at h
    rw [h]
    exact .ok ran
  · have ran := run_err h
    rw [perform] at h
    rw [h]
    exact .err ⟨run_kind h, ran.1⟩

/-- A schedule that could be stopped is not running. -/
theorem stop_ends (removal : Removal) (doc : Documented armed held removal.files) :
    Meets (· = m₀) (stop removal)
      (fun why m => m.files = m₀.files ∧ (why = none → removal.files ≠ [] →
        armed m.manager = false))
      fun _ _ => False := by
  cases removal with
  | systemd service timer =>
    refine Meets.settle (run_ends m₀) (fun _ => Meets.value fun m h => ?_) fun e =>
      Meets.value fun m h => ?_
    · exact ⟨h.1, fun _ _ => doc.disable h.2⟩
    · exact ⟨h.2, by rintro ⟨⟩⟩
  | launchd plist =>
    refine Meets.settle (run_ends m₀) (fun _ => Meets.value fun m h => ?_) fun e =>
      Meets.value fun m h => ?_
    · exact ⟨h.1, fun _ _ => (doc.bootout h.2).1⟩
    · exact ⟨h.2, by rintro ⟨⟩⟩
  | neither => exact Meets.value fun m h => ⟨by rw [h], fun _ none => absurd rfl none⟩

theorem removeFile_ends (path : UnixPath) (m₁ : Machine μ) :
    Meets (Same m₁) (removeFile path)
      (fun here m => here = (m₁.files path).isSome ∧ m.files = Function.update m₁.files path none ∧
        m.manager = m₁.manager)
      fun e m => ¬NotStopped e ∧ Same m₁ m := by
  refine Meets.primitive fun m h => ?_
  split
  · exact .err ⟨by rintro ⟨_, _, _, ⟨⟩⟩, h⟩
  · exact .ok ⟨by rw [h.1], by rw [h.1], h.2⟩

/-- The files are gone, and which of them were there is known. A failure leaves the others
alone. -/
theorem removeAll_ends (paths : List UnixPath) (apart : paths.Nodup) (m₁ : Machine μ) :
    Meets (Same m₁) (removeAll paths)
      (fun gone m => gone = paths.filter (fun path => (m₁.files path).isSome) ∧ (∀ path ∈ paths,
        m.files path = none) ∧
        (∀ path, path ∉ paths → m.files path = m₁.files path) ∧ m.manager = m₁.manager)
      fun e m => ¬NotStopped e ∧ ∀ path, path ∉ paths → m.files path = m₁.files path := by
  induction paths generalizing m₁ with
  | nil => exact Meets.value fun m h => ⟨rfl, by rintro _ ⟨⟩, fun path _ => congrFun h.1 path, h.2⟩
  | cons path rest ih =>
    refine Meets.bind ((removeFile_ends path m₁).mono (fun _ h => h) (fun _ _ h => h)
      fun _ m h => ⟨h.1, fun path _ => congrFun h.2.1 path⟩) fun here => Meets.given fun found => ?_
    let m₂ : Machine μ := { m₁ with files := Function.update m₁.files path none }
    obtain ⟨fresh, rest_apart⟩ := List.nodup_cons.mp apart
    have kept (other : UnixPath) (h : other ≠ path) : m₂.files other = m₁.files other :=
      Function.update_of_ne h _ _
    refine Meets.bind ((ih rest_apart m₂).mono (fun _ h => h) (fun _ _ h => h) fun _ m h => ⟨h.1,
      fun other out => ?_⟩)
      fun others => Meets.given fun went => Meets.value fun m h =>
        ⟨?_, fun other there => ?_, fun other out => ?_, h.2.2⟩
    · have apart : other ≠ path := fun same => out (same ▸ List.mem_cons_self)
      have out : other ∉ rest := fun there => out (List.mem_cons_of_mem _ there)
      rw [h.2 other out, kept other apart]
    · rw [went, found, List.filter_cons]
      have same : rest.filter (fun path => (m₂.files path).isSome) = rest.filter fun path =>
          (m₁.files path).isSome :=
        List.filter_congr fun other there => by rw [kept other fun same => fresh (same ▸ there)]
      rw [same]
    · by_cases last : other ∈ rest
      · exact h.1 other last
      · rcases List.mem_cons.mp there with rfl | there
        · rw [h.2.1 other last]
          exact Function.update_self _ _ _
        · exact absurd there last
    · have apart : other ≠ path := fun same => out (same ▸ List.mem_cons_self)
      have out : other ∉ rest := fun there => out (List.mem_cons_of_mem _ there)
      rw [h.2.1 other out, kept other apart]

theorem ask_ends {removal : Removal} (doc : Documented armed held removal.files) {cmd : Cmd}
    (known : removal.scheduler = .systemd ∧ cmd = isActiveSyncTimer ∨
      removal.scheduler = .launchd ∧ cmd = print)
    (m₁ : Machine μ) :
    Meets (· = m₁) (ask removal.scheduler cmd)
      (fun said m => m.files = m₁.files ∧ (said = some false → removal.files ≠ [] →
        armed m.manager = false))
      fun _ _ => False := by
  rintro m rfl
  rw [ask, primitive, exec, exec]
  cases answer : Host.exec m.calls cmd m.files m.manager with
  | mk ended manager =>
    refine .ok ⟨rfl, fun said _ => ?_⟩
    have kept : armed (Host.exec m.calls cmd m.files m.manager).2 = armed m.manager :=
      doc.asked (known.imp And.right And.right)
    rw [answer] at kept
    refine kept.trans ?_
    cases ended with
    | error source => cases said
    | ok output => exact doc.absent known answer said

theorem stillLoaded_ends (removal : Removal) (doc : Documented armed held removal.files)
    (m₁ : Machine μ) :
    Meets (· = m₁) (stillLoaded removal)
      (fun said m => m.files = m₁.files ∧ (said = some false → removal.files ≠ [] →
        armed m.manager = false))
      fun _ _ => False := by
  cases removal with
  | systemd service timer => exact ask_ends doc (Or.inl ⟨rfl, rfl⟩) m₁
  | launchd plist => exact ask_ends doc (Or.inr ⟨rfl, rfl⟩) m₁
  | neither => exact Meets.value fun m h => ⟨by rw [h], fun _ none => absurd rfl none⟩

/-- What an uninstall can come to. The files go also when the schedule could not be stopped. -/
inductive UninstallEnd (armed : μ → Bool) (paths : List UnixPath) (m₀ m : Machine μ) :
    Outcome TimerError (List UnixPath × Stopped) → Prop
  | gone {state : Stopped} : (∀ path ∈ paths, m.files path = none) →
    (paths ≠ [] → armed m.manager = false) →
      UninstallEnd armed paths m₀ m (.ok (paths.filter (fun path => (m₀.files path).isSome), state))
  | notStopped {why : TimerError} {confirmed : Bool} {check : String} :
    (∀ path ∈ paths, m.files path = none) →
      UninstallEnd armed paths m₀ m (.err (.notStopped why confirmed check))
  | failed {e : TimerError} : ¬NotStopped e → UninstallEnd armed paths m₀ m (.err e)

theorem uninstall_ends (removal : Removal) (apart : removal.files.Nodup)
    (doc : Documented armed held removal.files) (m₀ : Machine μ) :
    Meets (· = m₀) (uninstall removal)
      (fun went m => (∀ path, path ∉ removal.files → m.files path = m₀.files path) ∧
        UninstallEnd armed removal.files m₀ m (.ok went))
      fun e m => (∀ path, path ∉ removal.files → m.files path = m₀.files path) ∧
        UninstallEnd armed removal.files m₀ m (.err e) := by
  have files_gone (why : Option TimerError) :
      Meets (fun m => m.files = m₀.files ∧ (why = none → removal.files ≠ [] →
        armed m.manager = false))
        (removeAll removal.files)
        (fun gone m => gone = removal.files.filter (fun path => (m₀.files path).isSome) ∧
          (∀ path ∈ removal.files, m.files path = none) ∧
          (∀ path, path ∉ removal.files → m.files path = m₀.files path) ∧
          (why = none → removal.files ≠ [] → armed m.manager = false))
        fun e m => (∀ path, path ∉ removal.files → m.files path = m₀.files path) ∧
          UninstallEnd armed removal.files m₀ m (.err e) := by
    refine Meets.each fun m₁ h₁ => (removeAll_ends removal.files apart m₁).mono (fun m h => ?_)
      (fun gone m h => ?_)
      fun e m h => ⟨fun path out => ?_, .failed h.1⟩
    · rw [h]
      exact ⟨rfl, rfl⟩
    · rw [← h₁.1, h.2.2.2]
      exact ⟨h.1, h.2.1, h.2.2.1, h₁.2⟩
    · rw [h.2 path out, h₁.1]
  have reloaded (why : Option TimerError) (gone : List UnixPath) :
      Meets (fun m => (∀ path ∈ removal.files, m.files path = none) ∧
          (∀ path, path ∉ removal.files → m.files path = m₀.files path) ∧
          (why = none → removal.files ≠ [] → armed m.manager = false))
        (reloadGone removal gone)
        (fun _ m => (∀ path ∈ removal.files, m.files path = none) ∧
          (∀ path, path ∉ removal.files → m.files path = m₀.files path) ∧
          (why = none → removal.files ≠ [] → armed m.manager = false))
        fun e m => (∀ path, path ∉ removal.files → m.files path = m₀.files path) ∧
          UninstallEnd armed removal.files m₀ m (.err e) := by
    cases removal with
    | systemd service timer =>
      rw [reloadGone]
      split
      · exact Meets.value fun _ h => h
      · refine Meets.each fun m₁ h₁ => (run_ends m₁).mono (fun _ h => h)
          (fun _ m h => ?_) fun e m h => ?_
        · rw [h.1]
          refine ⟨h₁.1, h₁.2.1, fun none some => ?_⟩
          rw [reload_unarmed doc h.2]
          exact h₁.2.2 none some
        · rw [h.2]
          exact ⟨h₁.2.1, .failed h.1⟩
    | launchd plist => exact Meets.value fun _ h => h
    | neither => exact Meets.value fun _ h => h
  refine Meets.bind ((stop_ends removal doc).mono (fun _ h => h) (fun _ _ h => h) fun _ _ h =>
    h.elim) fun why => ?_
  refine Meets.bind (files_gone why) fun gone => Meets.given fun went => ?_
  refine Meets.bind (reloaded why gone) fun _ => ?_
  cases why with
  | none =>
    refine Meets.value fun m h => ⟨h.2.1, ?_⟩
    rw [went]
    exact .gone h.1 (h.2.2 rfl)
  | some e =>
    refine Meets.bind (M := fun said m => (said = some false → removal.files ≠ [] →
      armed m.manager = false) ∧
      (∀ path ∈ removal.files, m.files path = none) ∧ ∀ path, path ∉ removal.files →
      m.files path = m₀.files path) ?_
      fun said => ?_
    · refine Meets.each fun m₁ h₁ => (stillLoaded_ends removal doc m₁).mono (fun _ h => h)
        (fun said m h => ?_)
        fun _ _ h => h.elim
      rw [h.1]
      exact ⟨h.2, h₁.1, h₁.2.1⟩
    · rcases said with _ | _ | _
      · exact Meets.error fun m h => ⟨h.2.2, .notStopped h.2.1⟩
      · refine Meets.value fun m h => ⟨h.2.2, ?_⟩
        rw [went]
        exact .gone h.2.1 (h.1 rfl)
      · exact Meets.error fun m h => ⟨h.2.2, .notStopped h.2.1⟩

end

/-- What the commands so far told of the schedule. -/
inductive Told where
  | nothing
  /-- None of its files is there, and it may still run. -/
  | noFiles
  | schedule (plan : Plan)
  | unsure
  deriving DecidableEq

namespace Told

/-- After an install that was taken back. -/
def takenBack (told : Told) : Told := if told = nothing then nothing else noFiles

/-- A plan that writes nothing is only printed. -/
def installed (told : Told) : Outcome TimerError Plan → Told
  | .ok plan => if written plan = [] then told else schedule plan
  | .err (.halfUndone _ _) => unsure
  | .err e => if e.began then told.takenBack else told
  | _ => unsure

theorem installed_early (told : Told) {e : TimerError} (early : e.began = false) :
    told.installed (.err e) = told := by
  cases e with
  | halfUndone cause left => cases early
  | _ =>
    rw [installed, early]
    · rfl
    · nofun

theorem installed_begun (told : Told) {e : TimerError} (began : e.began = true) :
    told.installed (.err e) = unsure ∨ told.installed (.err e) = told.takenBack := by
  cases e with
  | halfUndone cause left => exact Or.inl rfl
  | _ =>
    refine Or.inr ?_
    rw [installed, began]
    · rfl
    · nofun

def uninstalled : Outcome TimerError (List UnixPath × Stopped) → Told
  | .ok _ => nothing
  | .err (.notStopped _ _ _) => noFiles
  | _ => unsure

/-- What was told is so. -/
def Sound (armed : μ → Bool) (held : μ → UnixPath → Option String) (paths : List UnixPath) :
    Told → Machine μ → Prop
  | nothing, m => (∀ path ∈ paths, m.files path = none) ∧ (paths ≠ [] → armed m.manager = false)
  | noFiles, m => ∀ path ∈ paths, m.files path = none
  | schedule plan, m => (written plan).map Written.path = paths ∧ written plan ≠ [] ∧
      armed m.manager = true ∧ ∀ file ∈ written plan,
        m.files file.path = some file.text ∧ held m.manager file.path = some file.text
  | unsure, _ => True

end Told

inductive Command where
  | install (setup : Setup)
  | uninstall

/-- `manage_timer`: one command, with the directories of this machine. -/
def manageTimer (machine : Scheduler) (unitDir daemonDir : UnixPath) (before : Told × Machine μ)
    (command : Command) :
    Told × Machine μ :=
  match command with
  | .install setup =>
    let (came, m) :=
      (install machine { setup with unitDir := unitDir, daemonDir := daemonDir }).exec before.2
    (before.1.installed came, m)
  | .uninstall =>
    let (came, m) := (uninstall (removal machine unitDir daemonDir)).exec before.2
    (Told.uninstalled came, m)

section
variable {armed : μ → Bool} {held : μ → UnixPath → Option String} {paths : List UnixPath}
  {m₀ m : Machine μ}

theorem put_kept {files : Files} {path : UnixPath} (all : List Written)
    (out : path ∉ all.map Written.path) :
    all.foldl put files path = files path := by
  induction all generalizing files with
  | nil => rfl
  | cons first rest ih =>
    obtain ⟨other, out⟩ := not_or.mp (List.mem_cons.not.mp out)
    exact (ih out).trans (put_others other)

/-- Whatever a plan writes is there once it has been written. -/
theorem put_all {files : Files} {file : Written} (all : List Written)
    (apart : (all.map Written.path).Nodup) (there : file ∈ all) :
    all.foldl put files file.path = some file.text := by
  induction all generalizing files with
  | nil => cases there
  | cons first rest ih =>
    obtain ⟨fresh, rest_apart⟩ := List.nodup_cons.mp apart
    rcases List.mem_cons.mp there with rfl | there
    · exact (put_kept rest fresh).trans (put_self file)
    · exact ih rest_apart there

omit [Host μ] in
theorem InstallEnd.others {came : Outcome TimerError Plan}
    (h : InstallEnd armed held paths m₀ m came) {path : UnixPath} (out : path ∉ paths)
    (beside : path ∉ siblings paths) :
    m.files path = m₀.files path := by
  cases h with
  | installed free named all =>
    rw [all.files path (named ▸ beside)]
    exact put_kept _ (named ▸ out)
  | refused _ same => exact congrFun same.1 path
  | undone _ free same idle => exact same path beside
  | halfUndone free others => exact others path out beside

omit [Host μ] in
/-- What is told stays so where nothing has changed. -/
theorem Told.Sound.same {told : Told} (sound : told.Sound armed held paths m₀) (same : Same m₀ m) :
    told.Sound armed held paths m := by
  obtain ⟨files, manager⟩ := same
  cases told with
  | nothing =>
    exact ⟨fun path there => files ▸ sound.1 path there, fun some => manager ▸ sound.2 some⟩
  | noFiles => exact fun path there => files ▸ sound path there
  | schedule plan =>
    obtain ⟨named, writes, on, all⟩ := sound
    exact ⟨named, writes, manager ▸ on,
      fun file there => ⟨files ▸ (all file there).1, manager ▸ (all file there).2⟩⟩
  | unsure => trivial

omit [Host μ] in
/-- An install keeps what was told true, or tells what is true now. -/
theorem installed_sound {told : Told} {came : Outcome TimerError Plan} (apart : paths.Nodup)
    (beside : Beside paths) (h : InstallEnd armed held paths m₀ m came)
    (sound : told.Sound armed held paths m₀) : (told.installed came).Sound armed held paths m := by
  cases h with
  | @installed decided free named all =>
    rw [Told.installed]
    split
    · next nothing =>
      -- Where a plan writes nothing, a schedule has no files.
      have empty : paths = [] := by rw [← named, nothing, List.map_nil]
      cases told with
      | nothing =>
        exact ⟨fun path there => absurd (empty ▸ there) List.not_mem_nil,
          fun some => absurd empty some⟩
      | noFiles => exact fun path there => absurd (empty ▸ there) List.not_mem_nil
      | schedule plan => exact absurd (List.map_eq_nil_iff.mp (sound.1.trans empty)) sound.2.1
      | unsure => trivial
    · next writes =>
      refine ⟨named, writes, all.armed writes, fun file there => ⟨?_, all.held file there⟩⟩
      have known : file.path ∈ paths := named ▸ List.mem_map_of_mem there
      rw [all.files file.path (named ▸ beside file.path known)]
      exact put_all _ (named.symm ▸ apart) there
  | refused early same =>
    rw [told.installed_early early]
    exact sound.same same
  | @undone e began free same idle =>
    have gone : ∀ path ∈ paths, m.files path = none := fun path there =>
      (same path (beside path there)).trans (free path there)
    have kept : told.takenBack.Sound armed held paths m := by
      rw [Told.takenBack]
      split
      · next nothing =>
        rw [nothing] at sound
        exact ⟨gone, fun some => idle.unarmed (sound.2 some)⟩
      · exact gone
    rcases told.installed_begun began with unsure | back
    · rw [unsure]
      trivial
    · rw [back]
      exact kept
  | halfUndone free others => trivial

omit [Host μ] in
theorem uninstalled_sound {came : Outcome TimerError (List UnixPath × Stopped)}
    (h : UninstallEnd armed paths m₀ m came) :
    (Told.uninstalled came).Sound armed held paths m := by
  cases h with
  | gone gone off => exact ⟨gone, off⟩
  | notStopped gone => exact gone
  | @failed e known =>
    cases e with
    | notStopped why confirmed check => exact absurd ⟨why, confirmed, check, rfl⟩ known
    | _ => trivial

omit [Host μ] in
/-- A schedule that is there is never installed over. -/
theorem InstallEnd.spares {told : Told} {came : Outcome TimerError Plan}
    (h : InstallEnd armed held paths m₀ m came) {path : UnixPath} (known : path ∈ paths)
    (there : m₀.files path ≠ none) : told.installed came = told ∧ Same m₀ m := by
  cases h with
  | installed free named all => exact absurd (free path known) there
  | refused early same => exact ⟨told.installed_early early, same⟩
  | undone _ free same idle => exact absurd (free path known) there
  | halfUndone free others => exact absurd (free path known) there

/-- One command tells what is so, and leaves alone all but the schedule. -/
theorem told_kept (machine : Scheduler) (unitDir daemonDir : UnixPath)
    (doc : Documented armed held (removal machine unitDir daemonDir).files) (command : Command)
    {told : Told} {m : Machine μ}
    (sound : told.Sound armed held (removal machine unitDir daemonDir).files m) :
    let paths := (removal machine unitDir daemonDir).files
    let next := manageTimer machine unitDir daemonDir (told, m) command
    next.1.Sound armed held paths next.2 ∧
      ∀ path, path ∉ paths → path ∉ siblings paths → next.2.files path = m.files path := by
  have apart := removal_apart machine unitDir daemonDir
  cases command with
  | install setup =>
    have ends := install_ends machine
      { setup with unitDir := unitDir, daemonDir := daemonDir } doc m
    exact ⟨installed_sound apart (removal_beside machine unitDir daemonDir) ends sound,
      fun path out beside => ends.others out beside⟩
  | uninstall =>
    have ends := uninstall_ends (removal machine unitDir daemonDir) apart doc m m rfl
    simp only [manageTimer]
    revert ends
    generalize (uninstall (removal machine unitDir daemonDir)).exec m = r
    rintro (⟨others, h⟩ | ⟨others, h⟩)
    · exact ⟨uninstalled_sound h, fun path out _ => others path out⟩
    · exact ⟨uninstalled_sound h, fun path out _ => others path out⟩

/-- Whatever commands are run on a machine and whatever fails, what they told of the schedule
is so, no file but its own and what is written beside them has changed, and where any of its
files is there an install changes nothing. -/
theorem told_so (machine : Scheduler) (unitDir daemonDir : UnixPath)
    (doc : Documented armed held (removal machine unitDir daemonDir).files)
    (commands : List Command) (told : Told) (m : Machine μ)
    (sound : told.Sound armed held (removal machine unitDir daemonDir).files m) :
    let paths := (removal machine unitDir daemonDir).files
    let after := commands.foldl (manageTimer machine unitDir daemonDir) (told, m)
    after.1.Sound armed held paths after.2 ∧
      (∀ path, path ∉ paths → path ∉ siblings paths → after.2.files path = m.files path) ∧
      ∀ setup, ∀ path ∈ paths, after.2.files path ≠ none →
        let next := manageTimer machine unitDir daemonDir after (.install setup)
        next.1 = after.1 ∧ next.2.files = after.2.files ∧ next.2.manager = after.2.manager := by
  intro paths after
  rw [← and_assoc]
  refine ⟨?_, fun setup path known there =>
    (install_ends machine { setup with unitDir := unitDir, daemonDir := daemonDir }
      doc after.2).spares
      known there⟩
  induction commands generalizing told m with
  | nil => exact ⟨sound, fun _ _ _ => rfl⟩
  | cons command rest ih =>
    obtain ⟨now, first⟩ := told_kept machine unitDir daemonDir doc command sound
    obtain ⟨later, others⟩ := ih _ _ now
    exact ⟨later, fun path out beside => (others path out beside).trans (first path out beside)⟩

end

abbrev SampleManager := Bool × (UnixPath → Option String)

def sampleAnswer (cmd : Cmd) (files : Files) (manager : SampleManager) :
    Except String Output × SampleManager :=
  match cmd.args with
  | ["daemon-reload"] => (.ok ⟨true, "", ""⟩, manager.1, files)
  | ["enable", "--now", _] => (.ok ⟨true, "", ""⟩, true, manager.2)
  | ["disable", "--now", _] => (.ok ⟨true, "", ""⟩, false, manager.2)
  | ["bootstrap", _, _] => (.ok ⟨true, "", ""⟩, true, files)
  | ["bootout", _] => (.ok ⟨true, "", ""⟩, false, fun _ => none)
  | _ =>
    (.ok ⟨manager.1, if manager.1 then "active" else "inactive", "Could not find service"⟩, manager)

/-- Two calls fail: the second write of the first install, half of it done, and the first
attempt to stop. -/
@[reducible] def sampleHost : Host SampleManager where
  exec n cmd files manager := if n = 14 then (.error "Permission denied", manager)
    else sampleAnswer cmd files manager
  writeFault n _ := if n = 4 then some ("No space left on device", some "[Unit]") else none
  removeFault _ _ := none
  lookFault _ _ := none

def sampleSetup : Setup :=
  ⟨Utf8Text.asBytes "/usr/local/bin/anago", Utf8Text.asBytes "/home/mia/.config/anago/device.json",
    Utf8Text.asBytes "/etc/wireguard/anago.conf", .ofSecs 300, [], []⟩

def sampleMachine : Machine SampleManager :=
  ⟨fun path => if path = sampleSetup.deviceFile then some "" else none, (false, fun _ => none), 0⟩

def sampleCommands : List Command :=
  [.install sampleSetup, .install sampleSetup, .uninstall, .uninstall]

theorem sample_exec (n : Nat) (cmd : Cmd) (files : Files) (manager : SampleManager) :
    letI := sampleHost
    Host.exec n cmd files manager =
      if n = 14 then (.error "Permission denied", manager)
        else sampleAnswer cmd files manager := rfl

theorem sample_works {n : Nat} {cmd : Cmd} {files : Files} {manager manager' : SampleManager}
    (h : letI := sampleHost; Works n cmd files manager manager') :
    manager' = (sampleAnswer cmd files manager).2 := by
  obtain ⟨output, ran, _⟩ := h
  rw [sample_exec] at ran
  split at ran
  · cases ran
  · rw [ran]

theorem sample_documented (paths : List UnixPath) :
    letI := sampleHost
    Documented (μ := SampleManager) Prod.fst Prod.snd paths := by
  let := sampleHost
  have kept {cmd : Cmd} {n : Nat} {files : Files} {manager : SampleManager}
      (same : (sampleAnswer cmd files manager).2.1 = manager.1) :
        (Host.exec n cmd files manager).2.1 = manager.1 := by
    rw [sample_exec]
    split
    · rfl
    · exact same
  constructor
  · rintro n files manager manager' works path -
    rw [sample_works works]
    rfl
  · exact fun n files manager => kept rfl
  · intro n files manager manager' works
    rw [sample_works works]
    exact ⟨rfl, fun path _ => Or.inl rfl⟩
  · intro n files manager manager' works
    rw [sample_works works]
    rfl
  · intro n files manager manager' plist works _
    rw [sample_works works]
    exact ⟨rfl, rfl⟩
  · intro n files manager manager' works
    rw [sample_works works]
    exact ⟨rfl, fun path _ => rfl⟩
  · rintro cmd n files manager (rfl | rfl)
    · exact kept rfl
    · exact kept rfl
  · rintro scheduler cmd n files ⟨running, read⟩ manager' output asked ran said
    cases running with
    | false => rfl
    | true =>
      rw [sample_exec] at ran
      split at ran
      · cases ran
      · rcases asked with ⟨rfl, rfl⟩ | ⟨rfl, rfl⟩
        · cases ran
          cases said
        · cases ran
          cases said

def sampleUnits : UnixPath := Utf8Text.asBytes "/etc/systemd/system"

def sampleDaemons : UnixPath := Utf8Text.asBytes "/Library/LaunchDaemons"

/-- The first install is taken back, the second is there, the first attempt to remove it does
not confirm that it stopped, and the second does. -/
theorem told_so_sample :
    letI := sampleHost
    let after (n : Nat) := (sampleCommands.take n).foldl
      (manageTimer .systemd sampleUnits sampleDaemons) (.nothing, sampleMachine)
    (after 1).1 = .nothing ∧ (after 2).1 ≠ .nothing ∧ (after 2).1 ≠ .unsure ∧
      (after 2).1 ≠ .noFiles ∧
      (after 3).1 = .noFiles ∧ (after 4).1 = .nothing ∧
      ∀ n, (after n).1.Sound Prod.fst Prod.snd (removal .systemd sampleUnits sampleDaemons).files
        (after n).2 := by
  let := sampleHost
  have computed :
      let after (n : Nat) := (sampleCommands.take n).foldl
        (manageTimer .systemd sampleUnits sampleDaemons) (.nothing, sampleMachine)
      (after 1).1 = .nothing ∧ (after 2).1 ≠ .nothing ∧ (after 2).1 ≠ .unsure ∧
        (after 2).1 ≠ .noFiles ∧ (after 3).1 = .noFiles ∧ (after 4).1 = .nothing := by
          decide +kernel
  have start : Told.nothing.Sound Prod.fst Prod.snd
      (removal .systemd sampleUnits sampleDaemons).files sampleMachine := by
    refine ⟨fun path there => if_neg ?_, fun _ => rfl⟩
    rintro rfl
    exact absurd there (by decide +kernel)
  obtain ⟨first, second, second', second'', third, last⟩ := computed
  exact ⟨first, second, second', second'', third, last,
    fun n => (told_so .systemd _ _ (sample_documented _) _ _ _ start).1⟩

end Timer
