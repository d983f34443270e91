import Anago.ProgramEnds
import Anago.Timer
import Mathlib.Logic.Function.Basic

/-!
# The schedule on a machine

Files and the commands of whatever schedules things. Any call may fail, and what a failed
write leaves beside the file, or a failed command behind, is anything. What the commands do
when they work is `Documented`; that is all that is known of them.
-/

open Program

namespace Timer

abbrev Files := UnixPath → Option String

/-- What a command that ran came to. -/
structure Output where
  success : Bool
  stdout : String
  stderr : String

/-- How calls come out: a command, what a failed write says and leaves beside the file, a failed
removal, a failed look. -/
class Host (μ : Type) where
  exec : Nat → Cmd → Files → μ → Except String Output × μ
  writeFault : Nat → UnixPath → Option (String × Option String)
  removeFault : Nat → UnixPath → Option String
  lookFault : Nat → UnixPath → Option String

structure Machine (μ : Type) where
  files : Files
  manager : μ
  calls : Nat

variable {μ : Type} [Host μ]

abbrev Run (μ α : Type) := Program (Machine μ) TimerError α

/-- Is it there? -/
def look (path : UnixPath) : Run μ Bool :=
  primitive fun machine =>
    match Host.lookFault μ machine.calls path with
    | some source =>
      (.err (.io ("look for " ++ path.display) source none),
        { machine with calls := machine.calls + 1 })
    | none => (.ok (machine.files path).isSome, { machine with calls := machine.calls + 1 })

/-- `temp_sibling`, of a path that ends in a name. -/
def tempSibling (path : UnixPath) : UnixPath := path ++ Utf8Text.asBytes ".tmp"

/-- Writes the file beside its place and renames it. A failure leaves the place as it was. -/
def writeSystem (file : Written) : Run μ Unit :=
  primitive fun machine =>
    let tmp := tempSibling file.path
    match Host.writeFault μ machine.calls file.path with
    | some (source, left) =>
      (.err (.io ("write " ++ file.path.display) source (some file.path)),
        { machine with
          files := Function.update machine.files tmp left
          calls := machine.calls + 1 })
    | none =>
      let cleared := Function.update machine.files tmp none
      (.ok (), { machine with
        files := Function.update cleared file.path (some file.text)
        calls := machine.calls + 1 })

/-- Removes a file. One that is not there is no error. -/
def removeFile (path : UnixPath) : Run μ Bool :=
  primitive fun machine =>
    match Host.removeFault μ machine.calls path with
    | some source =>
      (.err (.io ("remove " ++ path.display) source (some path)),
        { machine with calls := machine.calls + 1 })
    | none =>
      (.ok (machine.files path).isSome,
        { machine with
          files := Function.update machine.files path none
          calls := machine.calls + 1 })

def run (cmd : Cmd) : Run μ Unit :=
  primitive fun machine =>
    let (answer, manager) := Host.exec machine.calls cmd machine.files machine.manager
    let after : Machine μ := ⟨machine.files, manager, machine.calls + 1⟩
    match answer with
    | .error source => (.err (.spawn cmd.display source), after)
    | .ok output =>
      if output.success then (.ok (), after)
      else (.err (.failed cmd.display (String.ofList (StdText.trim output.stderr.toList))), after)

def perform : Step → Run μ Unit
  | .write file => writeSystem file
  | .delete path => (removeFile path) >>= fun _ => ret (.ok ())
  | .run cmd => run cmd

/-- Every step of a rewind is tried, and those that did not work are named. -/
def unwindAll (cause : TimerError) (stuck : List Step) : List Step → Run μ Unit
  | [] =>
    if stuck = [] then ret (.err cause)
    else ret (.err (.halfUndone cause (", ".intercalate (stuck.map Step.describe))))
  | step :: rest =>
    (perform step).settle (fun _ => unwindAll cause stuck rest) fun _ =>
      unwindAll cause (stuck ++ [step]) rest

def unwind (plan : Plan) (failed : Nat) (cause : TimerError) : Run μ Unit :=
  unwindAll cause [] (rewind plan failed)

/-- The steps from the one at `index` on. -/
def performAll (plan : Plan) (index : Nat) : List Step → Run μ Unit
  | [] => ret (.ok ())
  | step :: rest =>
    (perform step).settle (fun _ => performAll plan (index + 1) rest) fun e => unwind plan index e

/-- Which of the files are there. -/
def present : List UnixPath → Run μ (List UnixPath)
  | [] => ret (.ok [])
  | path :: rest => do
    let here ← look path
    let others ← present rest
    ret (.ok (if here then path :: others else others))

/-- The schedule already on this machine. -/
def scheduleHere (machine : Scheduler) (unitDir daemonDir : UnixPath) : Run μ (List UnixPath) :=
  present (removal machine unitDir daemonDir).files

def install (machine : Scheduler) (setup : Setup) : Run μ Plan := do
  let joined ← look setup.deviceFile
  let schedule ← scheduleHere machine setup.unitDir setup.daemonDir
  let plan ← ret (.ofExcept (plan machine ⟨joined, schedule⟩ setup))
  performAll plan 0 (steps plan)
  ret (.ok plan)

/-- The files that went away. -/
def removeAll : List UnixPath → Run μ (List UnixPath)
  | [] => ret (.ok [])
  | path :: rest => do
    let here ← removeFile path
    let others ← removeAll rest
    ret (.ok (if here then path :: others else others))

/-- What became of a call, and on with it. -/
def attempt {α : Type} (p : Run μ α) : Run μ (Option TimerError) :=
  p.settle (fun _ => ret (.ok none)) fun e => ret (.ok (some e))

/-- Asks the manager. What is no answer says nothing. -/
def ask (scheduler : Scheduler) (cmd : Cmd) : Run μ (Option Bool) :=
  primitive fun machine =>
    let (answer, manager) := Host.exec machine.calls cmd machine.files machine.manager
    let said := match answer with
      | .error _ => none
      | .ok output => stillThere scheduler output.success output.stdout output.stderr
    (.ok said, ⟨machine.files, manager, machine.calls + 1⟩)

/-- Asks whether it is still loaded. -/
def stillLoaded (removal : Removal) : Run μ (Option Bool) :=
  match removal with
  | .systemd _ _ => ask removal.scheduler isActiveSyncTimer
  | .launchd _ => ask removal.scheduler print
  | .neither => ret (.ok (some false))

/-- Stops it, if there is anything that could be stopped. -/
def stop (removal : Removal) : Run μ (Option TimerError) :=
  match removal with
  | .systemd _ _ => attempt (run disableSyncTimer)
  | .launchd _ => attempt (run bootout)
  | .neither => ret (.ok none)

/-- systemd is told when files went. -/
def reloadGone (removal : Removal) (gone : List UnixPath) : Run μ Unit :=
  match removal with
  | .systemd _ _ => if gone = [] then ret (.ok ()) else run daemonReload
  | _ => ret (.ok ())

/-- What went away, and whether it is stopped. -/
def uninstall (removal : Removal) : Run μ (List UnixPath × Stopped) := do
  let stop ← stop removal
  let gone ← removeAll removal.files
  reloadGone removal gone
  match stop with
  | none => ret (.ok (gone, .gone))
  | some why => do
    let said ← stillLoaded removal
    match stopped false said with
    | .stillThere => ret (.err (.notStopped why true (checkCommand removal.scheduler)))
    | .unknown => ret (.err (.notStopped why false (checkCommand removal.scheduler)))
    | state => ret (.ok (gone, state))

/-- A command that was run and worked. -/
def Works (n : Nat) (cmd : Cmd) (files : Files) (manager manager' : μ) : Prop :=
  ∃ output, Host.exec n cmd files manager = (.ok output, manager') ∧ output.success = true

/-- What is known of `systemctl` and `launchctl`. `armed` says that the schedule is
running, `held` what they have read of a file of it. -/
structure Documented (armed : μ → Bool) (held : μ → UnixPath → Option String)
    (paths : List UnixPath) : Prop where
  reload {n : Nat} {files : Files} {manager manager' : μ} :
    Works n daemonReload files manager manager' →
    ∀ path ∈ paths, held manager' path = files path
  reload_armed (n : Nat) (files : Files) (manager : μ) :
    armed (Host.exec n daemonReload files manager).2 = armed manager
  enable {n : Nat} {files : Files} {manager manager' : μ} :
    Works n enableSyncTimer files manager manager' →
    armed manager' = true ∧ ∀ path ∈ paths, held manager' path = held manager path ∨
    held manager' path = files path
  disable {n : Nat} {files : Files} {manager manager' : μ} :
    Works n disableSyncTimer files manager manager' →
    armed manager' = false
  bootstrap {n : Nat} {files : Files} {manager manager' : μ} {plist : UnixPath} :
    Works n (Timer.bootstrap plist) files manager manager' → plist ∈ paths →
      armed manager' = true ∧ held manager' plist = files plist
  bootout {n : Nat} {files : Files} {manager manager' : μ} :
    Works n Timer.bootout files manager manager' →
    armed manager' = false ∧ ∀ path ∈ paths, held manager' path = none
  asked {cmd : Cmd} {n : Nat} {files : Files} {manager : μ} : cmd = isActiveSyncTimer ∨
    cmd = Timer.print →
    armed (Host.exec n cmd files manager).2 = armed manager
  absent {scheduler : Scheduler} {cmd : Cmd} {n : Nat} {files : Files} {manager manager' : μ}
    {output : Output} :
    (scheduler = .systemd ∧ cmd = isActiveSyncTimer) ∨ (scheduler = .launchd ∧ cmd = Timer.print) →
    Host.exec n cmd files manager = (.ok output, manager') →
    stillThere scheduler output.success output.stdout output.stderr = some false →
    armed manager = false

section
variable {m m' : Machine μ}

theorem write_ok {file : Written} (h : (perform (.write file)).exec m = (.ok (), m')) :
    m'.files = Function.update (Function.update m.files (tempSibling file.path) none) file.path
      (some file.text) ∧ m'.manager = m.manager := by
  rw [perform, writeSystem, primitive, exec, exec] at h
  split at h
  · cases h
  · cases h
    exact ⟨rfl, rfl⟩

theorem write_err {file : Written} {e : TimerError}
    (h : (perform (.write file)).exec m = (.err e, m')) :
    (∃ left, m'.files = Function.update m.files (tempSibling file.path) left) ∧
      m'.manager = m.manager := by
  rw [perform, writeSystem, primitive, exec, exec] at h
  split at h
  · cases h
    exact ⟨⟨_, rfl⟩, rfl⟩
  · cases h

theorem delete_ok {path : UnixPath} (h : (perform (.delete path)).exec m = (.ok (), m')) :
    m'.files = Function.update m.files path none ∧ m'.manager = m.manager := by
  rw [perform, removeFile, exec_bind, primitive, exec, exec] at h
  simp only at h
  split at h
  · cases h
  · cases h
    exact ⟨rfl, rfl⟩

theorem run_ok {cmd : Cmd} (h : (perform (.run cmd)).exec m = (.ok (), m')) :
    m'.files = m.files ∧ Works m.calls cmd m.files m.manager m'.manager := by
  rw [perform, run, primitive, exec, exec] at h
  simp only at h
  cases answer : Host.exec m.calls cmd m.files m.manager with
  | mk said manager =>
    rw [answer] at h
    cases said with
    | error source => cases h
    | ok output =>
      simp only at h
      split at h
      · next success =>
        cases h
        exact ⟨rfl, output, answer, success⟩
      · cases h

theorem run_err {cmd : Cmd} {e : TimerError} (h : (perform (.run cmd)).exec m = (.err e, m')) :
    m'.files = m.files ∧ m'.manager = (Host.exec m.calls cmd m.files m.manager).2 := by
  rw [perform, run, primitive, exec, exec] at h
  simp only at h
  cases answer : Host.exec m.calls cmd m.files m.manager with
  | mk said manager =>
    rw [answer] at h
    cases said with
    | error source =>
      cases h
      exact ⟨rfl, rfl⟩
    | ok output =>
      simp only at h
      split at h
      · cases h
      · cases h
        exact ⟨rfl, rfl⟩

end

/-- A step works or fails; there is no other end. -/
theorem perform_ends (step : Step) (m : Machine μ) :
    (∃ m', (perform step).exec m = (.ok (), m')) ∨ ∃ e m',
    (perform step).exec m = (.err e, m') := by
  cases step with
  | write file =>
    rw [perform, writeSystem, primitive, exec, exec]
    split
    · exact Or.inr ⟨_, _, rfl⟩
    · exact Or.inl ⟨_, rfl⟩
  | delete path =>
    rw [perform, removeFile, exec_bind, primitive, exec, exec]
    split
    · exact Or.inr ⟨_, _, rfl⟩
    · exact Or.inl ⟨_, rfl⟩
  | run cmd =>
    rw [perform, run, primitive, exec, exec]
    simp only
    split
    · exact Or.inr ⟨_, _, rfl⟩
    · split
      · exact Or.inl ⟨_, rfl⟩
      · exact Or.inr ⟨_, _, rfl⟩

/-- The error of a step of an install, and not of what is found before the first. -/
def TimerError.began : TimerError → Bool
  | .io _ _ target => target.isSome
  | .spawn _ _ => true
  | .failed _ _ => true
  | .halfUndone _ _ => true
  | _ => false

theorem perform_began {step : Step} (install : ∀ path, step ≠ .delete path) {m m' : Machine μ}
    {e : TimerError} (h : (perform step).exec m = (.err e, m')) : e.began = true := by
  cases step with
  | write file =>
    rw [perform, writeSystem, primitive, exec, exec] at h
    split at h
    · cases h
      rfl
    · cases h
  | delete path => exact absurd rfl (install path)
  | run cmd =>
    rw [perform, run, primitive, exec, exec] at h
    simp only at h
    split at h
    · cases h
      rfl
    · split at h
      · cases h
      · cases h
        rfl

/-- The rewind was not all of it done, and says so. -/
def HalfUndone (e : TimerError) : Prop := ∃ cause left, e = .halfUndone cause left

/-- What some steps come to when all of them work. -/
def Rewinds (R : Machine μ → Prop) : List Step → Machine μ → Prop
  | [], m => R m
  | step :: rest, m => ∀ m', (perform step).exec m = (.ok (), m') → Rewinds R rest m'

theorem unwindAll_ends {R : Machine μ → Prop} (cause : TimerError)
    (stuck steps : List Step) (m : Machine μ) (rewinds : stuck = [] → Rewinds R steps m)
    {Q : Unit → Machine μ → Prop} :
    Ends Q (fun e m => e = cause ∧ R m ∨ HalfUndone e) ((unwindAll cause stuck steps).exec m) := by
  induction steps generalizing stuck m with
  | nil =>
    rw [unwindAll]
    split
    · next none => exact .err (Or.inl ⟨rfl, rewinds none⟩)
    · exact .err (Or.inr ⟨_, _, rfl⟩)
  | cons step rest ih =>
    rw [unwindAll, exec_settle]
    rcases perform_ends step m with ⟨m', works⟩ | ⟨e, m', fails⟩
    · rw [works]
      exact ih stuck m' fun none => rewinds none m' works
    · rw [fails]
      exact ih (stuck ++ [step]) m' fun none =>
        absurd none (List.append_ne_nil_of_right_ne_nil _ (List.cons_ne_nil _ _))

/-- The steps of an install, from what each of them finds, what it leaves when it works and
what the rewind comes to when it does not. -/
theorem performAll_ends (plan : Plan) {P : Nat → Machine μ → Prop} {R : Machine μ → Prop}
    (todo : List Step) (index : Nat)
    (works : ∀ k step, todo[k]? = some step → ∀ m m', P (index + k) m →
      (perform step).exec m = (.ok (), m') →
      P (index + k + 1) m')
    (fails : ∀ k step, todo[k]? = some step → ∀ m m' e, P (index + k) m →
      (perform step).exec m = (.err e, m') →
      Rewinds R (rewind plan (index + k)) m')
    (installs : ∀ step ∈ todo, ∀ path, step ≠ .delete path) :
    Meets (P index) (performAll plan index todo) (fun _ => P (index + todo.length))
      fun e m => e.began = true ∧ R m ∨ HalfUndone e := by
  induction todo generalizing index with
  | nil => exact Meets.value fun _ h => h
  | cons step rest ih =>
    intro m hm
    rw [performAll, exec_settle]
    rcases perform_ends step m with ⟨m', ok⟩ | ⟨e, m', err⟩
    · rw [ok]
      have next := works 0 step rfl m m' hm ok
      have later := ih (index + 1)
        (fun k step h m m' hm ok => by
          have := works (k + 1) step h m m' (by rwa [Nat.add_right_comm] at hm) ok
          rwa [Nat.add_right_comm index 1 k])
        (fun k step h m m' e hm err => by
          have := fails (k + 1) step h m m' e (by rwa [Nat.add_right_comm] at hm) err
          rwa [Nat.add_right_comm index 1 k])
        (fun step h => installs step (List.mem_cons_of_mem _ h))
      have ends := later m' next
      rwa [Nat.add_right_comm, Nat.add_assoc] at ends
    · rw [err]
      have began := perform_began (installs step List.mem_cons_self) err
      have ends := unwindAll_ends e [] _ m' (fun _ => fails 0 step rfl m m' e hm err)
        (Q := fun _ => P (index + (rest.length + 1)))
      change Ends _ _ ((unwindAll e [] (rewind plan (index + 0))).exec m')
      revert ends
      generalize (unwindAll e [] (rewind plan (index + 0))).exec m' = r
      rintro (done | (⟨rfl, rewound⟩ | half))
      · exact .ok done
      · exact .err (Or.inl ⟨began, rewound⟩)
      · exact .err (Or.inr half)

/-- The files that a plan writes. -/
def written : Plan → List Written
  | .systemd service timer => [service, timer]
  | .launchd plist => [plist]
  | .byHand _ => []

def put (files : Files) (file : Written) : Files := Function.update files file.path (some file.text)

/-- The siblings that writing some files may leave. -/
def siblings (paths : List UnixPath) : List UnixPath := paths.map tempSibling

/-- None of the files is the sibling of one. -/
def Beside (paths : List UnixPath) : Prop := ∀ path ∈ paths, path ∉ siblings paths

/-- The same files, whatever writing left beside some. -/
def Agree (paths : List UnixPath) (files files' : Files) : Prop :=
  ∀ path ∉ siblings paths, files' path = files path

/-- Where a step writes. -/
def Within (paths : List UnixPath) : Step → Prop
  | .write file => file.path ∈ paths
  | .delete path => path ∈ paths
  | .run _ => True

section
variable {paths : List UnixPath} {path : UnixPath}

theorem perform_others {step : Step} (within : Within paths step) (out : path ∉ paths)
    (beside : path ∉ siblings paths) (m : Machine μ) :
    ((perform step).exec m).2.files path = m.files path := by
  cases step with
  | write file =>
    have apart : path ≠ file.path := fun h => out (h ▸ within)
    have apart' : path ≠ tempSibling file.path := fun h => beside (h ▸ List.mem_map_of_mem within)
    rw [perform, writeSystem, primitive, exec, exec]
    split
    · exact Function.update_of_ne apart' _ _
    · exact (Function.update_of_ne apart _ _).trans (Function.update_of_ne apart' _ _)
  | delete gone =>
    have apart : path ≠ gone := fun h => out (h ▸ within)
    rw [perform, removeFile, exec_bind, primitive, exec, exec]
    split
    · rfl
    · exact Function.update_of_ne apart _ _
  | run cmd =>
    rcases perform_ends (.run cmd) m with ⟨m', h⟩ | ⟨e, m', h⟩
    · rw [h]
      exact congrFun (run_ok h).1 path
    · rw [h]
      exact congrFun (run_err h).1 path

theorem unwindAll_others (cause : TimerError) {steps : List Step}
    (within : ∀ step ∈ steps, Within paths step) (out : path ∉ paths)
    (beside : path ∉ siblings paths) (stuck : List Step) (m : Machine μ) :
    ((unwindAll cause stuck steps).exec m).2.files path = m.files path := by
  induction steps generalizing stuck m with
  | nil =>
    rw [unwindAll]
    split
    · rfl
    · rfl
  | cons step rest ih =>
    have later := ih fun step h => within step (List.mem_cons_of_mem _ h)
    have first := perform_others (within step List.mem_cons_self) out beside m
    rw [unwindAll, exec_settle]
    rcases perform_ends step m with ⟨m', h⟩ | ⟨e, m', h⟩
    · rw [h] at first ⊢
      exact (later stuck m').trans first
    · rw [h] at first ⊢
      exact (later _ m').trans first

theorem performAll_others {plan : Plan}
    (back : ∀ index, ∀ step ∈ rewind plan index, Within paths step) {todo : List Step}
    (within : ∀ step ∈ todo, Within paths step) (out : path ∉ paths)
    (beside : path ∉ siblings paths) (index : Nat) (m : Machine μ) :
    ((performAll plan index todo).exec m).2.files path = m.files path := by
  induction todo generalizing index m with
  | nil => rfl
  | cons step rest ih =>
    have first := perform_others (within step List.mem_cons_self) out beside m
    rw [performAll, exec_settle]
    rcases perform_ends step m with ⟨m', h⟩ | ⟨e, m', h⟩
    · rw [h] at first ⊢
      exact (ih (fun step h => within step (List.mem_cons_of_mem _ h)) _ m').trans first
    · rw [h] at first ⊢
      exact (unwindAll_others e (back index) out beside [] m').trans first

theorem within_steps (plan : Plan) :
    ∀ step ∈ steps plan, Within ((written plan).map Written.path) step := by
  cases plan with
  | systemd service timer => simp [steps, written, Within]
  | launchd plist => simp [steps, written, Within]
  | byHand line => simp [steps]

theorem installs_steps (plan : Plan) : ∀ step ∈ steps plan, ∀ path, step ≠ .delete path := by
  cases plan with
  | systemd service timer => simp [steps]
  | launchd plist => simp [steps]
  | byHand line => simp [steps]

theorem within_rewind (plan : Plan) (index : Nat) :
    ∀ step ∈ rewind plan index, Within ((written plan).map Written.path) step := by
  cases plan with
  | systemd service timer =>
    intro step h
    rw [rewind, List.mem_append, List.mem_append] at h
    rcases h with (h | h) | h
    · split at h
      · rw [List.mem_singleton.mp h]
        trivial
      · cases h
    · rcases List.mem_cons.mp h with rfl | h
      · exact List.mem_cons_of_mem _ List.mem_cons_self
      · rw [List.mem_singleton.mp h]
        exact List.mem_cons_self
    · split at h
      · rw [List.mem_singleton.mp h]
        trivial
      · cases h
  | launchd plist =>
    intro step h
    rcases List.mem_append.mp h with h | h
    · split at h
      · rw [List.mem_singleton.mp h]
        trivial
      · cases h
    · rw [List.mem_singleton.mp h]
      exact List.mem_cons_self
  | byHand line =>
    intro step h
    cases h

end

section
variable {armed : μ → Bool} {held : μ → UnixPath → Option String} {paths : List UnixPath}

/-- A schedule that was not running is not running, and where nothing of it had been read
nothing is. -/
structure Idle (armed : μ → Bool) (held : μ → UnixPath → Option String) (paths : List UnixPath)
    (before manager : μ) : Prop where
  unarmed : armed before = false → armed manager = false
  unread : (∀ path ∈ paths, held before path = none) → ∀ path ∈ paths, held manager path = none

/-- All of a plan is in place, has been read and is running. A plan that writes nothing does
nothing. -/
structure Installed (armed : μ → Bool) (held : μ → UnixPath → Option String)
    (plan : Plan) (files : Files) (before : μ) (m : Machine μ) : Prop where
  files : Agree ((written plan).map Written.path) ((written plan).foldl put files) m.files
  held : ∀ file ∈ written plan, held m.manager file.path = some file.text
  armed : written plan ≠ [] → armed m.manager = true
  untouched : written plan = [] → m.manager = before

omit [Host μ] in
theorem Idle.refl (before : μ) : Idle armed held paths before before := ⟨id, id⟩

theorem reload_unarmed (doc : Documented armed held paths) {n : Nat} {files : Files}
    {manager manager' : μ} (works : Works n daemonReload files manager manager') :
    armed manager' = armed manager := by
  obtain ⟨output, ran, _⟩ := works
  have same := doc.reload_armed n files manager
  rwa [ran] at same

omit [Host μ] in
/-- Files that are away leave what was there before them. -/
theorem clear_file {files files' : Files} {paths : List UnixPath} {path : UnixPath}
    (free : files path = none)
    (others : ∀ other, other ≠ path → other ∉ siblings paths → files' other = files other) :
    Agree paths files (Function.update files' path none) := by
  intro other beside
  by_cases h : other = path
  · rw [h, Function.update_self, free]
  · rw [Function.update_of_ne h, others other h beside]

variable {service timer : Written} {files : Files} {before : μ} {m : Machine μ}

theorem put_others {path : UnixPath} {file : Written} (h : path ≠ file.path) :
    put files file path = files path :=
  Function.update_of_ne h _ _

theorem put_self (file : Written) : put files file file.path = some file.text :=
  Function.update_self _ _ _

/-- A file that is written is written, and its sibling is away. -/
theorem agree_write {paths : List UnixPath} {file : Written}
    (there : file.path ∈ paths) {files' : Files} (same : Agree paths files files') :
    Agree paths (put files file)
      (Function.update (Function.update files' (tempSibling file.path) none) file.path
        (some file.text)) := by
  intro path beside
  by_cases h : path = file.path
  · rw [h, Function.update_self, put_self]
  · have apart : path ≠ tempSibling file.path := fun h => beside (h ▸ List.mem_map_of_mem there)
    rw [Function.update_of_ne h, Function.update_of_ne apart, put_others h, same path beside]

/-- One that could not be written is as it was. -/
theorem agree_unwritten {paths : List UnixPath} {path : UnixPath}
    (there : path ∈ paths) {files' : Files} (same : Agree paths files files')
    (left : Option String) :
    Agree paths files (Function.update files' (tempSibling path) left) := by
  intro other beside
  have apart : other ≠ tempSibling path := fun h => beside (h ▸ List.mem_map_of_mem there)
  rw [Function.update_of_ne apart, same other beside]

/-- The units go away again. -/
theorem rewinds_units {rest : List Step} {R : Machine μ → Prop} {paths : List UnixPath}
    (free : files service.path = none ∧ files timer.path = none)
    (others : ∀ path, path ≠ service.path → path ≠ timer.path → path ∉ siblings paths →
      m.files path = files path)
    (after : ∀ m', Agree paths files m'.files → m'.manager = m.manager → Rewinds R rest m') :
    Rewinds R (.delete timer.path :: .delete service.path :: rest) m := by
  intro m₁ first m₂ second
  obtain ⟨files₁, manager₁⟩ := delete_ok first
  obtain ⟨files₂, manager₂⟩ := delete_ok second
  refine after m₂ ?_ (manager₂.trans manager₁)
  rw [files₂, files₁]
  refine clear_file free.1 fun path h beside => ?_
  by_cases h' : path = timer.path
  · rw [h', Function.update_self, free.2]
  · rw [Function.update_of_ne h', others path h h' beside]

theorem rewinds_reload (doc : Documented armed held [service.path, timer.path])
    (beside : Beside [service.path, timer.path])
    (free : files service.path = none ∧ files timer.path = none)
    (same : Agree [service.path, timer.path] files m.files)
    (unarmed : armed before = false → armed m.manager = false) :
    Rewinds (fun m => Agree [service.path, timer.path] files m.files ∧
      Idle armed held [service.path, timer.path] before m.manager) [.run daemonReload] m := by
  intro m₁ ran
  obtain ⟨files₁, works⟩ := run_ok ran
  refine ⟨files₁ ▸ same, ⟨fun h => (reload_unarmed doc works).trans (unarmed h),
    fun _ path there => ?_⟩⟩
  rw [doc.reload works path there, same path (beside path there)]
  rcases List.mem_cons.mp there with rfl | there
  · exact free.1
  · rw [List.mem_singleton.mp there]
    exact free.2

/-- How far an install of the units is. -/
def Units (armed : μ → Bool) (held : μ → UnixPath → Option String)
    (service timer : Written) (files : Files) (before : μ) (index : Nat) (m : Machine μ) : Prop :=
  let paths := [service.path, timer.path]
  match index with
  | 0 => Agree paths files m.files ∧ m.manager = before
  | 1 => Agree paths (put files service) m.files ∧ m.manager = before
  | 2 => Agree paths (put (put files service) timer) m.files ∧ m.manager = before
  | 3 => Agree paths (put (put files service) timer) m.files ∧
      (armed before = false → armed m.manager = false) ∧
      ∀ path ∈ paths, held m.manager path = m.files path
  | _ => Installed armed held (.systemd service timer) files before m

theorem units_step (doc : Documented armed held [service.path, timer.path])
    (beside : Beside [service.path, timer.path]) (apart : service.path ≠ timer.path)
    {k : Nat} {step : Step} (at_k : (steps (.systemd service timer))[k]? = some step)
    {m m' : Machine μ} (here : Units armed held service timer files before k m)
    (ok : (perform step).exec m = (.ok (), m')) :
    Units armed held service timer files before (k + 1) m' := by
  match k, at_k with
  | 0, rfl =>
    obtain ⟨files', manager'⟩ := write_ok ok
    exact ⟨files' ▸ agree_write List.mem_cons_self here.1, manager'.trans here.2⟩
  | 1, rfl =>
    obtain ⟨files', manager'⟩ := write_ok ok
    have there : timer.path ∈ [service.path, timer.path] :=
      List.mem_cons_of_mem _ List.mem_cons_self
    exact ⟨files' ▸ agree_write there here.1, manager'.trans here.2⟩
  | 2, rfl =>
    obtain ⟨files', works⟩ := run_ok ok
    refine ⟨files' ▸ here.1, fun h => ?_, fun path there => ?_⟩
    · rw [reload_unarmed doc works, here.2]
      exact h
    · rw [files']
      exact doc.reload works path there
  | 3, rfl =>
    obtain ⟨files', works⟩ := run_ok ok
    obtain ⟨on, read⟩ := doc.enable works
    have seen (path : UnixPath) (there : path ∈ [service.path, timer.path]) :
        held m'.manager path = put (put files service) timer path := by
      rw [← here.1 path (beside path there)]
      rcases read path there with h | h
      · rw [h, here.2.2 path there]
      · rw [h]
    refine ⟨files' ▸ here.1, fun file there => ?_, fun _ => on,
      fun none => absurd none (List.cons_ne_nil _ _)⟩
    rcases List.mem_cons.mp there with rfl | there
    · rw [seen _ List.mem_cons_self, put_others apart, put_self]
    · rw [List.mem_singleton.mp there, seen _ (List.mem_cons_of_mem _ List.mem_cons_self), put_self]

theorem units_back (doc : Documented armed held [service.path, timer.path])
    (beside : Beside [service.path, timer.path])
    (free : files service.path = none ∧ files timer.path = none) {k : Nat} {step : Step}
    (at_k : (steps (.systemd service timer))[k]? = some step) {m m' : Machine μ} {e : TimerError}
    (here : Units armed held service timer files before k m)
    (err : (perform step).exec m = (.err e, m')) :
    Rewinds (fun m => Agree [service.path, timer.path] files m.files ∧
        Idle armed held [service.path, timer.path] before m.manager)
      (rewind (.systemd service timer) k) m' := by
  match k, at_k with
  | 0, rfl =>
    obtain ⟨⟨left, files'⟩, manager'⟩ := write_err err
    have same :=
      agree_unwritten (List.mem_cons_self : service.path ∈ [service.path, timer.path]) here.1 left
    refine rewinds_units free (fun path _ _ beside => files' ▸ same path beside) fun m₂ same
      kept => ⟨same, ?_⟩
    rw [kept, manager', here.2]
    exact .refl before
  | 1, rfl =>
    obtain ⟨⟨left, files'⟩, manager'⟩ := write_err err
    have there : timer.path ∈ [service.path, timer.path] :=
      List.mem_cons_of_mem _ List.mem_cons_self
    have same := agree_unwritten there here.1 left
    refine rewinds_units free (fun path h _ beside => ?_) fun m₂ same kept => ⟨same, ?_⟩
    · rw [files', same path beside, put_others h]
    · rw [kept, manager', here.2]
      exact .refl before
  | 2, rfl =>
    obtain ⟨files', manager'⟩ := run_err err
    refine rewinds_units free (fun path h h' clear => ?_) fun m₂ same kept =>
      rewinds_reload doc beside free same fun off => ?_
    · rw [files', here.1 path clear, put_others h', put_others h]
    · rw [kept, manager', doc.reload_armed, here.2]
      exact off
  | 3, rfl =>
    obtain ⟨files', _⟩ := run_err err
    -- What a failed `enable` did is undone by `disable`, whatever it was.
    intro m₁ disabled
    obtain ⟨files₁, works⟩ := run_ok disabled
    refine rewinds_units free (fun path h h' clear => ?_) fun m₂ same kept =>
      rewinds_reload doc beside free same fun _ => ?_
    · rw [files₁, files', here.1 path clear, put_others h', put_others h]
    · rw [kept]
      exact doc.disable works

/-- How far an install of the daemon is. -/
def Daemon (armed : μ → Bool) (held : μ → UnixPath → Option String)
    (plist : Written) (files : Files) (before : μ) (index : Nat) (m : Machine μ) : Prop :=
  match index with
  | 0 => Agree [plist.path] files m.files ∧ m.manager = before
  | 1 => Agree [plist.path] (put files plist) m.files ∧ m.manager = before
  | _ => Installed armed held (.launchd plist) files before m

theorem daemon_step {plist : Written} (doc : Documented armed held [plist.path])
    (beside : Beside [plist.path]) {k : Nat} {step : Step}
    (at_k : (steps (.launchd plist))[k]? = some step) {m m' : Machine μ}
    (here : Daemon armed held plist files before k m) (ok : (perform step).exec m = (.ok (), m')) :
    Daemon armed held plist files before (k + 1) m' := by
  match k, at_k with
  | 0, rfl =>
    obtain ⟨files', manager'⟩ := write_ok ok
    exact ⟨files' ▸ agree_write List.mem_cons_self here.1, manager'.trans here.2⟩
  | 1, rfl =>
    obtain ⟨files', works⟩ := run_ok ok
    obtain ⟨on, read⟩ := doc.bootstrap works List.mem_cons_self
    refine ⟨files' ▸ here.1, fun file there => ?_, fun _ => on,
      fun none => absurd none (List.cons_ne_nil _ _)⟩
    rw [List.mem_singleton.mp there, read, here.1 _ (beside _ List.mem_cons_self), put_self]

theorem daemon_back {plist : Written} (doc : Documented armed held [plist.path])
    (free : files plist.path = none) {k : Nat} {step : Step}
    (at_k : (steps (.launchd plist))[k]? = some step) {m m' : Machine μ} {e : TimerError}
    (here : Daemon armed held plist files before k m) (err : (perform step).exec m = (.err e, m')) :
    Rewinds (fun m => Agree [plist.path] files m.files ∧
      Idle armed held [plist.path] before m.manager)
      (rewind (.launchd plist) k) m' := by
  match k, at_k with
  | 0, rfl =>
    obtain ⟨⟨left, files'⟩, manager'⟩ := write_err err
    intro m₁ deleted
    obtain ⟨files₁, manager₁⟩ := delete_ok deleted
    have same := agree_unwritten (List.mem_cons_self : plist.path ∈ [plist.path]) here.1 left
    refine ⟨?_, ?_⟩
    · rw [files₁, files']
      exact clear_file free fun path _ beside => same path beside
    · rw [manager₁, manager', here.2]
      exact .refl before
  | 1, rfl =>
    obtain ⟨files', _⟩ := run_err err
    intro m₁ out m₂ deleted
    obtain ⟨files₁, works⟩ := run_ok out
    obtain ⟨files₂, manager₂⟩ := delete_ok deleted
    obtain ⟨off, unread⟩ := doc.bootout works
    refine ⟨?_, ?_⟩
    · rw [files₂, files₁, files']
      exact clear_file free fun path h beside => (here.1 path beside).trans (put_others h)
    · rw [manager₂]
      exact ⟨fun _ => off, fun _ => unread⟩

/-- The steps of a plan, where none of its files is there: all of it is in place at the end,
or none of it, or the error says what is stuck. -/
theorem steps_end {plan : Plan} (doc : Documented armed held ((written plan).map Written.path))
    (apart : ((written plan).map Written.path).Nodup)
    (beside : Beside ((written plan).map Written.path))
    (free : ∀ path ∈ (written plan).map Written.path, files path = none) :
    let paths := (written plan).map Written.path
    Meets (fun m => m.files = files ∧ m.manager = before) (performAll plan 0 (steps plan))
      (fun _ => Installed armed held plan files before)
      fun e m => e.began = true ∧ Agree paths files m.files ∧
        Idle armed held paths before m.manager ∨
        HalfUndone e := by
  have start (paths : List UnixPath) {m : Machine μ} (h : m.files = files) :
      Agree paths files m.files :=
    fun path _ => congrFun h path
  cases plan with
  | systemd service timer =>
    have frees := And.intro (free service.path List.mem_cons_self)
      (free timer.path (List.mem_cons_of_mem _ List.mem_cons_self))
    have apart' : service.path ≠ timer.path := fun same =>
      (List.nodup_cons.mp apart).1 (same ▸ List.mem_cons_self)
    have ends := @performAll_ends μ _ (.systemd service timer)
      (Units armed held service timer files before)
      (fun m => Agree [service.path, timer.path] files m.files ∧
        Idle armed held [service.path, timer.path] before m.manager)
      (steps (.systemd service timer)) 0 (fun k step at_k m m' here ok => ?_)
      (fun k step at_k m m' e here err => ?_) (installs_steps _)
    · exact ends.mono (fun m h => ⟨start _ h.1, h.2⟩) (fun _ _ h => h) fun _ _ h => h
    · rw [Nat.zero_add] at here ⊢
      exact units_step doc beside apart' at_k here ok
    · rw [Nat.zero_add] at here ⊢
      exact units_back doc beside frees at_k here err
  | launchd plist =>
    have ends := @performAll_ends μ _ (.launchd plist) (Daemon armed held plist files before)
      (fun m => Agree [plist.path] files m.files ∧ Idle armed held [plist.path] before m.manager)
      (steps (.launchd plist)) 0 (fun k step at_k m m' here ok => ?_)
      (fun k step at_k m m' e here err => ?_) (installs_steps _)
    · exact ends.mono (fun m h => ⟨start _ h.1, h.2⟩) (fun _ _ h => h) fun _ _ h => h
    · rw [Nat.zero_add] at here ⊢
      exact daemon_step doc beside at_k here ok
    · rw [Nat.zero_add] at here ⊢
      exact daemon_back doc (free plist.path List.mem_cons_self) at_k here err
  | byHand line =>
    refine Meets.value fun m h => ⟨start _ h.1, fun file there => ?_,
      fun some => absurd rfl some, fun _ => h.2⟩
    cases there

end

section
variable {paths : List UnixPath} {m m₀ : Machine μ}

/-- Looking changes nothing on the machine. -/
def Same (m₀ m : Machine μ) : Prop := m.files = m₀.files ∧ m.manager = m₀.manager

theorem look_ends (path : UnixPath) :
    Meets (Same m₀) (look path) (fun here m => here = (m₀.files path).isSome ∧ Same m₀ m)
      fun e m => e.began = false ∧ Same m₀ m := by
  refine Meets.primitive fun m h => ?_
  split
  · exact .err ⟨rfl, h⟩
  · exact .ok ⟨by rw [h.1], h⟩

theorem present_ends (paths : List UnixPath) :
    Meets (Same m₀) (present paths)
      (fun here m => here = paths.filter (fun path => (m₀.files path).isSome) ∧ Same m₀ m)
      fun e m => e.began = false ∧ Same m₀ m := by
  induction paths with
  | nil => exact Meets.value fun _ h => ⟨rfl, h⟩
  | cons path rest ih =>
    refine Meets.bind (look_ends path) fun here => Meets.given fun found => ?_
    refine Meets.bind ih fun others => Meets.given fun rest_found => Meets.value fun _ h => ⟨?_, h⟩
    rw [found, rest_found, List.filter_cons]

/-- What a plan needs to have been decided. -/
theorem plan_ok {machine : Scheduler} {existing : Existing} {setup : Setup} {decided : Plan}
    (h : plan machine existing setup = .ok decided) :
    existing.joined = true ∧ existing.schedule = [] ∧
      (written decided).map Written.path =
        (removal machine setup.unitDir setup.daemonDir).files := by
  rw [plan.eq_def] at h
  split at h
  · cases h
  next joined =>
  split at h
  · cases h
  next free =>
  refine ⟨by simpa using joined, by simpa using free, ?_⟩
  cases machine with
  | systemd =>
    simp only at h
    split at h
    · cases h
    · cases h
      rfl
  | launchd =>
    simp only at h
    split at h
    · cases h
    · cases h
      rfl
  | neither =>
    simp only at h
    cases line : crontabLine setup.exec setup.deviceFile setup.interval with
    | error e =>
      rw [line] at h
      cases h
    | ok text =>
      rw [line] at h
      cases h
      rfl

/-- What cannot be decided on is no step that failed. -/
theorem plan_refuses {machine : Scheduler} {existing : Existing} {setup : Setup} {e : TimerError}
    (h : plan machine existing setup = .error e) : e.began = false := by
  rw [plan.eq_def] at h
  split at h
  · cases h
    rfl
  split at h
  · cases h
    rfl
  cases machine with
  | systemd =>
    simp only at h
    split at h
    · cases h
      rfl
    · cases h
  | launchd =>
    simp only at h
    split at h
    · cases h
      rfl
    · cases h
  | neither =>
    simp only at h
    cases line : crontabLine setup.exec setup.deviceFile setup.interval with
    | ok text =>
      rw [line] at h
      cases h
    | error e' =>
      rw [line] at h
      cases h
      rw [crontabLine] at line
      split at line
      · cases line
        rfl
      · split at line
        · cases line
          rfl
        · cases line

theorem join_inj {dir a b : UnixPath} (ha : a.isAbsolute = false) (hb : b.isAbsolute = false)
    (h : dir.join a = dir.join b) : a = b := by
  rw [UnixPath.join, UnixPath.join, if_neg (ne_true_of_eq_false ha),
    if_neg (ne_true_of_eq_false hb)] at h
  split at h
  · exact List.append_cancel_left h
  · exact (List.cons.inj (List.append_cancel_left h)).2

/-- A name with an ending in the same directory is another one. -/
theorem join_sibling {dir a b : UnixPath} (ha : a.isAbsolute = false) (hb : b.isAbsolute = false)
    (differ : a ≠ tempSibling b) (plain : (tempSibling b).isAbsolute = false) :
    dir.join a ≠ tempSibling (dir.join b) := by
  have longer : tempSibling (dir.join b) = dir.join (tempSibling b) := by
    rw [UnixPath.join, UnixPath.join, if_neg (ne_true_of_eq_false hb),
      if_neg (ne_true_of_eq_false plain)]
    split <;> simp [tempSibling]
  rw [longer]
  exact fun same => differ (join_inj ha plain same)

theorem removal_beside (machine : Scheduler) (unitDir daemonDir : UnixPath) :
    Beside (removal machine unitDir daemonDir).files := by
  cases machine with
  | systemd =>
    have service := @join_sibling unitDir (Utf8Text.utf8 Systemd.syncService.toList)
    have timer := @join_sibling unitDir (Utf8Text.utf8 Systemd.syncTimer.toList)
    intro path there
    simp only [siblings, removal, Removal.files, List.map_cons, List.map_nil, List.mem_cons,
      List.not_mem_nil, or_false, not_or] at there ⊢
    rcases there with rfl | rfl
    · exact ⟨service (by decide +kernel) (by decide +kernel) (by decide +kernel)
        (by decide +kernel), service (by decide +kernel) (by decide +kernel) (by decide +kernel)
          (by decide +kernel)⟩
    · exact ⟨timer (by decide +kernel) (by decide +kernel) (by decide +kernel) (by decide +kernel),
        timer (by decide +kernel) (by decide +kernel) (by decide +kernel) (by decide +kernel)⟩
  | launchd =>
    intro path there sibling
    cases List.mem_singleton.mp there
    exact join_sibling (by decide +kernel) (by decide +kernel) (by decide +kernel)
      (by decide +kernel)
      (List.mem_singleton.mp sibling)
  | neither => nofun

theorem removal_apart (machine : Scheduler) (unitDir daemonDir : UnixPath) :
    (removal machine unitDir daemonDir).files.Nodup := by
  cases machine with
  | systemd =>
    refine List.nodup_cons.mpr ⟨fun same => ?_, List.nodup_singleton _⟩
    have named := join_inj (by decide +kernel) (by decide +kernel) (List.mem_singleton.mp same)
    exact absurd named (by decide +kernel)
  | launchd => exact List.nodup_singleton _
  | neither => exact List.nodup_nil

end

section
variable {armed : μ → Bool} {held : μ → UnixPath → Option String}

/-- What an install can come to, with the machine as `m₀` before it and `m` after it. -/
inductive InstallEnd (armed : μ → Bool) (held : μ → UnixPath → Option String)
    (paths : List UnixPath) (m₀ m : Machine μ) : Outcome TimerError Plan → Prop
  | installed {decided : Plan} : (∀ path ∈ paths, m₀.files path = none) →
      (written decided).map Written.path = paths →
      Installed armed held decided m₀.files m₀.manager m →
      InstallEnd armed held paths m₀ m (.ok decided)
  | refused {e : TimerError} : e.began = false → Same m₀ m →
    InstallEnd armed held paths m₀ m (.err e)
  | undone {e : TimerError} : e.began = true → (∀ path ∈ paths, m₀.files path = none) →
      Agree paths m₀.files m.files → Idle armed held paths m₀.manager m.manager →
      InstallEnd armed held paths m₀ m (.err e)
  | halfUndone {cause : TimerError} {left : String} : (∀ path ∈ paths, m₀.files path = none) →
      (∀ path, path ∉ paths → path ∉ siblings paths → m.files path = m₀.files path) →
      InstallEnd armed held paths m₀ m (.err (.halfUndone cause left))

theorem filter_none {files : Files} {paths : List UnixPath}
    (h : paths.filter (fun path => (files path).isSome) = []) :
    ∀ path ∈ paths, files path = none := by
  intro path there
  have none := List.filter_eq_nil_iff.mp h path there
  rwa [Bool.not_eq_true, Option.isSome_eq_false_iff, Option.isNone_iff_eq_none] at none

theorem install_ends (machine : Scheduler) (setup : Setup)
    (doc : Documented armed held (removal machine setup.unitDir setup.daemonDir).files)
    (m₀ : Machine μ) :
    InstallEnd armed held (removal machine setup.unitDir setup.daemonDir).files m₀
      ((install machine setup).exec m₀).2 ((install machine setup).exec m₀).1 := by
  let paths := (removal machine setup.unitDir setup.daemonDir).files
  have ends : Meets (Same m₀) (install machine setup)
      (fun decided m => InstallEnd armed held paths m₀ m (.ok decided))
      (fun e m => InstallEnd armed held paths m₀ m (.err e)) := by
    refine Meets.bind ((look_ends setup.deviceFile).mono (fun _ h => h) (fun _ _ h => h)
      fun _ _ h => .refused h.1 h.2) fun joined => Meets.given fun _ => ?_
    refine Meets.bind ((present_ends _).mono (fun _ h => h) (fun _ _ h => h)
      fun _ _ h => .refused h.1 h.2) fun schedule => Meets.given fun found => ?_
    cases decided : plan machine ⟨joined, schedule⟩ setup with
    | error e => exact Meets.error fun _ h => .refused (plan_refuses decided) h
    | ok chosen =>
      obtain ⟨_, free, named⟩ := plan_ok decided
      have frees := filter_none (found.symm.trans free)
      show Meets (Same m₀) (performAll chosen 0 (steps chosen) >>=
        fun _ => Program.ret (.ok chosen)) _ _
      refine Meets.bind (M := fun _ => Installed armed held chosen m₀.files m₀.manager) ?_
        fun _ => Meets.value fun m h => .installed frees named h
      intro m h
      have ended := @steps_end μ _ armed held m₀.files m₀.manager chosen (named ▸ doc)
        (named ▸ removal_apart machine _ _) (named ▸ removal_beside machine _ _)
        fun path there => frees path (named ▸ there)
      have ends := ended m h
      have others (path : UnixPath) (out : path ∉ paths) (beside : path ∉ siblings paths) :=
        performAll_others (within_rewind chosen) (within_steps chosen) (by rwa [named])
          (by rwa [named]) 0 m
      revert ends others
      generalize (performAll chosen 0 (steps chosen)).exec m = r
      rintro (well | (⟨began, same, idle⟩ | ⟨cause, left, rfl⟩)) others
      · exact .ok well
      · rw [named] at same idle
        exact .err (.undone began frees same idle)
      · exact .err (.halfUndone frees fun path out beside =>
          (others path out beside).trans (congrFun h.1 path))
  have here := ends m₀ ⟨rfl, rfl⟩
  revert here
  generalize (install machine setup).exec m₀ = r
  rintro (h | h)
  · exact h
  · exact h

end

end Timer
