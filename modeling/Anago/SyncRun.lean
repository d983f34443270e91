import Anago.CriticalSections
import Anago.Sync

/-!
# One `anago sync`

The device file, the WireGuard config and the running interface, and what one run does to
them. Its order is the point of it: the config, then the interface, then the device file.
What a run cannot know beforehand is its turn: the answer of the hub, and which steps fail.
-/

open StdText DecimalText Json Proto WgConf

namespace Sync

/-- The files a run names when it fails. -/
structure Places where
  deviceFile : String
  syncLock : String
  wgConfig : String
  strippedFile : String

/-- What the run works on. -/
structure Machine (ι : Type) where
  device : Option String
  config : Option String
  /-- The config whose stripped form is in the stripped file. -/
  stripped : Option String
  /-- The config whose stripped form the interface was last given. -/
  interface : Option String
  /-- Who holds the sync lock. -/
  syncing : Option ι

/-- What comes back of the request. -/
inductive Reply where
  /-- The call did not come back, as `unreachable_or_worse` sorts it. -/
  | lost (error : SyncError)
  /-- A 401. -/
  | unauthorized
  /-- Another refusal, as `client::describe` tells it. -/
  | refused (message : String)
  | success (body : String)

/-- The hub's reply and the steps that fail, with why. -/
structure Turn where
  reply : Reply
  home : Option String
  lock : Option String
  readConfig : Option String
  writeConfig : Option String
  strip : Option String
  writeStripped : Option String
  syncconf : Option String
  writeDevice : Option String

section
variable [Unicode] {ι : Type}

/-- Reading a file: it fails, or it is not there, or its text. -/
def fileText (failure file : Option String) : Except String String :=
  match failure with
  | some detail => .error detail
  | none => okOr file "No such file or directory (os error 2)"

/-- `Home::open` and `Home::read`. -/
def readDevice (places : Places) (turn : Turn) (machine : Machine ι) :
    Outcome SyncError DeviceConfig := do
  let text ← .ofExcept ((fileText turn.home machine.device).mapError
    (.noDeviceFile places.deviceFile))
  (DeviceConfig.parse text).mapErr fun e => .deviceFile e.display

def askHub (config : DeviceConfig) (reply : Reply) : Outcome SyncError PeersResponse :=
  match DeviceToken.parse config.token with
  | .error e => .err (.deviceFile ("token: " ++ e.display))
  | .ok _ =>
    match reply with
    | .lost error => .err error
    | .unauthorized => .err (.detached .unauthorized)
    | .refused message => .err (.refused message)
    | .success body => heard body

/-- The hub's answer, and what to do about it. A dead token is an outcome like any other. -/
def judge (config : DeviceConfig) (own : Local) (reply : Reply) :
    Outcome SyncError (Verdict × Option Reported) :=
  match askHub config reply with
  | .ok response => do
    let reported ← .ofExcept (reportedOf response)
    let roster ← .ofExcept (rosterOf response)
    .ok (Sync.decide own reported roster, reported)
  | .err (.detached detachment) => .ok (.detached detachment, none)
  | .err e => .err e
  | .panic => .panic
  | .spin => .spin

/-- The new device file and the profile of the new config, around the key of the old one. -/
def rebuild (places : Places) (turn : Turn) (config : DeviceConfig)
    (reported : Option Reported) (machine : Machine ι) :
    Outcome SyncError (DeviceConfig × ClientProfile) := do
  let noKey (detail : String) : SyncError := .noPrivateKey places.wgConfig detail
  let existing ← .ofExcept ((fileText turn.readConfig machine.config).mapError noKey)
  let found := (privateKeyLine existing).bind fun text => (parseKey text).toOption
  let privateKey ← .ofExcept (okOr found (noKey "no usable PrivateKey line"))
  let updated := updated config reported
  let profile ← .ofExcept (profileOf updated ⟨privateKey⟩)
  .ok (updated, profile)

/-- `wg-quick strip`, of the file as it is then. -/
def strip (turn : Turn) (machine : Machine ι) : Outcome SyncError String :=
  .ofExcept ((fileText turn.strip machine.config).mapError .apply)

/-- `wg syncconf`, of the stripped file as it is then. -/
def syncconf (machine : Machine ι) : Machine ι :=
  { machine with interface := machine.stripped }

/-- The steps of `apply` that change something; the device file last, and only then. -/
def install (places : Places) (turn : Turn) (updated : DeviceConfig)
    (profile : ClientProfile) : Program (Machine ι) SyncError Unit := do
  .alter (turn.writeConfig.map (.write places.wgConfig)) fun machine =>
    { machine with config := some (clientConfig profile).expose }
  let stripped ← .look (strip turn)
  .alter (turn.writeStripped.map (.write places.strippedFile)) fun machine =>
    { machine with stripped := some stripped }
  -- the stripped file goes away on every path out
  (Program.alter (turn.syncconf.map .apply) syncconf).ensuring fun machine =>
    { machine with stripped := none }
  .alter (turn.writeDevice.map (.write places.deviceFile)) fun machine =>
    { machine with device := some updated.toJsonString }

/-- Rewrites the config and applies it. -/
def apply (places : Places) (turn : Turn) (config : DeviceConfig)
    (reported : Option Reported) : Program (Machine ι) SyncError Unit := do
  let (updated, profile) ← .look (rebuild places turn config reported)
  install places turn updated profile

/-- What follows from the verdict. -/
def follow (places : Places) (turn : Turn) (config : DeviceConfig)
    (reported : Option Reported) : Verdict → Program (Machine ι) SyncError Unit
  | .rewrite _ => apply places turn config reported
  | _ => .ret (.ok ())

/-- What is done while the sync lock is held. -/
def locked (places : Places) (turn : Turn) (config : DeviceConfig) (own : Local) :
    Program (Machine ι) SyncError Verdict := do
  let (verdict, reported) ← .look fun _ => judge config own turn.reply
  follow places turn config reported verdict
  .ret (.ok verdict)

/-- `Home::lock`, tried and not waited for, and the lock given back at the end. -/
def withLock (places : Places) (turn : Turn) (i : ι)
    (body : Program (Machine ι) SyncError Verdict) : Program (Machine ι) SyncError Verdict :=
  .atomic
    (fun machine =>
      if turn.lock = none ∧ machine.syncing.isNone
        then { machine with syncing := some i } else machine)
    fun machine =>
      match turn.lock with
      | some detail => .ret (.err (.write places.syncLock detail))
      | none =>
        if machine.syncing.isNone then body.ensuring fun machine => { machine with syncing := none }
        else .ret (.err .busy)

/-- One run. The device file is read before the lock is tried. -/
def attempt (places : Places) (turn : Turn) (i : ι) :
    Program (Machine ι) SyncError Verdict := do
  let config ← .look (readDevice places turn)
  let own ← .ret (.ofExcept (localOf config))
  withLock places turn i (locked places turn config own)

/-- What a run alone comes to before it changes anything. -/
def plan (places : Places) (turn : Turn) (machine : Machine ι) :
    Outcome SyncError (Verdict × Option (DeviceConfig × ClientProfile)) := do
  let config ← readDevice places turn machine
  let own ← .ofExcept (localOf config)
  turn.lock.elim (.ok ()) fun detail => .err (.write places.syncLock detail)
  let (verdict, reported) ← judge config own turn.reply
  match verdict with
  | .rewrite changes => do
    let new ← rebuild places turn config reported machine
    .ok (.rewrite changes, some new)
  | verdict => .ok (verdict, none)

omit [Unicode] in
/-- A section alone, where the lock can be taken. -/
theorem exec_withLock {places : Places} {turn : Turn} {i : ι} {machine : Machine ι}
    {body : Program (Machine ι) SyncError Verdict} (lock : turn.lock = none)
    (free : machine.syncing = none) :
    (withLock places turn i body).exec machine =
      ((body.exec { machine with syncing := some i }).1,
        { (body.exec { machine with syncing := some i }).2 with syncing := none }) := by
  rw [withLock, Program.exec]
  simp only [lock, free, Option.isNone_none, and_self, if_true, Program.exec_ensuring]

/-- A run alone is its plan and what is then installed. -/
theorem exec_attempt (places : Places) (turn : Turn) (i : ι) {machine : Machine ι}
    (free : machine.syncing = none) :
    (attempt places turn i).exec machine =
      match plan places turn machine with
      | .ok (verdict, none) => (.ok verdict, machine)
      | .ok (verdict, some (updated, profile)) =>
        let after := (install places turn updated profile).exec { machine with syncing := some i }
        (do let _ ← after.1
            .ok verdict, { after.2 with syncing := none })
      | .err e => (.err e, machine)
      | .panic => (.panic, machine)
      | .spin => (.spin, machine) := by
  have again : ({ machine with syncing := none } : Machine ι) = machine := by
    rw [← free]
  rw [attempt, plan, Program.exec_look_bind]
  cases readDevice places turn machine with
  | err e => rfl
  | panic => rfl
  | spin => rfl
  | ok config =>
    simp only [Program.ret_ok_bind, Outcome.ok_bind]
    cases localOf config with
    | error e => rfl
    | ok own =>
      simp only [Outcome.ofExcept, Program.ret_ok_bind, Outcome.ok_bind]
      cases lock : turn.lock with
      | some detail =>
        rw [withLock, lock]
        rfl
      | none =>
        rw [exec_withLock lock free, locked, Program.exec_look_bind]
        cases judge config own turn.reply with
        | err e => exact congrArg (Prod.mk _) again
        | panic => exact congrArg (Prod.mk _) again
        | spin => exact congrArg (Prod.mk _) again
        | ok judged =>
          obtain ⟨verdict, reported⟩ := judged
          cases verdict with
          | unchanged => exact congrArg (Prod.mk _) again
          | unverifiable => exact congrArg (Prod.mk _) again
          | detached detachment => exact congrArg (Prod.mk _) again
          | rewrite changes =>
            have same : rebuild places turn config reported { machine with syncing := some i } =
              rebuild places turn config reported machine := rfl
            simp only [Program.ret_ok_bind, Outcome.ok_bind, follow]
            rw [Program.exec_bind, apply, Program.exec_look_bind, same]
            cases rebuild places turn config reported machine with
            | err e => exact congrArg (Prod.mk _) again
            | panic => exact congrArg (Prod.mk _) again
            | spin => exact congrArg (Prod.mk _) again
            | ok new =>
              obtain ⟨updated, profile⟩ := new
              simp only [Program.ret_ok_bind, Outcome.ok_bind, Option.elim_none]
              cases ((install places turn updated profile).exec
                { machine with syncing := some i }).1 <;> rfl

/-- The lock is given back. -/
theorem free_attempt (places : Places) (turn : Turn) (i : ι) {machine : Machine ι}
    (free : machine.syncing = none) :
    ((attempt places turn i).exec machine).2.syncing = none := by
  rw [exec_attempt places turn i free]
  split
  · exact free
  · rfl
  · exact free
  · exact free
  · exact free

/-- The config is written, and a step after that fails. -/
def Turn.tears (turn : Turn) : Bool :=
  turn.writeConfig.isNone && (turn.strip.isSome || turn.writeStripped.isSome ||
    turn.syncconf.isSome || turn.writeDevice.isSome)

/-- The config is new and the device file is not. -/
structure Torn (file : String) (before after : Machine ι) : Prop where
  device : after.device = before.device
  config : after.config = some file
  interface : after.interface = before.interface ∨ after.interface = some file
  syncing : after.syncing = before.syncing

omit [Unicode] in
/-- What `install` can do: nothing, part of it, or all of it. -/
theorem exec_install (places : Places) (turn : Turn) (updated : DeviceConfig)
    (profile : ClientProfile) (machine : Machine ι) :
    let after := (install places turn updated profile).exec machine
    let file := (clientConfig profile).expose
    (turn.writeConfig.isSome = true ∧ after.2 = machine ∧ ∃ e, after.1 = .err e) ∨
      (turn.tears = true ∧ Torn file machine after.2 ∧ ∃ e, after.1 = .err e) ∨
      (turn.writeConfig.isSome = false ∧ turn.tears = false ∧
        after =
          (.ok ⟨⟩, ⟨some updated.toJsonString, some file, none, some file, machine.syncing⟩)) := by
  obtain ⟨_, _, _, _, writeConfig, strip, writeStripped, syncconf, writeDevice⟩ := turn
  cases writeConfig with
  | some detail => exact Or.inl ⟨rfl, rfl, _, rfl⟩
  | none =>
    refine Or.inr ?_
    cases strip with
    | some detail => exact Or.inl ⟨rfl, ⟨rfl, rfl, Or.inl rfl, rfl⟩, _, rfl⟩
    | none =>
      cases writeStripped with
      | some detail => exact Or.inl ⟨rfl, ⟨rfl, rfl, Or.inl rfl, rfl⟩, _, rfl⟩
      | none =>
        cases syncconf with
        | some detail => exact Or.inl ⟨rfl, ⟨rfl, rfl, Or.inl rfl, rfl⟩, _, rfl⟩
        | none =>
          cases writeDevice with
          | some detail => exact Or.inl ⟨rfl, ⟨rfl, rfl, Or.inr rfl, rfl⟩, _, rfl⟩
          | none => exact Or.inr ⟨rfl, rfl, rfl⟩

end

end Sync
