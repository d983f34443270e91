import Anago.SyncRun
import Anago.HubAnswers

/-!
# Runs that fail halfway

A run compares the hub's answer with the device file alone, while the same values are in
three places. What is true of all three after any history is that they agree, unless a
run has written a new config and stopped before it had written the device file.
-/

open StdText DecimalText Json Proto WgConf

namespace Sync

section
variable [Unicode] {ι : Type}

omit [Unicode] in
theorem okOr_eq_ok {ε α : Type} {found : Option α} {refusal : ε} {a : α}
    (h : okOr found refusal = .ok a) : found = some a := by
  cases found with
  | none => cases h
  | some b => exact congrArg some (Except.ok.inj h)

omit [Unicode] in
theorem fileText_eq_ok {failure file : Option String} {text : String}
    (h : fileText failure file = .ok text) : file = some text := by
  cases failure with
  | some detail => cases h
  | none => exact okOr_eq_ok h

omit [Unicode] in
/-- The key that is read out of a config. -/
def keyIn (text : String) : Option String :=
  (privateKeyLine text).bind fun found => (parseKey found).toOption

omit [Unicode] in
theorem keyIn_clientConfig {profile : ClientProfile} (secret : IsKey profile.privateKey.text) :
    keyIn (clientConfig profile).expose = some profile.privateKey.text := by
  rw [keyIn, privateKeyLine_clientConfig secret, Option.bind_some, secret.parse]
  rfl

/-- The key that a new config is built around is the one in the old config. -/
theorem rebuild_eq_ok {places : Places} {turn : Turn} {config config' : DeviceConfig}
    {reported : Option Reported} {machine : Machine ι} {text key : String}
    {profile' : ClientProfile} (file : machine.config = some text) (found : keyIn text = some key)
    (h : rebuild places turn config reported machine = .ok (config', profile')) :
    config' = updated config reported ∧ profileOf config' ⟨key⟩ = .ok profile' := by
  rw [rebuild, file] at h
  obtain ⟨existing, hread, h⟩ := Outcome.bind_eq_ok h
  obtain ⟨key', hkey, h⟩ := Outcome.bind_eq_ok h
  obtain ⟨built, hbuilt, h⟩ := Outcome.bind_eq_ok h
  cases h
  have text := fileText_eq_ok (Outcome.mapError_eq_ok (Outcome.ofExcept_eq_ok.mp hread))
  cases text
  have hkey := okOr_eq_ok (Outcome.ofExcept_eq_ok.mp hkey)
  cases hkey.symm.trans found
  exact ⟨rfl, Outcome.ofExcept_eq_ok.mp hbuilt⟩

/-- A verdict, where it comes from. -/
theorem judge_eq_ok {config : DeviceConfig} {own : Local} {reply : Reply} {verdict : Verdict}
    {reported : Option Reported} (h : judge config own reply = .ok (verdict, reported)) :
    (∃ detachment, verdict = .detached detachment) ∨
      ∃ response roster, askHub config reply = .ok response ∧ reportedOf response = .ok reported ∧
        rosterOf response = .ok roster ∧ verdict = Sync.decide own reported roster := by
  rw [judge] at h
  split at h
  · next response hask =>
    obtain ⟨reported', hreported, h⟩ := Outcome.bind_eq_ok h
    obtain ⟨roster, hroster, h⟩ := Outcome.bind_eq_ok h
    cases h
    exact Or.inr ⟨response, roster, hask, Outcome.ofExcept_eq_ok.mp hreported,
      Outcome.ofExcept_eq_ok.mp hroster, rfl⟩
  · cases h
    exact Or.inl ⟨_, rfl⟩
  · cases h
  · cases h
  · cases h

/-- A plan, where it comes from. -/
theorem plan_eq_ok {places : Places} {turn : Turn} {machine : Machine ι} {verdict : Verdict}
    {new : Option (DeviceConfig × ClientProfile)}
    (h : plan places turn machine = .ok (verdict, new)) :
    ∃ config own reported, readDevice places turn machine = .ok config ∧
      localOf config = .ok own ∧ judge config own turn.reply = .ok (verdict, reported) ∧
        match verdict with
        | .rewrite _ =>
          ∃ built, new = some built ∧ rebuild places turn config reported machine = .ok built
        | _ => new = none := by
  rw [plan] at h
  obtain ⟨config, hread, h⟩ := Outcome.bind_eq_ok h
  obtain ⟨own, hown, h⟩ := Outcome.bind_eq_ok h
  obtain ⟨_, _, h⟩ := Outcome.bind_eq_ok h
  obtain ⟨⟨found, reported⟩, hjudge, h⟩ := Outcome.bind_eq_ok h
  have hown := Outcome.ofExcept_eq_ok.mp hown
  cases found with
  | rewrite changes =>
    obtain ⟨built, hbuilt, h⟩ := Outcome.bind_eq_ok h
    cases h
    exact ⟨config, own, reported, hread, hown, hjudge, built, rfl, hbuilt⟩
  | unchanged =>
    cases h
    exact ⟨config, own, reported, hread, hown, hjudge, rfl⟩
  | unverifiable =>
    cases h
    exact ⟨config, own, reported, hread, hown, hjudge, rfl⟩
  | detached detachment =>
    cases h
    exact ⟨config, own, reported, hread, hown, hjudge, rfl⟩

theorem localOf_eq_ok {config : DeviceConfig} {own : Local} (h : localOf config = .ok own) :
    Ipv4Addr.parse config.address = some own.address ∧ Subnet.parse config.subnet = .ok own.subnet ∧
      own.serverPublicKey = config.serverPublicKey ∧ own.serverEndpoint = config.serverEndpoint ∧
        Ipv4Addr.parse config.serverAddress = some own.serverAddress := by
  rw [localOf] at h
  obtain ⟨name, _, h⟩ := except_bind_eq_ok h
  obtain ⟨address, haddress, h⟩ := except_bind_eq_ok h
  obtain ⟨subnet, hsubnet, h⟩ := except_bind_eq_ok h
  obtain ⟨serverAddress, hserver, h⟩ := except_bind_eq_ok h
  cases h
  exact ⟨okOr_eq_ok haddress, Outcome.mapError_eq_ok hsubnet, rfl, rfl, okOr_eq_ok hserver⟩

theorem profileOf_eq_ok {config : DeviceConfig} {privateKey : PrivateKey} {profile : ClientProfile}
    (h : profileOf config privateKey = .ok profile) : ∃ own, localOf config = .ok own ∧
      profile = ⟨own.address, own.subnet, privateKey, config.serverPublicKey,
        config.serverEndpoint⟩ := by
  rw [profileOf] at h
  obtain ⟨own, hown, h⟩ := except_bind_eq_ok h
  cases h
  exact ⟨own, hown, rfl⟩

/-- For values in the form the checks give them, join and sync agree on the profile. -/
theorem profile_of_localOf {config : DeviceConfig} {own : Local} (hown : localOf config = .ok own)
    (key : IsKey config.serverPublicKey) (endpoint : IsEndpoint config.serverEndpoint)
    (privateKey : PrivateKey) :
    let profile : ClientProfile :=
      ⟨own.address, own.subnet, privateKey, config.serverPublicKey, config.serverEndpoint⟩
    config.profile privateKey = .ok profile ∧ profileOf config privateKey = .ok profile := by
  obtain ⟨address, subnet, _⟩ := localOf_eq_ok hown
  constructor
  · rw [DeviceConfig.profile, address, subnet, key.parse, endpoint.checked]
    rfl
  · rw [profileOf, hown]
    rfl

/-- Where the device is after a join: the answer that was accepted, and the interface up. -/
def joined (config : DeviceConfig) (profile : ClientProfile) : Machine Unit where
  device := some config.toJsonString
  config := some (clientConfig profile).expose
  stripped := none
  interface := some (clientConfig profile).expose
  syncing := none

/-- Whether the device file lags behind the config after a turn: a new key or endpoint has
been written into the config, and no run has finished since. -/
def owes (places : Places) (turn : Turn) (machine : Machine ι) (owed : Bool) : Bool :=
  match plan places turn machine with
  | .ok (.rewrite changes, _) =>
    if turn.writeConfig.isSome then owed
    else if turn.tears then owed || changes.serverPublicKey || changes.serverEndpoint
    else false
  | _ => owed

/-- One run of a history, and whether it leaves the device file behind. -/
def sync (places : Places) (state : Machine Unit × Bool) (turn : Turn) : Machine Unit × Bool :=
  (((attempt places turn ()).exec state.1).2, owes places turn state.1 state.2)

/-- The hub says of itself what the device file says, and has the device on its roster. -/
def Confirms (places : Places) (turn : Turn) (machine : Machine ι) : Prop :=
  ∃ config own response known roster, readDevice places turn machine = .ok config ∧
    localOf config = .ok own ∧ askHub config turn.reply = .ok response ∧
      reportedOf response = .ok (some known) ∧ rosterOf response = .ok roster ∧
        Agrees own known ∧ Listed own roster

/-- The config file is the one of the device file, and the interface runs it. -/
def InStep (privateKey : PrivateKey) (machine : Machine ι) : Prop :=
  ∃ text config profile, machine.device = some text ∧ DeviceConfig.parse text = .ok config ∧
    profileOf config privateKey = .ok profile ∧
      machine.config = some (clientConfig profile).expose ∧
        machine.interface = some (clientConfig profile).expose

/-- What every run keeps. -/
structure Kept (privateKey : PrivateKey) (machine : Machine ι) (owed : Bool) : Prop where
  free : machine.syncing = none
  written : ∃ profile : ClientProfile, profile.privateKey = privateKey ∧
    machine.config = some (clientConfig profile).expose
  level : owed = false → ∀ text config, machine.device = some text →
    DeviceConfig.parse text = .ok config → ∃ profile, config.profile privateKey = .ok profile ∧
      machine.config = some (clientConfig profile).expose ∧
        machine.interface = some (clientConfig profile).expose

theorem readDevice_eq_ok {places : Places} {turn : Turn} {machine : Machine ι}
    {config : DeviceConfig} (h : readDevice places turn machine = .ok config) :
    ∃ text, machine.device = some text ∧ DeviceConfig.parse text = .ok config := by
  rw [readDevice] at h
  obtain ⟨text, htext, h⟩ := Outcome.bind_eq_ok h
  have there := fileText_eq_ok (Outcome.mapError_eq_ok (Outcome.ofExcept_eq_ok.mp htext))
  exact ⟨text, there, Outcome.mapErr_eq_ok h⟩

/-- What is written in the place of a config that had the values of the device file. -/
theorem profile_eq_of_same {config : DeviceConfig} {own : Local} {known : Reported}
    {privateKey : PrivateKey} {profile profile' : ClientProfile} (hown : localOf config = .ok own)
    (key : IsKey known.serverPublicKey) (endpoint : IsEndpoint known.serverEndpoint)
    (sameKey : (changesOf own known).serverPublicKey = false)
    (sameEndpoint : (changesOf own known).serverEndpoint = false)
    (old : config.profile privateKey = .ok profile)
    (new : profileOf (updated config (some known)) privateKey = .ok profile') :
    profile' = profile := by
  obtain ⟨address, subnet, hkey, hendpoint, _⟩ := localOf_eq_ok hown
  have sameKey : known.serverPublicKey = config.serverPublicKey := by
    rw [← hkey]
    simpa [changesOf] using sameKey
  have sameEndpoint : known.serverEndpoint = config.serverEndpoint := by
    rw [← hendpoint]
    simpa [changesOf] using sameEndpoint
  obtain ⟨own', hown', rfl⟩ := profileOf_eq_ok new
  obtain ⟨address', subnet', _⟩ := localOf_eq_ok hown'
  have same := (profile_of_localOf hown (sameKey ▸ key) (sameEndpoint ▸ endpoint) privateKey).1
  rw [old] at same
  rw [Except.ok.inj same, ← Option.some.inj (address'.symm.trans address),
    ← Except.ok.inj (subnet'.symm.trans subnet), ← sameKey, ← sameEndpoint]
  rfl

theorem plan_rewrites {text key : String} {places : Places} {turn : Turn} {machine : Machine ι}
    {verdict : Verdict} {config' : DeviceConfig} {profile' : ClientProfile}
    (file : machine.config = some text) (found : keyIn text = some key)
    (h : plan places turn machine = .ok (verdict, some (config', profile'))) :
    ∃ config own known, readDevice places turn machine = .ok config ∧ localOf config = .ok own ∧
      verdict = .rewrite (changesOf own known) ∧ IsKey known.serverPublicKey ∧
        IsEndpoint known.serverEndpoint ∧ config' = updated config (some known) ∧
          profileOf config' ⟨key⟩ = .ok profile' := by
  obtain ⟨config, own, reported, hread, hown, hjudge, hnew⟩ := plan_eq_ok h
  cases verdict with
  | unchanged => cases hnew
  | unverifiable => cases hnew
  | detached detachment => cases hnew
  | rewrite changes =>
    obtain ⟨built, hbuilt, hrebuild⟩ := hnew
    cases hbuilt
    rcases judge_eq_ok hjudge with ⟨_, hdetached⟩ | ⟨response, roster, _, hreported, _, hdecide⟩
    · cases hdetached
    · obtain ⟨known, rfl, _, rfl⟩ := known_of_rewrite hdecide.symm
      obtain ⟨key, endpoint⟩ := parsed_of_reported hreported
      obtain ⟨hconfig, hprofile⟩ := rebuild_eq_ok file found hrebuild
      exact ⟨config, own, known, hread, hown, rfl, key, endpoint, hconfig, hprofile⟩

theorem Kept.sync {privateKey : PrivateKey} (secret : IsKey privateKey.text) {places : Places}
    {state : Machine Unit × Bool} (kept : Kept privateKey state.1 state.2) (turn : Turn) :
    Kept privateKey (sync places state turn).1 (sync places state turn).2 := by
  obtain ⟨machine, owed⟩ := state
  obtain ⟨profile, hkey, hfile⟩ := kept.written
  rw [Sync.sync, exec_attempt places turn () kept.free, owes]
  cases hplan : plan places turn machine with
  | err e => exact kept
  | panic => exact kept
  | spin => exact kept
  | ok planned =>
    obtain ⟨verdict, new⟩ := planned
    cases new with
    | none => 
      obtain ⟨_, _, _, _, _, _, hnew⟩ := plan_eq_ok hplan
      cases verdict with
      | unchanged => exact kept
      | unverifiable => exact kept
      | detached detachment => exact kept
      | rewrite changes =>
        obtain ⟨_, hbuilt, _⟩ := hnew
        cases hbuilt
    | some new =>
      obtain ⟨config', profile'⟩ := new
      obtain ⟨config, own, known, hread, hown, rfl, key, endpoint, rfl, hbuilt⟩ :=
        plan_rewrites hfile (keyIn_clientConfig (hkey ▸ secret)) hplan
      have hprofile : profileOf (updated config (some known)) privateKey = .ok profile' := by
        rw [← hkey]
        exact hbuilt
      obtain ⟨own', hown', hprofile'⟩ := profileOf_eq_ok hprofile
      have mine : profile'.privateKey = privateKey := by rw [hprofile']
      rcases exec_install places turn (updated config (some known)) profile'
        { machine with syncing := some () } with ⟨failed, same, e, hexec⟩ | ⟨torn,
          halfway, e, hexec⟩ |
          ⟨written, whole, hexec⟩
      · have again : ({ machine with syncing := none } : Machine Unit) = machine := by
          rw [← kept.free]
        simp only [failed, same, if_true, again]
        exact kept
      · have tears := torn
        rw [Turn.tears, Bool.and_eq_true, Option.isNone_iff_eq_none] at tears
        simp only [tears.1, torn, if_true]
        refine ⟨rfl, ⟨profile', mine, halfway.config⟩, fun level text read hdevice hparse => ?_⟩
        simp only [Option.isSome_none, Bool.false_eq_true, if_false, Bool.or_eq_false_iff] at level
        obtain ⟨⟨level, sameKey⟩, sameEndpoint⟩ := level
        obtain ⟨text', hdevice', hparse'⟩ := readDevice_eq_ok hread
        have htext := hdevice'.symm.trans (halfway.device.symm.trans hdevice)
        cases htext
        cases hparse'.symm.trans hparse
        obtain ⟨old, hold, hfile, hinterface⟩ := kept.level level text config hdevice' hparse'
        cases profile_eq_of_same hown key endpoint sameKey sameEndpoint hold hprofile
        refine ⟨profile', hold, halfway.config, ?_⟩
        rcases halfway.interface with same | same
        · exact same.trans hinterface
        · exact same
      · simp only [written, whole, hexec, Bool.false_eq_true, if_false]
        refine ⟨rfl, ⟨profile', mine, rfl⟩, fun _ text read hdevice hparse => ?_⟩
        cases hdevice
        cases DeviceConfig.eq_of_parse hparse
        rw [hprofile']
        exact ⟨_, (profile_of_localOf hown' key endpoint privateKey).1, rfl, rfl⟩

theorem kept_joined {body domain : String} {apiPort : UInt16} {privateKey : PrivateKey}
    {config : DeviceConfig} {profile : ClientProfile}
    (joins : Join.accepted body domain apiPort privateKey = .ok (config, profile)) :
    Kept privateKey (joined config profile) false := by
  have hprofile := profile_of_accepted joins
  refine ⟨rfl, ⟨profile, (parsed_of_profile hprofile).1, rfl⟩, fun _ text read hdevice hparse => ?_⟩
  cases hdevice
  cases DeviceConfig.eq_of_parse hparse
  exact ⟨profile, hprofile, rfl, rfl⟩

/-- A run that finds nothing to do has changed nothing, and the hub confirmed the device file. -/
theorem confirms_of_unchanged {places : Places} {turn : Turn} {machine : Machine ι} {i : ι}
    (free : machine.syncing = none)
    (h : ((attempt places turn i).exec machine).1 = .ok .unchanged) :
    Confirms places turn machine ∧ ((attempt places turn i).exec machine).2 = machine := by
  rw [exec_attempt places turn i free] at h ⊢
  cases hplan : plan places turn machine with
  | err e =>
    rw [hplan] at h
    cases h
  | panic =>
    rw [hplan] at h
    cases h
  | spin =>
    rw [hplan] at h
    cases h
  | ok planned =>
    obtain ⟨verdict, new⟩ := planned
    obtain ⟨config, own, reported, hread, hown, hjudge, hnew⟩ := plan_eq_ok hplan
    have unchanged : verdict = .unchanged := by
      rw [hplan] at h
      cases new with
      | none => exact Outcome.ok.inj h
      | some new =>
        obtain ⟨_, _, h⟩ := Outcome.bind_eq_ok h
        exact Outcome.ok.inj h
    subst unchanged
    cases hnew
    refine ⟨?_, rfl⟩
    rcases judge_eq_ok hjudge with ⟨_, hdetached⟩ | ⟨response, roster, hask,
      hreported, hroster, hdecide⟩
    · cases hdetached
    · obtain ⟨known, rfl, agrees, listed⟩ := known_of_unchanged hdecide.symm
      exact ⟨config, own, response, known, roster, hread, hown, hask, hreported,
        hroster, agrees, listed⟩

/-- What `in sync` means where the device file does not lag behind. -/
theorem Kept.inStep {privateKey : PrivateKey} {places : Places} {turn : Turn} {machine : Machine ι}
    (kept : Kept privateKey machine false) (confirms : Confirms places turn machine) :
    InStep privateKey machine := by
  obtain ⟨config, own, response, known, roster, hread, hown, _, hreported, _, agrees, _⟩ := confirms
  obtain ⟨text, hdevice, hparse⟩ := readDevice_eq_ok hread
  obtain ⟨profile, hprofile, hfile, hinterface⟩ := kept.level rfl text config hdevice hparse
  obtain ⟨key, endpoint⟩ := parsed_of_reported hreported
  obtain ⟨_, _, ownKey, ownEndpoint, _⟩ := localOf_eq_ok hown
  rw [agrees.2.1, ownKey] at key
  rw [agrees.2.2.1, ownEndpoint] at endpoint
  obtain ⟨joined, synced⟩ := profile_of_localOf hown key endpoint privateKey
  cases hprofile.symm.trans joined
  exact ⟨text, config, _, hdevice, hparse, synced, hfile, hinterface⟩

/-- A device that reports `in sync` is in sync, provided that the hub does not go back to what
the device file says while that file lags behind the config. -/
theorem in_sync_in_step {places : Places} {body domain : String} {apiPort : UInt16}
    {privateKey : PrivateKey} (secret : IsKey privateKey.text) {config : DeviceConfig}
    {profile : ClientProfile}
    (joins : Join.accepted body domain apiPort privateKey = .ok (config, profile))
    {turns : List Turn} (onward : Runs.Along (sync places)
      (fun state turn => state.2 = true → ¬Confirms places turn state.1)
      (joined config profile, false) turns)
    {before after : List Turn} {turn : Turn} (split : turns = before ++ turn :: after) :
    let machine := (Runs.run (sync places) (joined config profile, false) before).1
    ((attempt places turn ()).exec machine).1 = .ok .unchanged →
      InStep privateKey machine ∧ ((attempt places turn ()).exec machine).2 = machine := by
  intro machine unchanged
  have kept := @Runs.run_keeps _ _ (sync places) (fun state => Kept privateKey state.1 state.2)
    (fun _ turn kept => kept.sync secret turn) (joined config profile, false)
      (kept_joined joins) before
  obtain ⟨confirms, same⟩ := confirms_of_unchanged kept.free unchanged
  subst split
  have level : (Runs.run (sync places) (joined config profile, false) before).2 = false :=
    Bool.eq_false_iff.mpr fun owed => onward.suits owed confirms
  rw [level] at kept
  exact ⟨kept.inStep confirms, same⟩

theorem askHub_written {config : DeviceConfig} {token : DeviceToken}
    (htoken : DeviceToken.parse config.token = .ok token) (response : PeersResponse) :
    askHub config (.success (Json.toString response.toJson)) = .ok response := by
  obtain ⟨parsed, read⟩ := response.read_written
  simp only [askHub, htoken, heard, parsed, Outcome.mapErr, Outcome.ok_bind, read, Except.mapError,
    Outcome.ofExcept]

theorem judge_of {config : DeviceConfig} {own : Local} {reply : Reply} {response : PeersResponse}
    {reported : Option Reported} {roster : List Member} (hask : askHub config reply = .ok response)
    (hreported : reportedOf response = .ok reported) (hroster : rosterOf response = .ok roster) :
    judge config own reply = .ok (Sync.decide own reported roster, reported) := by
  simp only [judge, hask, hreported, hroster, Outcome.ofExcept, Outcome.ok_bind]

theorem readDevice_written {places : Places} {turn : Turn} {machine : Machine ι}
    {config : DeviceConfig} (home : turn.home = none) (port : config.apiPort ≠ 0)
    (device : machine.device = some config.toJsonString) :
    readDevice places turn machine = .ok config := by
  rw [readDevice, home, device]
  simp only [fileText, okOr, Except.mapError, Outcome.ofExcept, Outcome.ok_bind,
    DeviceConfig.parse_toJsonString port, Outcome.mapErr]

theorem rebuild_of {places : Places} {turn : Turn} {config : DeviceConfig}
    {reported : Option Reported} {machine : Machine ι} {profile profile' : ClientProfile}
    (readConfig : turn.readConfig = none)
    (file : machine.config = some (clientConfig profile).expose)
    (secret : IsKey profile.privateKey.text)
    (built : profileOf (updated config reported) profile.privateKey = .ok profile') :
    rebuild places turn config reported machine = .ok (updated config reported, profile') := by
  rw [rebuild, readConfig, file]
  simp only [fileText, okOr, Except.mapError, Outcome.ofExcept, Outcome.ok_bind,
    privateKeyLine_clientConfig secret, Option.bind_some, secret.parse, Except.toOption, built]

/-- A plan that rewrites nothing. -/
theorem plan_quiet {places : Places} {turn : Turn} {machine : Machine ι} {config : DeviceConfig}
    {own : Local} {verdict : Verdict} {reported : Option Reported}
    (hread : readDevice places turn machine = .ok config) (hown : localOf config = .ok own)
    (lock : turn.lock = none) (hjudge : judge config own turn.reply = .ok (verdict, reported))
    (quiet : ∀ changes, verdict ≠ .rewrite changes) :
    plan places turn machine = .ok (verdict, none) := by
  simp only [plan, hread, hown, lock, hjudge, Outcome.ofExcept, Outcome.ok_bind, Option.elim_none]

theorem plan_rewrite {places : Places} {turn : Turn} {machine : Machine ι} {config : DeviceConfig}
    {own : Local} {changes : Changes} {reported : Option Reported}
    {built : DeviceConfig × ClientProfile} (hread : readDevice places turn machine = .ok config)
    (hown : localOf config = .ok own) (lock : turn.lock = none)
    (hjudge : judge config own turn.reply = .ok (.rewrite changes, reported))
    (hrebuild : rebuild places turn config reported machine = .ok built) :
    plan places turn machine = .ok (.rewrite changes, some built) := by
  simp only [plan, hread, hown, lock, hjudge, hrebuild, Outcome.ofExcept, Outcome.ok_bind,
    Option.elim_none]

end

/-- Where the hub of the sample answer is reached: as it was, or moved. -/
def sampleEndpoint (moved : Bool) : String :=
  if moved then "hub.example:51821" else "hub.example:51820"

def sampleRoster (moved : Bool) : PeersResponse where
  peers := [⟨"macbook", sampleKey, "10.44.0.2"⟩]
  hub := some ⟨"10.44.0.0/24", sampleKey, sampleEndpoint moved, "10.44.0.1"⟩

/-- A turn on which that hub answers. -/
def sampleTurn (moved : Bool) (syncconf : Option String) : Turn where
  reply := .success (Json.toString (sampleRoster moved).toJson)
  home := none
  lock := none
  readConfig := none
  writeConfig := none
  strip := none
  writeStripped := none
  syncconf := syncconf
  writeDevice := none

def sampleConfig : DeviceConfig := DeviceConfig.fromResponse "hub.example" 443 sampleAnswer

def sampleProfile (moved : Bool) : ClientProfile :=
  ⟨⟨10, 44, 0, 2⟩, ⟨⟨10, 44, 0, 0⟩, rfl⟩, ⟨sampleKey⟩, sampleKey, sampleEndpoint moved⟩

/-- What the sample device believes. -/
def sampleOwn : @Local asciiTables :=
  letI := asciiTables
  { name := ⟨"macbook", by decide +kernel, by decide +kernel, by decide +kernel⟩
    address := ⟨10, 44, 0, 2⟩
    subnet := ⟨⟨10, 44, 0, 0⟩, rfl⟩
    serverPublicKey := sampleKey
    serverEndpoint := sampleEndpoint false
    serverAddress := ⟨10, 44, 0, 1⟩ }

def sampleReported (moved : Bool) : Reported where
  subnet := ⟨⟨10, 44, 0, 0⟩, rfl⟩
  serverPublicKey := sampleKey
  serverEndpoint := sampleEndpoint moved
  serverAddress := ⟨10, 44, 0, 1⟩

theorem accepted_sample :
    letI := asciiTables
    Join.accepted (Json.toString sampleAnswer.toJson) "hub.example" 443 ⟨sampleKey⟩ =
      .ok (sampleConfig, sampleProfile false) := by
  let := asciiTables
  exact accepted_answer (by decide +kernel) (by decide +kernel)

/-- The verdict of the sample device on an answer of its hub. -/
theorem judge_sample (moved : Bool) (syncconf : Option String) :
    letI := asciiTables
    judge sampleConfig sampleOwn (sampleTurn moved syncconf).reply =
      .ok (if moved then .rewrite ⟨false, true, false⟩ else .unchanged,
        some (sampleReported moved)) := by
  have verdict : letI := asciiTables
      Sync.decide sampleOwn (some (sampleReported moved)) [⟨sampleOwn.name, ⟨10, 44, 0, 2⟩⟩] =
        if moved then .rewrite ⟨false, true, false⟩ else .unchanged := by
    cases moved <;> decide +kernel
  have roster : letI := asciiTables
      rosterOf (sampleRoster moved) = .ok [⟨sampleOwn.name, ⟨10, 44, 0, 2⟩⟩] := by
    cases moved <;> decide +kernel
  let := asciiTables
  have token : DeviceToken.parse sampleConfig.token = .ok (.sample 'a' rfl) := by decide +kernel
  have reported : reportedOf (sampleRoster moved) = .ok (some (sampleReported moved)) := by
    cases moved <;> decide +kernel
  rw [sampleTurn, judge_of (askHub_written token _) reported roster, verdict]

theorem plan_sample (moved : Bool) {ι : Type} (syncconf : Option String) {machine : Machine ι}
    {profile : ClientProfile} (device : machine.device = some sampleConfig.toJsonString)
    (file : machine.config = some (clientConfig profile).expose)
    (own : profile.privateKey = ⟨sampleKey⟩) (places : Places) :
    letI := asciiTables
    plan places (sampleTurn moved syncconf) machine =
      .ok (if moved then (.rewrite ⟨false, true, false⟩,
        some (updated sampleConfig (some (sampleReported true)), sampleProfile true))
        else (.unchanged, none)) := by
  have hown : @localOf asciiTables sampleConfig = .ok sampleOwn := by decide +kernel
  let := asciiTables
  have secret : IsKey profile.privateKey.text := by
    rw [own]
    exact ⟨sampleKey, by decide +kernel⟩
  have port : sampleConfig.apiPort ≠ 0 := by decide
  have hread := @readDevice_written _ _ places (sampleTurn moved syncconf) machine _ rfl port device
  have hjudge := judge_sample moved syncconf
  cases moved with
  | false => exact plan_quiet hread hown rfl hjudge fun _ h => by cases h
  | true =>
    have built : profileOf (updated sampleConfig (some (sampleReported true))) profile.privateKey =
        .ok (sampleProfile true) := by
      rw [own]
      decide +kernel
    have hrebuild := @rebuild_of _ _ places (sampleTurn true syncconf) _ _ machine _ _
      rfl file secret built
    exact plan_rewrite hread hown rfl hjudge hrebuild

/-- The sample device finds nothing to do where its hub has not moved. -/
theorem unchanged_sample {ι : Type} {machine : Machine ι} {profile : ClientProfile}
    (i : ι) (free : machine.syncing = none)
    (device : machine.device = some sampleConfig.toJsonString)
    (file : machine.config = some (clientConfig profile).expose)
    (own : profile.privateKey = ⟨sampleKey⟩) (places : Places) :
    letI := asciiTables
    ((attempt places (sampleTurn false none) i).exec machine).1 = .ok .unchanged := by
  let := asciiTables
  rw [exec_attempt places _ i free, plan_sample false none device file own places]
  rfl

/-- The hub has moved, and the interface cannot be given the new config. -/
theorem torn_sample {ι : Type} {machine : Machine ι} {profile : ClientProfile}
    (i : ι) (free : machine.syncing = none)
    (device : machine.device = some sampleConfig.toJsonString)
    (file : machine.config = some (clientConfig profile).expose)
    (own : profile.privateKey = ⟨sampleKey⟩) (places : Places) (detail : String) :
    letI := asciiTables
    ((attempt places (sampleTurn true (some detail)) i).exec machine).2 =
      ⟨machine.device, some (clientConfig (sampleProfile true)).expose, none,
        machine.interface, none⟩ := by
  let := asciiTables
  rw [exec_attempt places _ i free, plan_sample true _ device file own places]
  rfl

theorem in_sync_in_step_sample :
    letI := asciiTables
    InStep ⟨sampleKey⟩ (joined sampleConfig (sampleProfile false)) := by
  let := asciiTables
  have secret : IsKey sampleKey := ⟨sampleKey, by decide +kernel⟩
  let places : Places := ⟨"device.json", "sync.lock", "anago.conf", "anago.conf.stripped"⟩
  have onward : Runs.Along (sync places)
      (fun state turn => state.2 = true → ¬Confirms places turn state.1)
      (joined sampleConfig (sampleProfile false), false) [sampleTurn false none] :=
    ⟨fun owed => (by cases owed), trivial⟩
  have split : [sampleTurn false none] = [] ++ sampleTurn false none :: [] := rfl
  have inStep := in_sync_in_step secret accepted_sample onward split
  simp only [Runs.run_nil] at inStep
  exact (inStep (unchanged_sample () rfl rfl rfl rfl places)).1

/-- The hub moves, the interface cannot be given the new config, and the hub moves back. -/
theorem in_sync_out_of_step :
    letI := asciiTables
    ¬∀ (places : Places) (body domain : String) (apiPort : UInt16) (privateKey : PrivateKey)
        (config : DeviceConfig) (profile : ClientProfile), IsKey privateKey.text →
      Join.accepted body domain apiPort privateKey = .ok (config, profile) →
        ∀ (before : List Turn) (turn : Turn),
          let machine := (Runs.run (sync places) (joined config profile, false) before).1
          ((attempt places turn ()).exec machine).1 = .ok .unchanged →
            InStep privateKey machine := by
  have differ : (clientConfig (sampleProfile false)).expose ≠
      (clientConfig (sampleProfile true)).expose := by
    decide +kernel
  let := asciiTables
  intro claim
  have secret : IsKey sampleKey := ⟨sampleKey, by decide +kernel⟩
  let places : Places := ⟨"device.json", "sync.lock", "anago.conf", "anago.conf.stripped"⟩
  have torn := @torn_sample _ (joined sampleConfig (sampleProfile false)) (sampleProfile false)
    () rfl rfl rfl rfl
    places "Unable to modify interface"
  have inStep := claim places _ _ _ _ _ _ secret accepted_sample
    [sampleTurn true (some "Unable to modify interface")] (sampleTurn false none)
  simp only [Runs.run_cons, Runs.run_nil, Sync.sync, torn] at inStep
  obtain ⟨_, _, profile, _, _, _, hfile, hinterface⟩ :=
    inStep (@unchanged_sample _ _ (sampleProfile true) () rfl rfl rfl rfl places)
  exact differ (Option.some.inj (hinterface.trans hfile.symm))

end Sync
