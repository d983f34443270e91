import Anago.SyncHistory

/-!
# A device keeps its key

The config that a sync rewrites has the only copy of the device's private key. After every
step of every run, also of one that fails or is stopped, the key is read from the file.
-/

open StdText DecimalText Json Proto SectionText

namespace StdText

theorem length_trim_le (cs : List Char) : (trim cs).length ≤ cs.length := by
  have start : (trimStart cs).length ≤ cs.length := List.length_dropWhile_le _ _
  have stop : (trimEnd (trimStart cs)).length ≤ (trimStart cs).length := by
    rw [trimEnd, List.length_reverse]
    exact (List.length_dropWhile_le _ _).trans (List.length_reverse).le
  exact stop.trans start

end StdText

namespace WgConf

/-- What one line gives as the address. -/
def addressOf (line : List Char) : Option String :=
  match Subnet.splitOnce '=' (trim line) with
  | none => none
  | some (name, value) =>
    if eqIgnoreAsciiCase (trim name) "address".toList then some
      (String.ofList (trim value)) else none

/-- The values of the `Address` lines of a config. -/
def addressLines (config : String) : List String := (lines config.toList).filterMap addressOf

theorem addressOf_setting {key : List Char} (named : key.head?.any (!isWhitespace ·) = true)
    (noequals : '=' ∉ key) (value : List Char) :
    addressOf (Line.setting key value).text =
      if eqIgnoreAsciiCase (trim (key ++ [' '])) "address".toList then
        some (String.ofList (trim value))
      else none := by
  rw [addressOf, splitOnce_setting named noequals]
  simp only [trim_value]

theorem trim_address (address : Ipv4Addr) :
    trim (address.toString ++ "/24").toList = (address.toString ++ "/24").toList := by
  have solid : ∀ c ∈ (address.toString ++ "/24").toList, isWhitespace c = false := by
    intro c hc
    rw [String.toList_append, Ipv4Addr.toString, String.toList_ofList] at hc
    rcases List.mem_append.mp hc with hc | hc
    · rcases address.display_chars c hc with digit | rfl
      · exact isAlphanum_not_whitespace c (by simp [Char.isAlphanum, digit])
      · decide
    · have tail : c = '/' ∨ c = '2' ∨ c = '4' := by simpa using hc
      rcases tail with rfl | rfl | rfl <;> decide
  exact trim_of_ends (fun _ hc => solid _ (List.mem_of_head? hc))
    fun _ hc => solid _ (List.mem_of_getLast? hc)

theorem no_return_of_plain {cs : List Char} (h : Plain cs) : '\r' ∉ cs := by
  intro hc
  exact absurd (h _ hc).2 (by decide)

/-- The lines of a generated config are the renderer's. -/
theorem lines_clientConfig {profile : ClientProfile} (secret : IsKey profile.privateKey.text)
    (key : IsKey profile.serverPublicKey) (endpoint : IsEndpoint profile.serverEndpoint) :
    lines (clientConfig profile).expose.toList = (clientLines profile true).map Line.text := by
  have proper := clientLines_proper secret key endpoint true
  have noReturn : ∀ line ∈ clientLines profile true, '\r' ∉ line.text := by
    intro line hline
    cases line with
    | blank => decide
    | header name =>
      intro hc
      exact no_return_of_plain (proper _ hline) (by simpa [Line.text] using hc)
    | comment text =>
      have known : text = " anago — generated file, edits are overwritten".toList ∨
          text = " anago server".toList := by
        simpa [clientLines] using hline
      rcases known with rfl | rfl <;> decide
    | setting name value =>
      obtain ⟨⟨plain, _⟩, plain'⟩ := proper _ hline
      rw [Line.text, List.mem_append, List.mem_append]
      rintro ((hc | hc) | hc)
      · exact no_return_of_plain plain hc
      · revert hc
        decide
      · exact no_return_of_plain plain' hc
  have whole : ∀ line ∈ (clientLines profile true).map Line.text,
      '\n' ∉ line ∧ line.getLast? ≠ some '\r' :=
    List.forall_mem_map.mpr fun line hline =>
      ⟨(proper line hline).no_newline, fun last => noReturn line hline (List.mem_of_getLast? last)⟩
  rw [SecretText.expose, clientConfig, renderClient_lines, render,
    ← List.append_nil (unlines _), lines_unlines whole]
  exact List.append_nil _

/-- The key of a generated config is found in it just when it is one line without whitespace at
its ends. -/
theorem privateKeyLine_clientConfig_iff (profile : ClientProfile) :
    privateKeyLine (clientConfig profile).expose = some profile.privateKey.text ↔
      trim profile.privateKey.text.toList = profile.privateKey.text.toList ∧
        '\n' ∉ profile.privateKey.text.toList := by
  generalize hkey : profile.privateKey.text = key
  rw [privateKeyLine_rendered, hkey, Option.some.injEq, ← String.toList_inj, String.toList_ofList]
  constructor
  · intro same
    have shorter := (List.takeWhile_prefix (fun c => decide (c ≠ '\n')) (l := key.toList)).length_le
    have trimmed := length_trim_le (key.toList.takeWhile fun c => decide (c ≠ '\n'))
    have whole : key.toList.takeWhile (fun c => decide (c ≠ '\n')) = key.toList := by
      refine (List.takeWhile_prefix _).eq_of_length (le_antisymm shorter ?_)
      rwa [same] at trimmed
    rw [whole] at same
    refine ⟨same, fun newline => ?_⟩
    simpa using List.takeWhile_eq_self_iff.mp whole _ newline
  · rintro ⟨same, oneLine⟩
    have whole : key.toList.takeWhile (fun c => decide (c ≠ '\n')) = key.toList :=
      List.takeWhile_eq_self_iff.mpr fun c hc => decide_eq_true fun newline =>
        oneLine (newline ▸ hc)
    rw [whole, same]

/-- A generated config has one address line, with the device's own address. -/
theorem addressLines_clientConfig {profile : ClientProfile} (secret : IsKey profile.privateKey.text)
    (key : IsKey profile.serverPublicKey) (endpoint : IsEndpoint profile.serverEndpoint) :
    addressLines (clientConfig profile).expose = [profile.address.toString ++ "/24"] := by
  have header : addressOf (Line.header "Interface".toList).text = none := by decide
  have comment :
      addressOf (Line.comment " anago — generated file, edits are overwritten".toList).text =
    none := by decide
  have blank : addressOf Line.blank.text = none := by decide
  have peer : addressOf (Line.header "Peer".toList).text = none := by decide
  have server : addressOf (Line.comment " anago server".toList).text = none := by decide
  have other : ∀ name ∈ ["PrivateKey", "PublicKey", "Endpoint", "AllowedIPs",
      "PersistentKeepalive"], ∀ value, addressOf (Line.setting name.toList value).text = none := by
    simp only [List.forall_mem_cons, List.not_mem_nil, false_imp_iff, implies_true, and_true]
    refine ⟨?_, ?_, ?_, ?_, ?_⟩ <;> intro value <;>
      rw [addressOf_setting (by decide) (by decide), if_neg (by decide)]
  have own :
      addressOf (Line.setting "Address".toList (profile.address.toString ++ "/24").toList).text =
      some (profile.address.toString ++ "/24") := by
    rw [addressOf_setting (by decide) (by decide), if_pos (by decide), trim_address,
      String.ofList_toList]
  simp only [List.forall_mem_cons, List.not_mem_nil, false_imp_iff, implies_true, and_true] at other
  obtain ⟨secretLine, keyLine, endpointLine, allowed, keepalive⟩ := other
  rw [addressLines, lines_clientConfig secret key endpoint]
  simp only [clientLines, if_true, List.map_cons, List.map_nil, List.cons_append,
    List.nil_append, List.filterMap_cons, List.filterMap_nil, header, comment, blank, peer, server,
    secretLine, keyLine, endpointLine, allowed, keepalive, own]

end WgConf

namespace Sync

open WgConf

/-- A file of anago's own making, around the key and the address of the device. -/
def Rendered (key : String) (address : Ipv4Addr) (file : String) : Prop :=
  ∃ profile : ClientProfile, file = (clientConfig profile).expose ∧ profile.privateKey.text = key ∧
    profile.address = address ∧ IsKey profile.serverPublicKey ∧ IsEndpoint profile.serverEndpoint

/-- What every step of a run keeps: the config is as the run found it, or anago's own, and the
device file is about the same address. -/
structure Guarded [Unicode] {ι : Type} (key : String) (address : Ipv4Addr) (text : String)
    (machine : Machine ι) : Prop where
  config : ∃ file, machine.config = some file ∧ (file = text ∨ Rendered key address file)
  device : ∀ device config own, machine.device = some device →
    DeviceConfig.parse device = .ok config → localOf config = .ok own → own.address = address

theorem isKey_of_keyIn {text key : String} (h : keyIn text = some key) : IsKey key := by
  rw [keyIn] at h
  obtain ⟨found, _, h⟩ := Option.bind_eq_some_iff.mp h
  cases hparse : parseKey found with
  | error e =>
    rw [hparse] at h
    cases h
  | ok key' =>
    rw [hparse] at h
    cases h
    exact ⟨found, hparse⟩

theorem Rendered.keyIn {key file : String} {address : Ipv4Addr} (secret : IsKey key)
    (h : Rendered key address file) : keyIn file = some key := by
  obtain ⟨profile, rfl, rfl, _⟩ := h
  exact keyIn_clientConfig secret

theorem Rendered.addressLines {key file : String} {address : Ipv4Addr} (secret : IsKey key)
    (h : Rendered key address file) : addressLines file = [address.toString ++ "/24"] := by
  obtain ⟨profile, rfl, rfl, rfl, serverKey, endpoint⟩ := h
  exact addressLines_clientConfig secret serverKey endpoint

section
variable [Unicode] {ι : Type} {key text : String} {address : Ipv4Addr}
  {places : Places} {turn : Turn}

theorem Guarded.frame {machine machine' : Machine ι} (h : Guarded key address text machine)
    (config : machine'.config = machine.config) (device : machine'.device = machine.device) :
    Guarded key address text machine' := by
  refine ⟨by rw [config]; exact h.config, fun file read own hfile => ?_⟩
  exact h.device file read own (device.symm.trans hfile)

theorem Guarded.file {machine : Machine ι} (found : keyIn text = some key)
    (h : Guarded key address text machine) :
    ∃ file, machine.config = some file ∧ Sync.keyIn file = some key := by
  obtain ⟨file, hfile, rfl | written⟩ := h.config
  · exact ⟨file, hfile, found⟩
  · exact ⟨file, hfile, written.keyIn (isKey_of_keyIn found)⟩

/-- What a run writes, where it writes something. -/
theorem Guarded.rebuilt {machine machine' : Machine ι} (found : keyIn text = some key)
    (h : Guarded key address text machine) {config : DeviceConfig} {own : Local} {changes : Changes}
    {reported : Option Reported} (hread : readDevice places turn machine = .ok config)
    (hown : localOf config = .ok own)
    (hjudge : judge config own turn.reply = .ok (.rewrite changes, reported))
    (same : machine'.config = machine.config) {config' : DeviceConfig} {profile : ClientProfile}
    (hrebuild : rebuild places turn config reported machine' = .ok (config', profile)) :
    Rendered key address (clientConfig profile).expose ∧
      ∀ read own', DeviceConfig.parse config'.toJsonString = .ok read → localOf read = .ok own' →
        own'.address = address := by
  obtain ⟨file, hfile, hkey⟩ := h.file found
  obtain ⟨device, hdevice, hparse⟩ := readDevice_eq_ok hread
  have mine := h.device device config own hdevice hparse hown
  rcases judge_eq_ok hjudge with ⟨_, hdetached⟩ | ⟨response, roster, _, hreported, _, hdecide⟩
  · cases hdetached
  · obtain ⟨known, rfl, _, _⟩ := known_of_rewrite hdecide.symm
    obtain ⟨serverKey, endpoint⟩ := parsed_of_reported hreported
    obtain ⟨rfl, hprofile⟩ := rebuild_eq_ok (same.trans hfile) hkey hrebuild
    obtain ⟨own', hown', rfl⟩ := profileOf_eq_ok hprofile
    have sameAddress : own'.address = own.address :=
      Option.some.inj ((localOf_eq_ok hown').1.symm.trans (localOf_eq_ok hown).1)
    refine ⟨⟨_, rfl, rfl, sameAddress.trans mine, serverKey, endpoint⟩,
      fun read own'' hread' hown'' => ?_⟩
    cases DeviceConfig.eq_of_parse hread'
    cases hown'.symm.trans hown''
    exact sameAddress.trans mine

theorem Guarded.install {machine : Machine ι} (h : Guarded key address text machine)
    {config : DeviceConfig} {profile : ClientProfile}
    (written : Rendered key address (clientConfig profile).expose)
    (device : ∀ read own, DeviceConfig.parse config.toJsonString = .ok read →
      localOf read = .ok own → own.address = address) :
    (install places turn config profile).Stays (Guarded key address text) machine := by
  have first := Program.Stays.alter (turn.writeConfig.map (SyncError.write places.wgConfig))
    (fun machine => { machine with config := some (clientConfig profile).expose }) h fun _ =>
      ⟨⟨_, rfl, Or.inr written⟩, h.device⟩
  refine first.bind fun _ _ => ?_
  refine Program.Stays.look_bind first.exec fun stripped _ => ?_
  have second := Program.Stays.alter (turn.writeStripped.map (SyncError.write places.strippedFile))
    (fun machine => { machine with stripped := some stripped }) first.exec fun _ =>
      first.exec.frame rfl rfl
  refine second.bind fun _ _ => ?_
  have third := (Program.Stays.alter (turn.syncconf.map SyncError.apply) syncconf second.exec
    fun _ => second.exec.frame rfl rfl).ensuring (fun machine => { machine with stripped := none })
      fun _ kept => kept.frame rfl rfl
  refine third.bind fun _ _ => ?_
  refine Program.Stays.alter _ _ third.exec fun _ =>
    ⟨third.exec.config, fun file read own hfile => ?_⟩
  cases hfile
  exact device read own

omit [Unicode] in
/-- The lock is not what the invariant is about. -/
theorem stays_withLock {Inv : Machine ι → Prop}
    (frame : ∀ machine syncing, Inv machine → Inv { machine with syncing := syncing })
    {machine : Machine ι} (h : Inv machine) {body : Program (Machine ι) SyncError Verdict} (i : ι)
    (inside : body.Stays Inv { machine with syncing := some i }) :
    (withLock places turn i body).Stays Inv machine := by
  refine ⟨h, ?_⟩
  cases turn.lock with
  | some detail =>
    simp only [reduceCtorEq, false_and, if_false]
    exact h
  | none =>
    cases free : machine.syncing with
    | none =>
      simp only [free, Option.isNone_none, and_self, if_true]
      exact inside.ensuring _ fun machine => frame machine none
    | some j =>
      simp only [free, Option.isNone_some, Bool.false_eq_true, and_false, if_false]
      exact h

/-- Every step of every run. -/
theorem Guarded.attempt {machine : Machine ι} (found : keyIn text = some key)
    (h : Guarded key address text machine) (i : ι) :
    (attempt places turn i).Stays (Guarded key address text) machine := by
  refine Program.Stays.look_bind h fun config hread => ?_
  cases hown : localOf config with
  | error e => exact h
  | ok own =>
    refine stays_withLock (fun _ _ kept => kept.frame rfl rfl) h i ?_
    have inside : Guarded key address text { machine with syncing := some i } := h.frame rfl rfl
    refine Program.Stays.look_bind inside fun ⟨verdict, reported⟩ hjudge => ?_
    have followed : (follow places turn config reported verdict).Stays (Guarded key address text)
        { machine with syncing := some i } := by
      cases verdict with
      | unchanged => exact inside
      | unverifiable => exact inside
      | detached detachment => exact inside
      | rewrite changes =>
        refine Program.Stays.look_bind inside fun ⟨config', profile⟩ hrebuild => ?_
        obtain ⟨written, device⟩ := h.rebuilt found hread hown hjudge rfl hrebuild
        exact inside.install written device
    exact followed.bind fun _ _ => followed.exec

end

/-- A run of a history, and after how many steps it is stopped, if it is. -/
structure Run where
  turn : Turn
  stopped : Option Nat

section
variable [Unicode]

/-- A run that gets as far as writing the config. -/
def writes (places : Places) (turn : Turn) (machine : Machine Unit) : Bool :=
  match plan places turn machine with
  | .ok (_, some _) => turn.writeConfig.isNone
  | _ => false

/-- What a run leaves, and whether the config has been written by then. The lock of a run that
is stopped goes with its process. -/
def live (places : Places) (state : Machine Unit × Bool) (run : Run) : Machine Unit × Bool :=
  let program := attempt places run.turn ()
  match run.stopped with
  | none => ((program.exec state.1).2, state.2 || writes places run.turn state.1)
  | some n =>
    let left := program.stopped n state.1
    ({ left with syncing := none }, state.2 || left.config ≠ state.1.config)

/-- What every run of a history keeps. -/
structure Keyed (key : String) (address : Ipv4Addr) (text : String) (state : Machine Unit × Bool) :
    Prop where
  free : state.1.syncing = none
  config : ∃ file, state.1.config = some file ∧
    (state.2 = false ∧ file = text ∨ Rendered key address file)
  device : ∀ device config own, state.1.device = some device →
    DeviceConfig.parse device = .ok config → localOf config = .ok own → own.address = address

theorem Keyed.guarded {key text : String} {address : Ipv4Addr} {state : Machine Unit × Bool}
    (found : keyIn text = some key) (h : Keyed key address text state) :
    ∃ file, state.1.config = some file ∧ Sync.keyIn file = some key ∧
      (state.2 = false ∧ file = text ∨ Rendered key address file) ∧
        Guarded key address file state.1 := by
  obtain ⟨file, hfile, from_⟩ := h.config
  have hkey : Sync.keyIn file = some key := by
    rcases from_ with ⟨_, rfl⟩ | written
    · exact found
    · exact written.keyIn (isKey_of_keyIn found)
  exact ⟨file, hfile, hkey, from_, ⟨file, hfile, Or.inl rfl⟩, h.device⟩

/-- A config that was written, by a run that may have failed after that. -/
theorem Guarded.written {key text : String} {address : Ipv4Addr} {places : Places} {turn : Turn}
    {machine : Machine Unit} (found : keyIn text = some key) (h : Guarded key address text machine)
    (free : machine.syncing = none) (hwrites : writes places turn machine = true) :
    ∃ file, ((Sync.attempt places turn ()).exec machine).2.config = some file ∧
      Rendered key address file := by
  rw [writes] at hwrites
  rw [exec_attempt places turn () free]
  split at hwrites
  · next verdict new hplan =>
    obtain ⟨config', profile⟩ := new
    obtain ⟨config, own, reported, hread, hown, hjudge, hnew⟩ := plan_eq_ok hplan
    cases verdict with
    | unchanged => cases hnew
    | unverifiable => cases hnew
    | detached detachment => cases hnew
    | rewrite changes =>
      obtain ⟨built, hbuilt, hrebuild⟩ := hnew
      cases hbuilt
      have rendered := (h.rebuilt found hread hown hjudge rfl hrebuild).1
      refine ⟨_, ?_, rendered⟩
      rw [hplan]
      rcases exec_install places turn config' profile { machine with syncing := some () } with
        ⟨failed, _⟩ | ⟨_, halfway, _⟩ | ⟨_, _, hexec⟩
      · rw [Option.isNone_iff_eq_none] at hwrites
        rw [hwrites] at failed
        cases failed
      · exact halfway.config
      · simp only [hexec]
  · cases hwrites

theorem Keyed.live {key text : String} {address : Ipv4Addr} {places : Places}
    {state : Machine Unit × Bool} (found : keyIn text = some key) (h : Keyed key address text state)
    (run : Run) : Keyed key address text (live places state run) := by
  obtain ⟨file, hfile, hkey, from_, guarded⟩ := h.guarded found
  have kept : (attempt places run.turn ()).Stays (Guarded key address file) state.1 :=
    guarded.attempt hkey ()
  rw [Sync.live]
  cases run.stopped with
  | none =>
    refine ⟨free_attempt places run.turn () h.free, ?_, kept.exec.device⟩
    by_cases hwrites : writes places run.turn state.1 = true
    · obtain ⟨file', hfile', written⟩ := guarded.written hkey h.free hwrites
      exact ⟨file', hfile', Or.inr written⟩
    · obtain ⟨file', hfile', rfl | written⟩ := kept.exec.config
      · refine ⟨file', hfile', from_.imp_left fun ⟨fresh, same⟩ => ⟨?_, same⟩⟩
        simpa [fresh] using hwrites
      · exact ⟨file', hfile', Or.inr written⟩
  | some n =>
    have left := kept.stopped n
    refine ⟨rfl, ?_, left.device⟩
    obtain ⟨file', hfile', rfl | written⟩ := left.config
    · refine ⟨file', hfile', from_.imp_left fun ⟨fresh, same⟩ => ⟨?_, same⟩⟩
      simp [fresh, hfile, hfile']
    · exact ⟨file', hfile', Or.inr written⟩

/-- After every step of every history, the key is read from the config, and a config that anago
has written has the device's own address. The renderer's own files give back their key, if it
is one that a line can hold. -/
theorem key_kept {text key : String} (found : keyIn text = some key) {device : String}
    {config : DeviceConfig} {own : Local} (hparse : DeviceConfig.parse device = .ok config)
    (hown : localOf config = .ok own) {machine : Machine Unit}
    (hconfig : machine.config = some text) (hdevice : machine.device = some device)
    (free : machine.syncing = none) (places : Places) (runs : List Run) :
    (let state := Runs.run (live places) (machine, false) runs
      ∀ turn n, ∃ file, ((attempt places turn ()).stopped n state.1).config = some file ∧
        keyIn file = some key ∧
          (state.2 = false ∧ file = text ∨ addressLines file = [own.address.toString ++ "/24"])) ∧
    ∀ profile : ClientProfile,
      privateKeyLine (clientConfig profile).expose = some profile.privateKey.text ↔
        trim profile.privateKey.text.toList = profile.privateKey.text.toList ∧
          '\n' ∉ profile.privateKey.text.toList := by
  refine ⟨?_, privateKeyLine_clientConfig_iff⟩
  intro state turn n
  have secret := isKey_of_keyIn found
  have start : Keyed key own.address text (machine, false) := by
    refine ⟨free, ⟨text, hconfig, Or.inl ⟨rfl, rfl⟩⟩, fun device' config' own' hd hp ho => ?_⟩
    cases hdevice.symm.trans hd
    cases hparse.symm.trans hp
    cases hown.symm.trans ho
    rfl
  have keyed : Keyed key own.address text state :=
    @Runs.run_keeps _ _ _ (Keyed key own.address text)
      (fun _ run h => h.live found run) _ start runs
  obtain ⟨file, hfile, hkey, from_, guarded⟩ := keyed.guarded found
  obtain ⟨file', hfile', rfl | written⟩ := ((guarded.attempt hkey ()).stopped n).config
  · exact ⟨file', hfile', hkey, from_.imp_right fun written => written.addressLines secret⟩
  · exact ⟨file', hfile', written.keyIn secret, Or.inr (written.addressLines secret)⟩

/-- A config as somebody left it. -/
def sampleText : String :=
  "[interface]\r\n  privatekey=" ++ sampleKey ++ "  \r\nDNS = 10.44.0.1\r\n"

omit [Unicode] in
theorem key_kept_sample :
    letI := asciiTables
    let places : Places := ⟨"device.json", "sync.lock", "anago.conf", "anago.conf.stripped"⟩
    let machine : Machine Unit :=
      ⟨some sampleConfig.toJsonString, some sampleText, none, none, none⟩
    ∃ file, ((attempt places (sampleTurn true none) ()).stopped 5 machine).config = some file ∧
      keyIn file = some sampleKey := by
  have found : keyIn sampleText = some sampleKey := by decide +kernel
  have hown : letI := asciiTables; localOf sampleConfig = .ok sampleOwn := by decide +kernel
  intro places machine
  let := asciiTables
  have hparse : DeviceConfig.parse sampleConfig.toJsonString = .ok sampleConfig :=
    DeviceConfig.parse_toJsonString (by decide)
  have kept := (@key_kept _ _ _ found _ _ _ hparse hown machine rfl rfl rfl places []).1
  obtain ⟨file, hfile, hkey, _⟩ := kept (sampleTurn true none) 5
  exact ⟨file, hfile, hkey⟩

omit [Unicode] in
theorem renderer_trims : ¬ ∀ profile : ClientProfile,
    privateKeyLine (clientConfig profile).expose = some profile.privateKey.text := by
  intro h
  have trimmed := (privateKeyLine_clientConfig_iff _).mp
    (h ⟨⟨10, 44, 0, 2⟩, ⟨⟨10, 44, 0, 0⟩, by decide⟩, ⟨" k"⟩, "", ""⟩)
  exact absurd trimmed.1 (by decide)

end

end Sync
