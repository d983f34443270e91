import Anago.Exchange
import Anago.Tunnels
import Anago.WgApply

/-!
# The list and the removal, from both ends

`anago ls` and `anago rm` work on the hub's state where it is, and through the API where it is
not. What they show and what they change is the same, but for what only the hub can know and
for the caller's mark.
-/

open StdText DecimalText Proto

/-- A peer line of `wg show dump`. -/
structure DumpPeer where
  publicKey : String
  lastHandshake : Option Int64
  deriving DecidableEq, Repr

/-- Reads `wg show dump`. Its first line is the interface; lines of another shape are left
out. -/
def parseDump (text : String) : List DumpPeer :=
  ((lines text.toList).drop 1).filterMap fun line =>
    let fields := line.splitOn '\t'
    let publicKey := fields.head?.getD []
    match (fields[4]?.map trim).bind parseI64 with
    | none => none
    | some handshake =>
      if publicKey = [] then none
      else some ⟨String.ofList publicKey, if 0 < handshake then some handshake else none⟩

/-- The way back when the hub no longer knows this device. -/
def rejoinSteps (wgConfig deviceFile : String) : String :=
  "`sudo wg-quick down " ++ wgConfig ++ "`, delete " ++ wgConfig ++ " and " ++ deviceFile ++
    ", then `anago join <domain> <code>` with a fresh code from `anago code`"

namespace Ls

inductive LastHandshake where
  /-- Nobody could be asked. -/
  | unknown
  | never
  | at' (seconds : Int64)
  deriving DecidableEq, Repr

structure PeerRow where
  name : String
  address : Ipv4Addr
  publicKey : String
  lastHandshake : LastHandshake
  deriving DecidableEq, Repr

inductive LsError where
  | deviceFile (detail : String)
  | client (e : Client.ClientError)
  | refused (detail : String)
  | badResponse (detail : String)
  deriving DecidableEq, Repr

variable [Unicode]

/-- Rows from the hub's own state. A peer that is not in the dump is unknown, not never seen. -/
def rowsFromState (state : ServerState) (dump : Option (List DumpPeer)) : List PeerRow :=
  state.peers.map fun peer => {
    name := peer.name.asStr
    address := peer.address
    publicKey := peer.publicKey
    lastHandshake :=
      match dump with
      | none => .unknown
      | some entries =>
        match entries.find? fun entry => entry.publicKey = peer.publicKey with
        | none => .unknown
        | some entry =>
          match entry.lastHandshake with
          | some seconds => .at' seconds
          | none => .never }

/-- A row of the API's answer, whose values are parsed here. -/
def rowOf (peer : PeerInfo) : Except LsError PeerRow := do
  let bad (what : String) : LsError := .badResponse ("peer " ++ debugStr peer.name ++ ": " ++ what)
  let name ← (DeviceName.parse peer.name).mapError fun e => bad e.display
  let address ← okOr (Ipv4Addr.parse peer.address)
    (bad (debugStr peer.address ++ " is not an address"))
  let publicKey ← (parseKey peer.publicKey).mapError fun e => bad e.display
  .ok ⟨name.asStr, address, publicKey, .unknown⟩

/-- Rows from the API's answer. -/
def rowsFromResponse (response : PeersResponse) : Except LsError (List PeerRow) :=
  response.peers.mapM rowOf

/-- What to tell the person when the hub refuses to list. -/
def explain (status : UInt16) (body deviceFile wgConfig : String) : String :=
  let failure := Client.describe status body
  let advice := match failure.code with
    | some .unauthorized =>
      " — this device's token is no longer accepted, which is what `anago rm` on the hub does. " ++
        "To use it again: " ++ rejoinSteps wgConfig deviceFile
    | _ => ""
  "the hub would not list devices: " ++ failure.message ++ advice

/-- Asks the hub for its list. `send` is the network. -/
def askHub (send : Client.Request → Except Client.ClientError Client.Response)
    (config : DeviceConfig) (deviceFile wgConfig : String) : Outcome LsError PeersResponse :=
  match DeviceToken.parse config.token with
  | .error e => .err (.deviceFile ("token: " ++ e.display))
  | .ok token =>
    match send ((Client.Call.peers token).request config.domain config.apiPort) with
    | .error e => .err (.client e)
    | .ok response =>
      if !response.isSuccess then .err
        (.refused (explain response.status response.body deviceFile wgConfig))
      else
        match Json.parse response.body with
        | .ok value =>
          .ofExcept ((PeersResponse.fromJson value).mapError fun e => .badResponse e.display)
        | .err e => .err (.badResponse e.display)
        | .panic => .panic
        | .spin => .spin

/-- `anago ls` on a device: the rows of its table. -/
def listRemotely (send : Client.Request → Except Client.ClientError Client.Response)
    (config : DeviceConfig) (deviceFile wgConfig : String) : Outcome LsError (List PeerRow) := do
  let response ← askHub send config deviceFile wgConfig
  Outcome.ofExcept (rowsFromResponse response)

end Ls

namespace Rm

variable [Unicode]

structure Removed where
  name : String
  address : String
  /-- Unknown on a device. -/
  interfaceUpdated : Option Bool
  wasSelf : Bool
  deriving DecidableEq, Repr

inductive RmError where
  | notFound (name : String)
  | state
  | deviceFile (detail : String)
  | client (e : Client.ClientError)
  | refused (detail : String)
  | badResponse (detail : String)
  deriving DecidableEq, Repr

/-- The luck of a removal on the hub: the lock and the write, then the lock again and the
apply. -/
structure Luck where
  locked : Bool
  written : Bool
  relocked : Bool
  applied : Bool

/-- The hub's own path: the state is edited, then the interface is made to match. -/
def removeLocally (name : DeviceName) (luck : Luck) (hub : Handlers.Hub) :
    Except RmError Removed × Handlers.Hub :=
  match Handlers.lock luck.locked hub.file with
  | none => (.error .state, hub)
  | some state =>
    match state.removePeer name with
    | (none, _) => (.error (.notFound name.asStr), hub)
    | (some peer, after) =>
      if !luck.written then (.error .state, hub)
      else
        let hub := { hub with file := after.toJsonString }
        let removed (updated : Bool) : Removed :=
          ⟨peer.name.asStr, peer.address.toString, some updated, false⟩
        match Handlers.lock luck.relocked hub.file with
        | none => (.ok (removed false), hub)
        | some state =>
          if luck.applied then (.ok (removed true),
            { hub with interface := some (WgConf.serverConfig state) })
          else (.ok (removed false), hub)

/-- Checks that the hub removed the device that was asked for. -/
def checkedPeer (peer : PeerInfo) (requested : DeviceName) : Except RmError (String × String) :=
  match DeviceName.parse peer.name with
  | .error e => .error (.badResponse ("the removed device's name: " ++ e.display))
  | .ok name =>
    if name ≠ requested then
      .error
        (.badResponse ("asked to remove " ++ requested.asStr ++
          ", but the hub says it removed " ++ name.asStr))
    else
      match Ipv4Addr.parse peer.address with
      | none => .error (.badResponse (debugStr peer.address ++ " is not an address"))
      | some _ =>
        match parseKey peer.publicKey with
        | .error e => .error (.badResponse ("the removed device's public key: " ++ e.display))
        | .ok _ => .ok (name.asStr, peer.address)

/-- What to tell the person when the hub refuses to remove. -/
def explain (status : UInt16) (body : String) (name : DeviceName)
    (deviceFile wgConfig : String) : String :=
  let failure := Client.describe status body
  let advice := match failure.code with
    | some .notFound =>
      " — no device called " ++ name.asStr ++ " is registered; `anago ls` shows what is"
    | some .unauthorized =>
      " — this device's token is no longer accepted, so it cannot remove anything. " ++
        "If it was removed from the hub: " ++ rejoinSteps wgConfig deviceFile
    | _ => ""
  "the hub would not remove " ++ name.asStr ++ ": " ++ failure.message ++ advice

/-- A device's path: the hub is asked. `send` is the network. -/
def removeRemotely (send : Client.Request → Except Client.ClientError Client.Response)
    (name : DeviceName) (config : DeviceConfig) (deviceFile wgConfig : String) :
    Outcome RmError Removed :=
  match DeviceToken.parse config.token with
  | .error e => .err (.deviceFile ("token: " ++ e.display))
  | .ok token =>
    match send ((Client.Call.remove token name).request config.domain config.apiPort) with
    | .error e => .err (.client e)
    | .ok response =>
      if !response.isSuccess then .err
        (.refused (explain response.status response.body name deviceFile wgConfig))
      else
        match Json.parse response.body with
        | .ok value =>
          match PeerInfo.fromJson value with
          | .error e => .err (.badResponse e.display)
          | .ok removed =>
            match checkedPeer removed name with
            | .error e => .err e
            | .ok (back, address) => .ok ⟨back, address, none, name.asStr = config.name⟩
        | .err e => .err (.badResponse e.display)
        | .panic => .panic
        | .spin => .spin

end Rm

namespace Commands

open Client Api Handlers

variable [Unicode] (library : Library) (hashToken : DeviceToken → TokenHash) (state : ServerState)
  (now : Int64) (minted : DeviceToken)

/-- The network takes a request to a hub in this state and brings the answer back. -/
structure Brings (send : Client.Request → Except ClientError Response) (request : Client.Request) :
    Prop where
  taken : Taken library request
  came : ∀ answer after,
    serve library hashToken state now minted (requestBytes request) = (.ok answer, after) →
      Came answer (send request)

variable {library hashToken state now minted} {send : Client.Request → Except ClientError Response}

/-- What a device reads of a call. -/
theorem Brings.reads (documented : Documented library) {call : Call} {host : String} {port : UInt16}
    (brings : Brings library hashToken state now minted send (call.request host port)) :
    ∃ response, send (call.request host port) = .ok response ∧
      Reads (answer hashToken state now (call.asks minted)).1 response :=
  read_answer hashToken state now minted call
    (brings.came _ _ (serve_call hashToken state now minted call documented brings.taken))

/-- A stamp is not seen in the list. -/
theorem decidePeers_touch (state : ServerState) (caller : DeviceName) (now : Int64) :
    decidePeers (touchLastSeen state caller now) = decidePeers state := by
  rcases Registry.touchLastSeen_cases state caller now with h | ⟨before, peer, after, hpeers, h⟩
  · rw [h]
  · rw [h, decidePeers, decidePeers, hpeers]
    simp only [List.map_append, List.map_cons, serverEndpoint]

theorem rowOf_peer {peer : Peer} (key : IsKey peer.publicKey) :
    Ls.rowOf ⟨peer.name.asStr, peer.publicKey, peer.address.toString⟩ =
      .ok ⟨peer.name.asStr, peer.address, peer.publicKey, .unknown⟩ := by
  simp only [Ls.rowOf, DeviceName.parse_asStr, Ipv4Addr.parse_toString, key.parse, okOr,
    Except.mapError, except_ok_bind]

theorem rowsFromResponse_decidePeers (keys : ∀ peer ∈ state.peers, IsKey peer.publicKey) :
    Ls.rowsFromResponse (decidePeers state) = .ok (Ls.rowsFromState state none) := by
  have rows : ∀ peers : List Peer, (∀ peer ∈ peers, IsKey peer.publicKey) →
      (peers.map fun peer => (⟨peer.name.asStr, peer.publicKey, peer.address.toString⟩ :
        PeerInfo)).mapM Ls.rowOf =
        .ok
          (peers.map fun peer => (⟨peer.name.asStr, peer.address, peer.publicKey,
            .unknown⟩ : Ls.PeerRow)) := by
    intro peers keys
    induction peers with
    | nil => rfl
    | cons peer peers ih =>
      rw [List.map_cons, List.mapM_cons, rowOf_peer (keys peer List.mem_cons_self),
        ih fun other there => keys other (List.mem_cons_of_mem _ there)]
      rfl
  exact rows state.peers keys

theorem list_brought (documented : Documented library) {token : DeviceToken} {caller : DeviceName}
    {config : DeviceConfig}
    (brings : Brings library hashToken state now minted send
      ((Call.peers token).request config.domain config.apiPort))
    (known : authenticate hashToken state token = .ok caller)
    (keys : ∀ peer ∈ state.peers, IsKey peer.publicKey) (held : config.token = token.asStr)
    (deviceFile wgConfig : String) :
    Ls.listRemotely send config deviceFile wgConfig = .ok (Ls.rowsFromState state none) := by
  obtain ⟨response, sent, reads⟩ := brings.reads documented
  have decided : (answer hashToken state now ((Call.peers token).asks minted)).1 =
      .ok (decidePeers state).toJson := by
    rw [Call.asks, answer, withCaller, known]
    simp only [decidePeers_touch]
  rw [decided] at reads
  obtain ⟨success, body⟩ := reads
  rw [Ls.listRemotely, Ls.askHub, held, DeviceToken.parse_asStr]
  simp only [sent, success, body, (PeersResponse.read_written (decidePeers state)).2, Bool.not_true,
    Bool.false_eq_true, if_false]
  exact congrArg Outcome.ofExcept (rowsFromResponse_decidePeers keys)

theorem checkedPeer_removed {peer : Peer} {name : DeviceName} (named : peer.name = name)
    (key : IsKey peer.publicKey) :
    Rm.checkedPeer ⟨peer.name.asStr, peer.publicKey, peer.address.toString⟩ name =
      .ok (name.asStr, peer.address.toString) := by
  rw [Rm.checkedPeer, DeviceName.parse_asStr]
  simp only [named, ne_eq, not_true, if_false, Ipv4Addr.parse_toString, key.parse]

/-- What the hub answers to a removal of a device it has, and the state it leaves. -/
theorem answer_remove {token : DeviceToken} {caller name : DeviceName} {peer : Peer}
    {after : ServerState} (known : authenticate hashToken state token = .ok caller)
    (gone : state.removePeer name = (some peer, after)) (named : peer.name = name) :
    answer hashToken state now (.remove token name.asStr) =
      (.ok (⟨peer.name.asStr, peer.publicKey, peer.address.toString⟩ : PeerInfo).toJson,
        if name = caller then after else touchLastSeen after caller now) := by
  rw [answer, withCaller, known]
  simp only [decideRemove, DeviceName.parse_asStr, gone, named]
  by_cases self : name = caller
  · simp only [self, ne_eq, not_true, if_false, if_true]
  · rw [if_neg self, if_pos fun same => self (DeviceName.ext_text same)]

theorem answer_missing {token : DeviceToken} {caller name : DeviceName}
    (known : authenticate hashToken state token = .ok caller)
    (gone : state.removePeer name = (none, state)) :
    answer hashToken state now (.remove token name.asStr) =
      (.error ⟨.notFound, "no device named " ++ debugStr name.asStr⟩, state) := by
  rw [answer, withCaller, known]
  simp only [decideRemove, DeviceName.parse_asStr, gone]

section
variable {token : DeviceToken} {config : DeviceConfig} {name : DeviceName} {response : Response}

theorem removeRemotely_removed {peer : Peer} (held : config.token = token.asStr)
    (sent : send ((Call.remove token name).request config.domain config.apiPort) = .ok response)
    (reads : Reads
      (.ok (⟨peer.name.asStr, peer.publicKey, peer.address.toString⟩ : PeerInfo).toJson) response)
    (named : peer.name = name) (key : IsKey peer.publicKey) (deviceFile wgConfig : String) :
    Rm.removeRemotely send name config deviceFile wgConfig =
      .ok ⟨name.asStr, peer.address.toString, none, name.asStr = config.name⟩ := by
  obtain ⟨success, body⟩ := reads
  rw [Rm.removeRemotely, held, DeviceToken.parse_asStr]
  simp only [sent, success, body, PeerInfo.fromJson_toJson,
    checkedPeer_removed named key, Bool.not_true, Bool.false_eq_true, if_false]

theorem removeRemotely_missing (held : config.token = token.asStr)
    (sent : send ((Call.remove token name).request config.domain config.apiPort) = .ok response)
    (reads : Reads (.error ⟨.notFound, "no device named " ++ debugStr name.asStr⟩) response)
    (deviceFile wgConfig : String) :
    Rm.removeRemotely send name config deviceFile wgConfig =
      .err
        (.refused ("the hub would not remove " ++ name.asStr ++ ": " ++
          ("no device named " ++ debugStr name.asStr) ++
        (" — no device called " ++ name.asStr ++ " is registered; `anago ls` shows what is"))) := by
  obtain ⟨failed, said⟩ := reads
  rw [Rm.removeRemotely, held, DeviceToken.parse_asStr]
  simp only [sent, failed, Bool.not_false, if_true]
  delta Rm.explain
  rw [said]

end

omit [Unicode] in
theorem lock_parsed [Unicode] {file : String} {state : ServerState}
    (read : ServerState.parse file = .ok state) :
    lock true file = some state := by
  rw [lock, if_pos rfl, read]

theorem removeLocally_removed {hub : Hub} {name : DeviceName} {peer : Peer} {after : ServerState}
    (read : ServerState.parse hub.file = .ok state)
    (gone : state.removePeer name = (some peer, after)) (named : peer.name = name)
    (again : ServerState.parse after.toJsonString = .ok after) :
    Rm.removeLocally name ⟨true, true, true, true⟩ hub =
      (.ok ⟨name.asStr, peer.address.toString, some true, false⟩,
        ⟨after.toJsonString, some (WgConf.serverConfig after)⟩) := by
  rw [Rm.removeLocally, lock_parsed read]
  simp only [gone, lock_parsed again, named, Bool.not_true, Bool.false_eq_true, if_false, if_true]

/-- The list and the removal from a device are those from the hub: the same rows but for the
handshakes, the same device removed, the same refusal, and a state that differs by the caller's
mark alone. -/
theorem both_ends_agree (documented : Documented library) {token : DeviceToken}
    {caller name : DeviceName} {config : DeviceConfig}
    (lists : Brings library hashToken state now minted send
      ((Call.peers token).request config.domain config.apiPort))
    (removes : Brings library hashToken state now minted send
      ((Call.remove token name).request config.domain config.apiPort))
    (known : authenticate hashToken state token = .ok caller)
    (keys : ∀ peer ∈ state.peers, IsKey peer.publicKey) (held : config.token = token.asStr)
    {hub : Hub} (read : ServerState.parse hub.file = .ok state) (deviceFile wgConfig : String) :
    Ls.listRemotely send config deviceFile wgConfig = .ok (Ls.rowsFromState state none) ∧
      ∃ served, serve library hashToken state now minted
          (requestBytes ((Call.remove token name).request config.domain config.apiPort)) = served ∧
        ((name ∉ state.peers.map Peer.name ∧ served.2 = state ∧
            Rm.removeRemotely send name config deviceFile wgConfig = .err (.refused
              ("the hub would not remove " ++ name.asStr ++ ": " ++
                ("no device named " ++ debugStr name.asStr) ++
                  (" — no device called " ++ name.asStr ++
                " is registered; `anago ls` shows what is"))) ∧
            Rm.removeLocally name ⟨true, true, true, true⟩ hub =
              (.error (.notFound name.asStr), hub)) ∨
          ∃ before peer rest after, state.peers = before ++ peer :: rest ∧ peer.name = name ∧
            after = { state with peers := before ++ rest } ∧
            served.2 = (if name = caller then after else touchLastSeen after caller now) ∧
            Rm.removeRemotely send name config deviceFile wgConfig =
              .ok ⟨name.asStr, peer.address.toString, none, name.asStr = config.name⟩ ∧
            Rm.removeLocally name ⟨true, true, true, true⟩ hub =
              (.ok ⟨name.asStr, peer.address.toString, some true, false⟩,
                ⟨after.toJsonString, some (WgConf.serverConfig after)⟩)) := by
  refine ⟨list_brought documented lists known keys held deviceFile wgConfig, _,
    serve_call hashToken state now minted (.remove token name) documented removes.taken, ?_⟩
  obtain ⟨response, sent, reads⟩ := removes.reads documented
  rw [Call.asks] at reads ⊢
  rcases state.removePeer_cases name with ⟨free, gone⟩ | ⟨before, peer, rest, all, named, _, gone⟩
  · rw [answer_missing known gone] at reads ⊢
    refine Or.inl ⟨free, rfl, removeRemotely_missing held sent reads deviceFile wgConfig, ?_⟩
    rw [Rm.removeLocally, lock_parsed read]
    simp only [gone]
  · rw [answer_remove known gone named] at reads ⊢
    have here : peer ∈ state.peers := by
      rw [all]
      exact List.mem_append_right _ List.mem_cons_self
    have home := ServerState.home_of_parse read
    have again := @ServerState.parse_toJsonString _ { state with peers := before ++ rest } home
    exact Or.inr ⟨before, peer, rest, _, all, named, rfl, rfl,
      removeRemotely_removed held sent reads named (keys peer here) deviceFile wgConfig,
      removeLocally_removed read gone named again⟩

end Commands

namespace Commands

open Client Api Handlers

def sampleHash (_ : DeviceToken) : TokenHash := .sample 'b' rfl

/-- A hub with one device. -/
def sampleJoined : @ServerState asciiTables :=
  @Registry.run asciiTables Init.sampleHub
    [@Registry.sampleJoin asciiTables "studio" 'A' (.sample '3' rfl)
      (sampleHash (.sample '3' rfl)) 7]

def sampleStudio : @DeviceName asciiTables :=
  @DeviceName.mk asciiTables "studio" rfl (by decide) rfl

def sampleConfig : DeviceConfig :=
  ⟨"hub.example", 443, "studio", "10.100.0.2", "10.100.0.0/24",
    (DeviceToken.sample '3' rfl).asStr, "k", "hub.example:51820", "10.100.0.1"⟩

/-- A network that brings every answer. -/
def sampleSend (request : Client.Request) : Except ClientError Response :=
  letI := asciiTables
  let bytes := requestBytes request
  match (serve sampleLibrary sampleHash sampleJoined 9 (.sample 'e' rfl) bytes).1 with
  | .ok answer => parseBounded (plainly answer)
  | _ => .error (.lost "")

theorem brings_sample (call : @Call asciiTables) :
    letI := asciiTables
    let decision := (answer sampleHash sampleJoined 9 (call.asks (.sample 'e' rfl))).1
    let request := call.request sampleConfig.domain sampleConfig.apiPort
    (plainly (respond decision)).length ≤ maxResponse →
      (requestBytes request).length ≤ sampleLibrary.limit →
      Brings sampleLibrary sampleHash sampleJoined 9 (.sample 'e' rfl) sampleSend request := by
  let := asciiTables
  intro decision request small short
  have word : sampleConfig.domain.toList.all (fun c => !isControl c && c != ' ') = true := by decide
  have taken : Taken sampleLibrary request := by
    refine ⟨fun c hc => ?_, short⟩
    have ok := List.all_eq_true.mp word c hc
    rwa [Bool.and_eq_true, Bool.not_eq_true', bne_iff_ne] at ok
  have decided := serve_call sampleHash sampleJoined 9 (.sample 'e' rfl) call
    sampleLibrary_documented taken
  refine ⟨taken, fun found after served => ?_⟩
  have sent : sampleSend request = parseBounded (plainly (respond decision)) := by
    rw [sampleSend, decided]
  rw [sent]
  cases Outcome.ok.inj (Prod.mk.inj (served.symm.trans decided)).1
  exact came_plainly small

theorem removal_sample :
    letI := asciiTables
    Brings sampleLibrary sampleHash sampleJoined 9 (.sample 'e' rfl) sampleSend
      ((Call.remove (.sample '3' rfl) sampleStudio).request sampleConfig.domain
        sampleConfig.apiPort) := by
  let := asciiTables
  exact brings_sample (.remove (.sample '3' rfl) sampleStudio)
    (by rw [length_plainly]; decide +kernel)
    (by rw [requestBytes, List.length_append, Utf8Text.length_asBytes]; decide +kernel)

/-- The device lists itself, and leaves. -/
theorem both_ends_agree_sample :
    letI := asciiTables
    Ls.listRemotely sampleSend sampleConfig "device.json" "anago.conf" =
      .ok (Ls.rowsFromState sampleJoined none) ∧
      (serve sampleLibrary sampleHash sampleJoined 9 (.sample 'e' rfl)
          (requestBytes ((Call.remove (.sample '3' rfl) sampleStudio).request sampleConfig.domain
            sampleConfig.apiPort))).2 = { sampleJoined with peers := [] } ∧
      Rm.removeRemotely sampleSend sampleStudio sampleConfig "device.json" "anago.conf" =
        .ok ⟨"studio", "10.100.0.2", none, true⟩ := by
  have known : letI := asciiTables; authenticate sampleHash sampleJoined (.sample '3' rfl) =
    .ok sampleStudio := by
    decide +kernel
  have one : (@ServerState.peers asciiTables sampleJoined).length = 1 := by decide +kernel
  have same : letI := asciiTables; sampleJoined.peers.map Peer.name = [sampleStudio] ∧
      sampleJoined.peers.map (fun peer => peer.address.toString) = ["10.100.0.2"] := by
    decide +kernel
  let := asciiTables
  have keys : ∀ peer ∈ sampleJoined.peers, IsKey peer.publicKey := by
    intro peer there
    cases List.mem_singleton.mp there
    exact ⟨String.ofList (List.replicate 43 'A' ++ ['=']), rfl⟩
  have lists := brings_sample (.peers (.sample '3' rfl))
    (by rw [length_plainly]; decide +kernel)
    (by rw [requestBytes, List.length_append, Utf8Text.length_asBytes]; decide +kernel)
  have removes := removal_sample
  have read : ServerState.parse sampleJoined.toJsonString = .ok sampleJoined :=
    ServerState.parse_toJsonString rfl
  obtain ⟨list, served, rfl, ⟨free, _⟩ | ⟨before, peer, rest, after, all, named, left,
    hub, device, _⟩⟩ :=
    @both_ends_agree _ sampleLibrary sampleHash sampleJoined 9 (.sample 'e' rfl) sampleSend
      sampleLibrary_documented (.sample '3' rfl) sampleStudio sampleStudio
        sampleConfig lists removes
      known keys rfl ⟨sampleJoined.toJsonString, none⟩ read "device.json" "anago.conf"
  · rw [same.1] at free
    exact absurd List.mem_cons_self free
  · have ends : before = [] ∧ rest = [] := by
      rw [all, List.length_append, List.length_cons] at one
      exact ⟨List.length_eq_zero_iff.mp (by omega), List.length_eq_zero_iff.mp (by omega)⟩
    obtain ⟨rfl, rfl⟩ := ends
    have addresses := same.2
    rw [all] at addresses
    have address : peer.address.toString = "10.100.0.2" := (List.cons.inj addresses).1
    rw [address] at device
    refine ⟨list, ?_, device⟩
    rw [hub, if_pos rfl, left]
    rfl

end Commands
