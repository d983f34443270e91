import Anago.Cli
import Anago.Registry
import Anago.SyncDecision

/-!
# What a join answers is what a sync compares

The hub describes itself twice, and the device checks each description with code of its
own. All of them agree about every hub whose domain is a hostname in the device's eyes.
-/

open StdText DecimalText Json Proto WgConf

namespace Api

variable [Unicode]

/-- The answer to a join, from the state it leaves. -/
def answerOf (state : ServerState) (peer : Peer) (token : DeviceToken) : JoinResponse where
  name := peer.name.asStr
  address := peer.address.toString
  subnet := state.subnet.toString
  token := token.asStr
  serverPublicKey := state.server.publicKey
  serverEndpoint := serverEndpoint state
  serverAddress := state.subnet.serverAddress.toString

theorem decideJoin_eq_ok {state state' : ServerState} {request : JoinRequest} {token : DeviceToken}
    {tokenHash : TokenHash} {now : Int64} {answer : JoinResponse}
    (h : decideJoin state request token tokenHash now = (.ok answer, state')) :
    ∃ peer, answer = answerOf state' peer token ∧ state'.peers = state.peers ++ [peer] ∧
      peer.name ∉ state.peers.map Peer.name ∧ Registry.SameHub state state' := by
  rw [decideJoin] at h
  split at h
  · cases h
  split at h
  · cases h
  split at h
  · cases h
  next code _ _ name _ _ publicKey _ =>
    rcases state.addPeer_cases ⟨code, name, publicKey, tokenHash⟩ now with
      ⟨rejection, hadd⟩ | ⟨peer, left, before, issued, after, hadd, hreg⟩
    · rw [hadd] at h
      cases h
    · rw [hadd] at h
      cases h
      have effect := (Registry.Effect.registered hreg).sameHub
      refine ⟨peer, rfl, ?_, hreg.peer_free, effect⟩
      rw [hreg.result]

end Api

theorem DeviceToken.parse_asStr (token : DeviceToken) : parse token.asStr = .ok token := by
  rw [parse]
  split
  · next e he => cases token.checked.symm.trans he
  · rfl

/-- What a device needs of its hub, besides what the types say. -/
structure Reachable [Unicode] (state : ServerState) : Prop where
  key : IsKey state.server.publicKey
  named : state.domain.toList ≠ []
  port : state.listenPort ≠ 0

section
variable [Unicode] {state : ServerState} {peer : Peer} {token : DeviceToken}

theorem serverEndpoint_toList (state : ServerState) :
    (serverEndpoint state).toList =
      state.domain.toList ++ ':' :: showNat state.listenPort.toNat := by
  simp only [serverEndpoint, String.toList_append, String.toList_ofList, List.append_assoc]
  rfl

/-- The hub's endpoint is one in the device's eyes if its domain is a hostname there. -/
theorem checked_serverEndpoint (reachable : Reachable state) :
    (∃ endpoint, checkedEndpoint (serverEndpoint state) = .ok endpoint) ↔
      state.domain.toList.all isHostChar = true := by
  have digits : ':' ∉ showNat state.listenPort.toNat := by
    intro hmem
    exact absurd
      (List.all_eq_true.mp (all_isDigit_showNat state.listenPort.toNat) _ hmem) (by decide)
  constructor
  · rintro ⟨endpoint, h⟩
    rw [checkedEndpoint, serverEndpoint_toList, rsplitOnce_append digits] at h
    simp only [reachable.named, if_false] at h
    split at h
    · cases h
    · next chars => simpa using chars
  · intro chars
    have endpoint : IsEndpoint (serverEndpoint state) :=
      ⟨_, _, serverEndpoint_toList state, reachable.named,
        List.all_eq_true.mp chars, reachable.port⟩
    exact ⟨_, endpoint.checked⟩

theorem validate_answerOf (domain : String) (apiPort : UInt16) :
    (DeviceConfig.fromResponse domain apiPort (Api.answerOf state peer token)).validate =
      .ok () := by
  simp only [DeviceConfig.validate, DeviceConfig.fromResponse, Api.answerOf, DeviceName.parse_asStr,
    DeviceToken.parse_asStr, Ipv4Addr.parse_toString, okOr, Except.mapError, except_ok_bind]

theorem profile_answerOf (key : IsKey state.server.publicKey)
    (endpoint : IsEndpoint (serverEndpoint state)) (domain : String) (apiPort : UInt16)
    (privateKey : PrivateKey) :
    (DeviceConfig.fromResponse domain apiPort (Api.answerOf state peer token)).profile privateKey =
      .ok ⟨peer.address, state.subnet, privateKey, state.server.publicKey,
        serverEndpoint state⟩ := by
  simp only [DeviceConfig.profile, DeviceConfig.fromResponse, Api.answerOf, Ipv4Addr.parse_toString,
    Subnet.parse_toString, key.parse, endpoint.checked, okOr, Except.mapError, except_ok_bind]

/-- What a device that joined believes. -/
theorem localOf_answerOf (domain : String) (apiPort : UInt16) :
    Sync.localOf (DeviceConfig.fromResponse domain apiPort (Api.answerOf state peer token)) =
      .ok ⟨peer.name, peer.address, state.subnet, state.server.publicKey, serverEndpoint state,
        state.subnet.serverAddress⟩ := by
  simp only [Sync.localOf, DeviceConfig.fromResponse, Api.answerOf, DeviceName.parse_asStr,
    Subnet.parse_toString, Ipv4Addr.parse_toString, okOr, Except.mapError, except_ok_bind]

theorem reportedOf_decidePeers (key : IsKey state.server.publicKey)
    (endpoint : IsEndpoint (serverEndpoint state)) :
    Sync.reportedOf (Api.decidePeers state) = .ok (some ⟨state.subnet, state.server.publicKey,
      serverEndpoint state, state.subnet.serverAddress⟩) := by
  simp only [Sync.reportedOf, Api.decidePeers, Subnet.parse_toString, key.parse, endpoint.checked,
    Ipv4Addr.parse_toString, okOr, Except.mapError, except_ok_bind]

theorem rosterOf_decidePeers (state : ServerState) :
    Sync.rosterOf (Api.decidePeers state) =
      .ok (state.peers.map fun peer => ⟨peer.name, peer.address⟩) := by
  rw [Sync.rosterOf, Api.decidePeers]
  induction state.peers with
  | nil => rfl
  | cons peer peers ih =>
    simp only [List.map_cons, List.mapM_cons, DeviceName.parse_asStr, Ipv4Addr.parse_toString, okOr,
      Except.mapError, except_ok_bind] at ih ⊢
    rw [ih]
    rfl

theorem listed_last {peers : List Peer} {own : Sync.Local} (fresh : peer.name ∉ peers.map Peer.name)
    (name : own.name = peer.name) (address : own.address = peer.address) :
    Sync.Listed own ((peers ++ [peer]).map fun peer => ⟨peer.name, peer.address⟩) := by
  refine ⟨⟨peer.name, peer.address⟩, ?_, address.symm⟩
  have none : (peers.map fun peer => (⟨peer.name, peer.address⟩ : Sync.Member)).find?
      (fun member => member.name = own.name) = none := by
    rw [List.find?_eq_none]
    intro member hmember same
    obtain ⟨other, hother, rfl⟩ := List.mem_map.mp hmember
    exact fresh (List.mem_map.mpr ⟨other, hother, (of_decide_eq_true same).trans name⟩)
  rw [List.map_append, List.find?_append, none, List.map_singleton]
  simp [name]

/-- The device accepts the answer for what it says, and its first sync finds nothing to do. -/
def Settles (answer : JoinResponse) (state : ServerState) (domain : String) (apiPort : UInt16)
    (privateKey : PrivateKey) : Prop :=
  ∃ config profile own response reported roster,
    Join.accepted (Json.toString answer.toJson) domain apiPort privateKey = .ok (config, profile) ∧
    config = DeviceConfig.fromResponse domain apiPort answer ∧
    (profile.address.toString = answer.address ∧ profile.subnet.toString = answer.subnet ∧
      profile.privateKey = privateKey ∧ profile.serverPublicKey = answer.serverPublicKey ∧
        profile.serverEndpoint = answer.serverEndpoint) ∧
    Sync.localOf config = .ok own ∧
    Sync.heard (Json.toString (Api.decidePeers state).toJson) = .ok response ∧
    Sync.reportedOf response = .ok reported ∧ Sync.rosterOf response = .ok roster ∧
    Sync.decide own reported roster = .unchanged

theorem heard_written (response : PeersResponse) :
    Sync.heard (Json.toString response.toJson) = .ok response := by
  rw [Sync.heard, response.read_written.1]
  simp only [Outcome.mapErr, Outcome.ok_bind, response.read_written.2, Except.mapError,
    Outcome.ofExcept]

/-- An answer settles just when the hub's domain is a hostname in the device's eyes. -/
theorem settles_iff {state' : ServerState} {request : JoinRequest} {tokenHash : TokenHash}
    {now : Int64} {answer : JoinResponse} (reachable : Reachable state)
    (joins : Api.decideJoin state request token tokenHash now = (.ok answer, state'))
    (domain : String) (apiPort : UInt16) (privateKey : PrivateKey) :
    Settles answer state' domain apiPort privateKey ↔
      state.domain.toList.all isHostChar = true := by
  obtain ⟨peer, rfl, hpeers, fresh, same⟩ := Api.decideJoin_eq_ok joins
  have reachable' : Reachable state' := by
    rw [same]
    exact ⟨reachable.key, reachable.named, reachable.port⟩
  have sameDomain : state'.domain = state.domain := by rw [same]
  rw [← sameDomain, ← checked_serverEndpoint reachable']
  constructor
  · rintro ⟨config, profile, _, _, _, _, accepted, rfl, _⟩
    have built := profile_of_accepted accepted
    rw [DeviceConfig.profile] at built
    obtain ⟨_, _, built⟩ := except_bind_eq_ok built
    obtain ⟨_, _, built⟩ := except_bind_eq_ok built
    obtain ⟨_, _, built⟩ := except_bind_eq_ok built
    obtain ⟨endpoint, checked, _⟩ := except_bind_eq_ok built
    exact ⟨endpoint, checked⟩
  · intro checked
    have endpoint : IsEndpoint (serverEndpoint state') :=
      ⟨_, _, serverEndpoint_toList state', reachable'.named,
        List.all_eq_true.mp ((checked_serverEndpoint reachable').mp checked), reachable'.port⟩
    have accepted := accepted_answer (validate_answerOf domain apiPort)
      (@profile_answerOf _ _ peer token reachable'.key endpoint domain apiPort privateKey)
    refine ⟨_, _, _, _, _, _, accepted, rfl, ⟨rfl, rfl, rfl, rfl, rfl⟩,
      localOf_answerOf domain apiPort, heard_written _,
      reportedOf_decidePeers reachable'.key endpoint, rosterOf_decidePeers state', ?_⟩
    rw [hpeers]
    exact Sync.decide_of_agrees ⟨rfl, rfl, rfl, rfl⟩ (listed_last fresh rfl rfl)

omit [Unicode] in
theorem Cli.domain_eq_ok {text domain : String} (h : Cli.domain text = .ok domain) :
    domain.toList ≠ [] := by
  rw [Cli.domain] at h
  split at h
  · cases h
  split at h
  · cases h
  split at h
  · cases h
  split at h
  · cases h
  split at h
  · cases h
  next dotted =>
    cases h
    intro empty
    rw [empty] at dotted
    exact dotted rfl

theorem Cli.port_eq_ok {parsed : Args.ParsedArgs} {flag : String} {default port : UInt16}
    (real : default ≠ 0) (h : Cli.port parsed flag default = .ok port) : port ≠ 0 := by
  rw [Cli.port] at h
  split at h
  · cases h
    exact real
  split at h
  · split at h
    · cases h
    · next nonzero =>
      cases h
      exact nonzero
  · cases h

/-- A hub that a command line asked for. -/
theorem Cli.reachable_buildState {argv : List String} {args : ServerInit}
    (accepted : Cli.serverInit argv = .ok args) (tls : Tls) (cloudflare : Option Cloudflare)
    {keys : PrivateKey × String} (key : IsKey keys.2) (code : JoinCode) (now : Int64) :
    Reachable (Init.buildState args tls cloudflare keys code now) := by
  rw [Cli.serverInit] at accepted
  obtain ⟨parsed, _, accepted⟩ := except_bind_eq_ok accepted
  obtain ⟨_, _, accepted⟩ := except_bind_eq_ok accepted
  obtain ⟨subnet, _, accepted⟩ := except_bind_eq_ok accepted
  obtain ⟨host, _, accepted⟩ := except_bind_eq_ok accepted
  obtain ⟨domain, hdomain, accepted⟩ := except_bind_eq_ok accepted
  obtain ⟨listenPort, hport, accepted⟩ := except_bind_eq_ok accepted
  obtain ⟨apiPort, _, accepted⟩ := except_bind_eq_ok accepted
  cases accepted
  exact ⟨key, Cli.domain_eq_ok hdomain, Cli.port_eq_ok (by decide) hport⟩

theorem Registry.run_sameHub (start : ServerState) (ops : List Registry.Op) :
    Registry.SameHub start (Registry.run start ops) :=
  @Runs.run_keeps _ _ _ (Registry.SameHub start)
    (fun state op same => same.trans (Registry.step_effect state op).sameHub) _ (.refl start) ops

/-- Every device that a hub lets in can use the answer, just when the domain the hub was set up
with is a hostname in the device's eyes. -/
theorem devices_settle {argv : List String} {args : ServerInit}
    (accepted : Cli.serverInit argv = .ok args) (tls : Tls) (cloudflare : Option Cloudflare)
    {keys : PrivateKey × String} (key : IsKey keys.2) (code : JoinCode) (since : Int64)
    (ops : List Registry.Op) {request : JoinRequest} {token : DeviceToken} {tokenHash : TokenHash}
    {now : Int64} {answer : JoinResponse} {state' : ServerState}
    (joins : Api.decideJoin (Registry.run (Init.buildState args tls cloudflare keys code since) ops)
      request token tokenHash now = (.ok answer, state'))
    (domain : String) (apiPort : UInt16) (privateKey : PrivateKey) :
    Settles answer state' domain apiPort privateKey ↔ args.domain.toList.all isHostChar = true := by
  let start := Init.buildState args tls cloudflare keys code since
  have reachable := Cli.reachable_buildState accepted tls cloudflare key code since
  have same := Registry.run_sameHub start ops
  have reachable' : Reachable (Registry.run start ops) := by
    rw [same]
    exact ⟨reachable.key, reachable.named, reachable.port⟩
  have sameDomain : (Registry.run start ops).domain = args.domain := by
    rw [same]
    rfl
  rw [settles_iff reachable' joins, sameDomain]

end

/-- A command line for the given domain. -/
def sampleArgv (domain : String) : List String :=
  ["--domain", domain, "--tls-cert", "/c.pem", "--tls-key=/k.pem"]

def sampleNetwork : Subnet := ⟨⟨10, 100, 0, 0⟩, by decide⟩

def sampleArgs (domain : String) : ServerInit := ⟨domain, sampleNetwork, 51820, 443⟩

/-- The first device of that hub, with the code it was set up with. -/
def sampleRequest : JoinRequest := ⟨Init.sampleCode.asStr, "macbook", sampleKey⟩

def sampleStart (domain : String) : @ServerState asciiTables :=
  letI := asciiTables
  Init.buildState (sampleArgs domain) (Tls.manual "/c.pem" "/k.pem") none (⟨sampleKey⟩, sampleKey)
    Init.sampleCode 0

theorem joins_sample {domain : String}
    (h : domain = "net.example.com" ∨ domain = "hub_1.example.com") :
    letI := asciiTables
    ∃ answer, Api.decideJoin (sampleStart domain) sampleRequest (.sample 'a' rfl)
      (.sample 'b' rfl) 0 =
      (.ok answer, (Api.decideJoin (sampleStart domain) sampleRequest (.sample 'a' rfl)
        (.sample 'b' rfl) 0).2) := by
  have joined : letI := asciiTables
      ((Api.decideJoin (sampleStart domain) sampleRequest (.sample 'a' rfl) (.sample 'b' rfl)
        0).1.toOption).isSome = true := by
    rcases h with rfl | rfl <;> decide +kernel
  let := asciiTables
  cases hjoin : Api.decideJoin (sampleStart domain) sampleRequest (.sample 'a' rfl)
    (.sample 'b' rfl) 0 with
  | mk result left =>
    rw [hjoin] at joined
    cases result with
    | error e => cases joined
    | ok answer => exact ⟨answer, rfl⟩

theorem devices_settle_sample :
    letI := asciiTables
    ∃ answer state, Api.decideJoin (sampleStart "net.example.com") sampleRequest (.sample 'a' rfl)
        (.sample 'b' rfl) 0 = (.ok answer, state) ∧
      Settles answer state "net.example.com" 443 ⟨sampleKey⟩ := by
  have accepted : letI := asciiTables
      Cli.serverInit (sampleArgv "net.example.com") = .ok (sampleArgs "net.example.com") := by
    decide +kernel
  have key : IsKey sampleKey := ⟨sampleKey, by decide +kernel⟩
  obtain ⟨answer, joins⟩ := joins_sample (Or.inl rfl)
  let := asciiTables
  refine ⟨answer, _, joins, ?_⟩
  have settles := devices_settle accepted (Tls.manual "/c.pem" "/k.pem") none key
    Init.sampleCode 0 []
    joins "net.example.com" 443 ⟨sampleKey⟩
  exact settles.mpr (by decide)

/-- An underscore is enough: the command line takes it and the devices refuse it. -/
theorem underscore_strands : ¬ ∀ (argv : List String) (args : ServerInit) (request : JoinRequest)
    (answer : JoinResponse) (state' : @ServerState asciiTables),
    letI := asciiTables
    Cli.serverInit argv = .ok args →
      Api.decideJoin (Init.buildState args (Tls.manual "/c.pem" "/k.pem") none
        (⟨sampleKey⟩, sampleKey)
        Init.sampleCode 0) request (.sample 'a' rfl) (.sample 'b' rfl) 0 = (.ok answer, state') →
        Settles answer state' args.domain args.apiPort ⟨sampleKey⟩ := by
  have accepted : letI := asciiTables
      Cli.serverInit (sampleArgv "hub_1.example.com") = .ok (sampleArgs "hub_1.example.com") := by
    decide +kernel
  have key : IsKey sampleKey := ⟨sampleKey, by decide +kernel⟩
  obtain ⟨answer, joins⟩ := joins_sample (Or.inr rfl)
  let := asciiTables
  intro h
  have settles := h _ _ _ _ _ accepted joins
  have reachable : Reachable (sampleStart "hub_1.example.com") :=
    Cli.reachable_buildState accepted (Tls.manual "/c.pem" "/k.pem") none key Init.sampleCode 0
  have hostname := (settles_iff reachable joins _ _ _).mp settles
  exact absurd hostname (by decide)
