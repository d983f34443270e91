import Anago.DeviceName
import Anago.DeviceToken
import Anago.FirstMatch
import Anago.JoinCode
import Anago.Proto
import Anago.Subnet

/-!
# The server's state and its transitions

What the state file holds, and the two changes the registry makes to it. A transition
returns its answer together with the state it leaves, so that what a refusal leaves
behind is part of the model.
-/

open StdText DecimalText

structure PrivateKey where
  text : String
  deriving DecidableEq

inductive Challenge where
  | http01
  | dns01
  deriving DecidableEq, Repr

structure Acme where
  directory : String
  contact : Option String
  accountKeyPath : String
  accountUrl : String
  challenge : Challenge
  issuedAt : Int64
  renewAfter : Int64
  deriving DecidableEq

inductive TlsSource where
  | manual
  | acme (acme : Acme)
  deriving DecidableEq

structure Tls where
  certPath : String
  keyPath : String
  notAfter : Option Int64
  source : TlsSource
  deriving DecidableEq

structure Cloudflare where
  zoneId : String
  recordId : Option String
  tokenPath : Option String
  deriving DecidableEq

structure ServerKeys where
  privateKey : PrivateKey
  publicKey : String
  /-- Always the subnet's `.1`; `ServerState.parse` refuses a file that says otherwise. -/
  address : Ipv4Addr
  deriving DecidableEq

section
variable [Unicode]

structure Peer where
  name : DeviceName
  publicKey : String
  address : Ipv4Addr
  tokenHash : TokenHash
  createdAt : Int64
  lastSeen : Option Int64
  deriving DecidableEq

structure ServerState where
  domain : String
  subnet : Subnet
  listenPort : UInt16
  apiPort : UInt16
  tls : Tls
  cloudflare : Option Cloudflare
  server : ServerKeys
  peers : List Peer
  codes : List IssuedCode
  deriving DecidableEq

/-- What a device offers when it registers. -/
structure Registration where
  code : JoinCode
  name : DeviceName
  publicKey : String
  tokenHash : TokenHash

end

inductive JoinRejection where
  | unknownCode
  | codeNotUsable (status : CodeStatus)
  | nameTaken
  | subnetFull
  deriving DecidableEq, Repr

namespace JoinRejection

/-- Every refusal about the code is one wire code. -/
def errorCode : JoinRejection → Proto.ErrorCode
  | unknownCode => .invalidCode
  | codeNotUsable _ => .invalidCode
  | nameTaken => .nameTaken
  | subnetFull => .subnetFull

def display : JoinRejection → String
  | unknownCode => "no such join code"
  | codeNotUsable status => "join code is " ++ status.display
  | nameTaken => "a device with that name is already registered"
  | subnetFull => "no free address left in the subnet"

end JoinRejection

namespace Tls

/-- A certificate a person supplied and keeps up to date. -/
def manual (certPath keyPath : String) : Tls where
  certPath := certPath
  keyPath := keyPath
  notAfter := none
  source := .manual

end Tls

namespace ServerState

variable [Unicode]

/-- Redeems a join code and registers a device at the lowest free address. -/
def addPeer (state : ServerState) (registration : Registration) (now : Int64) :
    Except JoinRejection Peer × ServerState :=
  match state.codes.findFinIdx? fun issued => issued.code = registration.code with
  | none => (.error .unknownCode, state)
  | some index =>
    let issued := state.codes.get index
    let status := issued.status now
    if !status.isUsable then (.error (.codeNotUsable status), state)
    else if DeviceName.isTaken (state.peers.map fun peer => peer.name.asStr)
        registration.name then (.error .nameTaken, state)
    else
      match state.subnet.allocate (state.peers.map Peer.address) with
      | none => (.error .subnetFull, state)
      | some address =>
        -- past every check: only now does the state change
        let peer : Peer := {
          name := registration.name
          publicKey := registration.publicKey
          address := address
          tokenHash := registration.tokenHash
          createdAt := now
          lastSeen := none }
        (.ok peer, { state with
          codes := state.codes.set index { issued with usedAt := some now }
          peers := state.peers ++ [peer] })

/-- Removes a device; its address goes back into the pool. -/
def removePeer (state : ServerState) (name : DeviceName) : Option Peer × ServerState :=
  match state.peers.findFinIdx? fun peer => peer.name = name with
  | none => (none, state)
  | some index =>
    (some (state.peers.get index), { state with peers := state.peers.eraseIdx index })

end ServerState

namespace CodeStatus

theorem isUsable_status {expiresAt now : Int64} {usedAt : Option Int64} :
    (JoinCode.status expiresAt usedAt now).isUsable = true ↔ usedAt = none ∧ now < expiresAt := by
  rw [JoinCode.status]
  cases usedAt with
  | some t => simp [isUsable]
  | none =>
    by_cases h : now ≥ expiresAt
    · simp [isUsable, h]
    · simp [isUsable, h, Int64.not_le.mp h]

end CodeStatus

namespace ServerState

variable [Unicode]

/-- What a successful registration found, and the state it leaves. -/
structure Registered (state : ServerState) (registration : Registration) (now : Int64)
    (peer : Peer) (state' : ServerState) (before : List IssuedCode) (issued : IssuedCode)
    (after : List IssuedCode) : Prop where
  codes : state.codes = before ++ issued :: after
  first : ∀ c ∈ before, c.code ≠ registration.code
  code : issued.code = registration.code
  unused : issued.usedAt = none
  unexpired : now < issued.expiresAt
  free : registration.name ∉ state.peers.map Peer.name
  address : state.subnet.allocate (state.peers.map Peer.address) = some peer.address
  entry : peer = { registration with address := peer.address, createdAt := now, lastSeen := none }
  result : state' = { state with
    codes := before ++ { issued with usedAt := some now } :: after
    peers := state.peers ++ [peer] }

section
variable {state state' : ServerState} {registration : Registration} {now : Int64} {peer : Peer}
  {before after : List IssuedCode} {issued : IssuedCode}

theorem Registered.peer_name
    (h : Registered state registration now peer state' before issued after) :
    peer.name = registration.name := by
  rw [h.entry]

theorem Registered.peer_publicKey
    (h : Registered state registration now peer state' before issued after) :
    peer.publicKey = registration.publicKey := by
  rw [h.entry]

theorem Registered.peer_tokenHash
    (h : Registered state registration now peer state' before issued after) :
    peer.tokenHash = registration.tokenHash := by
  rw [h.entry]

theorem Registered.peer_free
    (h : Registered state registration now peer state' before issued after) :
    peer.name ∉ state.peers.map Peer.name := by
  rw [h.peer_name]
  exact h.free

end

/-- A registration is refused and changes nothing, or it is accepted for good reason. -/
theorem addPeer_cases (state : ServerState) (registration : Registration) (now : Int64) :
    (∃ rejection, state.addPeer registration now = (.error rejection, state)) ∨
      ∃ peer state' before issued after,
        state.addPeer registration now = (.ok peer, state') ∧
          Registered state registration now peer state' before issued after := by
  rw [addPeer]
  split
  · exact Or.inl ⟨_, rfl⟩
  next index hindex =>
  simp only
  split
  · exact Or.inl ⟨_, rfl⟩
  next husable =>
  split
  · exact Or.inl ⟨_, rfl⟩
  next hname =>
  split
  · exact Or.inl ⟨_, rfl⟩
  next address haddress =>
  obtain ⟨before, after, hcodes, hcode, hfirst, hset⟩ :=
    FirstMatch.set_eq hindex { state.codes.get index with usedAt := some now }
  rw [Bool.not_eq_true', Bool.not_eq_false, IssuedCode.status,
    CodeStatus.isUsable_status] at husable
  have hfree : registration.name ∉ state.peers.map Peer.name := by
    have hmap : (state.peers.map fun peer => peer.name.asStr) =
        (state.peers.map Peer.name).map DeviceName.asStr := by rw [List.map_map]; rfl
    rw [hmap, DeviceName.isTaken_iff] at hname
    exact hname
  refine Or.inr ⟨_, _, before, state.codes.get index, after, rfl, ?_⟩
  exact {
    codes := hcodes
    first := fun c hc => by simpa using hfirst c hc
    code := by simpa using hcode
    unused := husable.1
    unexpired := husable.2
    free := hfree
    address := haddress
    entry := rfl
    result := by rw [hset] }

theorem removePeer_cases (state : ServerState) (name : DeviceName) :
    (name ∉ state.peers.map Peer.name ∧ state.removePeer name = (none, state)) ∨
      ∃ before peer after, state.peers = before ++ peer :: after ∧ peer.name = name ∧
        (∀ p ∈ before, p.name ≠ name) ∧
        state.removePeer name = (some peer, { state with peers := before ++ after }) := by
  rw [removePeer]
  split
  · next hnone =>
    refine Or.inl ⟨fun hm => ?_, rfl⟩
    obtain ⟨peer, hpeer, hname⟩ := List.mem_map.mp hm
    exact List.findFinIdx?_eq_none_iff.mp hnone peer hpeer (decide_eq_true hname)
  · next index hindex =>
    obtain ⟨before, after, hpeers, hname, hfirst, herase⟩ := FirstMatch.erase_eq hindex
    refine Or.inr ⟨before, _, after, hpeers, by simpa using hname,
      fun p hp => by simpa using hfirst p hp, by rw [herase]⟩

end ServerState
