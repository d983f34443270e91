import Anago.State
import Anago.Wg

/-!
# What the control plane decides

The decisions behind the endpoints and behind `anago code`, as functions of a state
and a request. A refusal comes back together with the state it leaves.
-/

open StdText DecimalText Proto

/-- `format!("{}:{}", …)`, `host:port`. -/
def serverEndpoint [Unicode] (state : ServerState) : String :=
  state.domain ++ ":" ++ String.ofList (showNat state.listenPort.toNat)

namespace Api

def invalidCode : String := "that join code is not valid"

def unauthorizedMessage : String := "a valid device token is required"

def unauthorized : ApiError := ⟨.unauthorized, unauthorizedMessage⟩

variable [Unicode]

/-- What the caller is told about a rejection; the reasons a code failed are kept back. -/
def ofRejection (rejection : JoinRejection) : ApiError :=
  let code := rejection.errorCode
  match code with
  | .invalidCode => ⟨code, invalidCode⟩
  | _ => ⟨code, rejection.display⟩

/-- Validates a registration and applies it. -/
def decideJoin (state : ServerState) (request : JoinRequest) (token : DeviceToken)
    (tokenHash : TokenHash) (now : Int64) : Except ApiError JoinResponse × ServerState :=
  match JoinCode.parse request.code with
  | .error _ => (.error ⟨.invalidCode, invalidCode⟩, state)
  | .ok code =>
    match DeviceName.parse request.name with
    | .error e => (.error ⟨.invalidName, e.display⟩, state)
    | .ok name =>
      match parseKey request.publicKey with
      | .error _ => (.error ⟨.invalidPublicKey,
          "expected a WireGuard public key (44 base64 characters)"⟩, state)
      | .ok publicKey =>
        match state.addPeer ⟨code, name, publicKey, tokenHash⟩ now with
        | (.error rejection, state) => (.error (ofRejection rejection), state)
        | (.ok peer, state) => (.ok {
            name := peer.name.asStr
            address := peer.address.toString
            subnet := state.subnet.toString
            token := token.asStr
            serverPublicKey := state.server.publicKey
            serverEndpoint := serverEndpoint state
            serverAddress := state.subnet.serverAddress.toString }, state)

/-- Removes `name`, answering with what was removed. A name that cannot be registered
is a missing device. -/
def decideRemove (state : ServerState) (name : String) : Except ApiError PeerInfo × ServerState :=
  let notFound : ApiError := ⟨.notFound, "no device named " ++ debugStr name⟩
  match DeviceName.parse name with
  | .error _ => (.error notFound, state)
  | .ok parsed =>
    match state.removePeer parsed with
    | (none, state) => (.error notFound, state)
    | (some peer, state) => (.ok {
        name := peer.name.asStr
        publicKey := peer.publicKey
        address := peer.address.toString }, state)

/-- Stamps the last authenticated call. -/
def touchLastSeen (state : ServerState) (name : DeviceName) (now : Int64) : ServerState :=
  match state.peers.findFinIdx? fun peer => peer.name = name with
  | none => state
  | some index =>
    { state with
      peers := state.peers.set index { state.peers.get index with lastSeen := some now } }

/-- The peer list, and the hub's description of itself. -/
def decidePeers (state : ServerState) : PeersResponse where
  peers := state.peers.map fun peer => {
    name := peer.name.asStr
    publicKey := peer.publicKey
    address := peer.address.toString }
  hub := some {
    subnet := state.subnet.toString
    serverPublicKey := state.server.publicKey
    serverEndpoint := serverEndpoint state
    serverAddress := state.subnet.serverAddress.toString }

/-- The loop of `authenticate`. Every peer is visited, whatever matches. -/
def visitPeers (offered : TokenHash) (peers : List Peer) (found : Option DeviceName) :
    Option DeviceName :=
  peers.foldl
    (fun found peer => if peer.tokenHash.matches offered then some peer.name else found) found

/-- Finds the device a token belongs to. -/
def authenticate (hashToken : DeviceToken → TokenHash) (state : ServerState)
    (token : DeviceToken) : Except ApiError DeviceName :=
  match visitPeers (hashToken token) state.peers none with
  | some name => .ok name
  | none => .error unauthorized

end Api

/-! `anago code`: issuing a join code. -/

namespace Code

inductive CodeError where
  | random (message : String)
  | noFreeCode (draws : Nat)
  deriving DecidableEq, Repr

def maxDraws : Nat := 8

variable [Unicode]

/-- Draws codes until one is absent from the state file. `draw i` is what the `i`th
draw gives; `left` is how many draws are left of `draws`. -/
def chooseUnusedFrom (state : ServerState) (draw : Nat → Except String JoinCode) (draws : Nat) :
    Nat → Except CodeError JoinCode
  | 0 => .error (.noFreeCode draws)
  | left + 1 =>
    match draw (draws - (left + 1)) with
    | .error e => .error (.random e)
    | .ok candidate =>
      if !state.codes.any fun issued => issued.code = candidate then .ok candidate
      else chooseUnusedFrom state draw draws left

def chooseUnused (state : ServerState) (draw : Nat → Except String JoinCode) (draws : Nat) :
    Except CodeError JoinCode :=
  chooseUnusedFrom state draw draws draws

/-- Appends a freshly issued code. -/
def issue (state : ServerState) (code : JoinCode) (now ttlSecs : Int64) :
    IssuedCode × ServerState :=
  let issued := IssuedCode.issue code now ttlSecs
  (issued, { state with codes := state.codes ++ [issued] })

end Code
