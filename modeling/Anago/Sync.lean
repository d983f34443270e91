import Anago.Device

/-!
# What `anago sync` decides

A device compares what its own file says with what the hub says of itself. The values of
the hub are checked before they are believed, exactly as a join checks them.
-/

open StdText DecimalText Json Proto WgConf

namespace Sync

variable [Unicode]

/-- What this device believes. -/
structure Local where
  name : DeviceName
  address : Ipv4Addr
  subnet : Subnet
  serverPublicKey : String
  serverEndpoint : String
  serverAddress : Ipv4Addr
  deriving DecidableEq

/-- What the hub says about itself. -/
structure Reported where
  subnet : Subnet
  serverPublicKey : String
  serverEndpoint : String
  serverAddress : Ipv4Addr
  deriving DecidableEq

/-- One device on the hub's roster. -/
structure Member where
  name : DeviceName
  address : Ipv4Addr
  deriving DecidableEq

/-- Which of the hub's values moved. -/
structure Changes where
  serverPublicKey : Bool
  serverEndpoint : Bool
  serverAddress : Bool
  deriving DecidableEq, Repr

def Changes.any (changes : Changes) : Bool :=
  changes.serverPublicKey || changes.serverEndpoint || changes.serverAddress

/-- The `changes` of `decide`. -/
def changesOf (own : Local) (reported : Reported) : Changes where
  serverPublicKey := reported.serverPublicKey ≠ own.serverPublicKey
  serverEndpoint := reported.serverEndpoint ≠ own.serverEndpoint
  serverAddress := reported.serverAddress ≠ own.serverAddress

/-- Why this device no longer fits. -/
inductive Detachment where
  /-- A 401; the caller's, never `decide`'s. -/
  | unauthorized
  | removed
  | reassigned (theirs : Ipv4Addr)
  | subnetChanged (theirs : Subnet)
  deriving DecidableEq

/-- What to do about the hub's answer: the source's `Sync`. -/
inductive Verdict where
  | unchanged
  | unverifiable
  | rewrite (changes : Changes)
  | detached (detachment : Detachment)
  deriving DecidableEq

/-- Compares what the device believes against what the hub just said. -/
def decide (own : Local) (reported : Option Reported) (roster : List Member) : Verdict :=
  match reported.filter fun reported => reported.subnet ≠ own.subnet with
  | some reported => .detached (.subnetChanged reported.subnet)
  | none =>
    match roster.find? fun member => member.name = own.name with
    | none => .detached .removed
    | some member =>
      if member.address ≠ own.address then .detached (.reassigned member.address)
      else
        match reported with
        | none => .unverifiable
        | some reported =>
          let changes := changesOf own reported
          if changes.any then .rewrite changes else .unchanged

inductive SyncError where
  | unreachable (detail : String)
  /-- Another run holds the lock. -/
  | busy
  | untrusted (detail : String)
  | detached (detachment : Detachment)
  | noDeviceFile (path detail : String)
  | deviceFile (detail : String)
  | badResponse (detail : String)
  | refused (detail : String)
  | noPrivateKey (path detail : String)
  | write (path detail : String)
  | apply (detail : String)
  deriving DecidableEq

/-- What this device believes, from its own file. -/
def localOf (config : DeviceConfig) : Except SyncError Local := do
  let wrong (what detail : String) : SyncError := .deviceFile (what ++ ": " ++ detail)
  let notAddress (text : String) := debugStr text ++ " is not an IPv4 address"
  let name ← (DeviceName.parse config.name).mapError fun e => wrong "name" e.display
  let address ← okOr (Ipv4Addr.parse config.address) (wrong "address" (notAddress config.address))
  let subnet ← (Subnet.parse config.subnet).mapError fun e => wrong "subnet" e.display
  let serverAddress ← okOr (Ipv4Addr.parse config.serverAddress)
    (wrong "server_address" (notAddress config.serverAddress))
  .ok ⟨name, address, subnet, config.serverPublicKey, config.serverEndpoint, serverAddress⟩

/-- What the hub said about itself, `none` from one that says nothing. -/
def reportedOf (response : PeersResponse) : Except SyncError (Option Reported) :=
  match response.hub with
  | none => .ok none
  | some hub => do
    let bad (what detail : String) : SyncError := .badResponse (what ++ ": " ++ detail)
    let subnet ← (Subnet.parse hub.subnet).mapError fun e => bad "subnet" e.display
    let serverPublicKey ← (parseKey hub.serverPublicKey).mapError fun e =>
      bad "server_public_key" e.display
    let serverEndpoint ← (checkedEndpoint hub.serverEndpoint).mapError fun e =>
      bad "server_endpoint" e.display
    let serverAddress ← okOr (Ipv4Addr.parse hub.serverAddress)
      (bad "server_address" (debugStr hub.serverAddress ++ " is not an IPv4 address"))
    .ok (some ⟨subnet, serverPublicKey, serverEndpoint, serverAddress⟩)

/-- The roster, reduced to what identifies a device. -/
def rosterOf (response : PeersResponse) : Except SyncError (List Member) :=
  response.peers.mapM fun peer => do
    let name ← (DeviceName.parse peer.name).mapError fun e =>
      .badResponse ("peer name: " ++ e.display)
    let address ← okOr (Ipv4Addr.parse peer.address)
      (.badResponse (debugStr peer.address ++ " is not an IPv4 address"))
    .ok ⟨name, address⟩

/-- The body of the hub's answer. -/
def heard (body : String) : Outcome SyncError PeersResponse := do
  let value ← (Json.parse body).mapErr fun e => .badResponse e.display
  .ofExcept ((PeersResponse.fromJson value).mapError fun e => .badResponse e.display)

/-- `device.json` with the hub's current values. -/
def updated (config : DeviceConfig) (reported : Option Reported) : DeviceConfig :=
  match reported with
  | none => config
  | some reported => { config with
      serverPublicKey := reported.serverPublicKey
      serverEndpoint := reported.serverEndpoint
      serverAddress := reported.serverAddress.toString }

/-- The profile the new config is rendered from. -/
def profileOf (config : DeviceConfig) (privateKey : PrivateKey) :
    Except SyncError ClientProfile := do
  let own ← localOf config
  .ok ⟨own.address, own.subnet, privateKey, config.serverPublicKey, config.serverEndpoint⟩

/-- The hub says of itself what the device's file says of it. -/
def Agrees (own : Local) (reported : Reported) : Prop :=
  reported.subnet = own.subnet ∧ reported.serverPublicKey = own.serverPublicKey ∧
    reported.serverEndpoint = own.serverEndpoint ∧ reported.serverAddress = own.serverAddress

/-- The roster has the device where its file has it. -/
def Listed (own : Local) (roster : List Member) : Prop :=
  ∃ member, roster.find? (fun member => member.name = own.name) = some member ∧
    member.address = own.address

/-- A verdict is about the device's place on the hub, or compares what the hub describes. -/
theorem decide_cases (own : Local) (reported : Option Reported) (roster : List Member) :
    (∃ detachment, Sync.decide own reported roster = .detached detachment) ∨
      (reported = none ∧ Sync.decide own reported roster = .unverifiable) ∨
        ∃ known, reported = some known ∧ known.subnet = own.subnet ∧ Listed own roster ∧
          Sync.decide own reported roster =
            if (changesOf own known).any then .rewrite (changesOf own known) else .unchanged := by
  rw [Sync.decide.eq_def]
  split
  · exact Or.inl ⟨_, rfl⟩
  next same =>
    split
    · exact Or.inl ⟨_, rfl⟩
    next member listed =>
      split
      · exact Or.inl ⟨_, rfl⟩
      next address =>
        cases reported with
        | none => exact Or.inr (Or.inl ⟨rfl, rfl⟩)
        | some known =>
          have subnet : known.subnet = own.subnet := by
            by_contra differs
            rw [Option.filter_some, if_pos (decide_eq_true differs)] at same
            cases same
          exact Or.inr (Or.inr ⟨known, rfl, subnet, ⟨member, listed, not_not.mp address⟩, rfl⟩)

theorem known_of_rewrite {own : Local} {reported : Option Reported} {roster : List Member}
    {changes : Changes} (h : Sync.decide own reported roster = .rewrite changes) :
    ∃ known, reported = some known ∧ known.subnet = own.subnet ∧ changes = changesOf own known := by
  rcases decide_cases own reported roster with ⟨_, heq⟩ | ⟨_, heq⟩ | ⟨known, hknown, subnet, _, heq⟩
  · cases h.symm.trans heq
  · cases h.symm.trans heq
  · rw [h] at heq
    split at heq
    · cases heq
      exact ⟨known, hknown, subnet, rfl⟩
    · cases heq

theorem known_of_unchanged {own : Local} {reported : Option Reported} {roster : List Member}
    (h : Sync.decide own reported roster = .unchanged) :
    ∃ known, reported = some known ∧ Agrees own known ∧ Listed own roster := by
  rcases decide_cases own reported roster with ⟨_, heq⟩ | ⟨_, heq⟩ | ⟨known, hknown,
    subnet, listed, heq⟩
  · cases h.symm.trans heq
  · cases h.symm.trans heq
  · rw [h] at heq
    split at heq
    · cases heq
    next still =>
      refine ⟨known, hknown, ⟨subnet, ?_⟩, listed⟩
      simpa [Changes.any, changesOf, and_assoc] using still

end Sync
