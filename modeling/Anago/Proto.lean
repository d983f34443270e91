import Anago.Json

/-!
# The wire schema

The messages of the control API and the decode helpers shared by everything that
reads JSON here. An error names the field it is about, as a path from the root.
-/

namespace Proto

open StdText Json

inductive DecodeErrorKind where
  | missing
  | wrongType
  | unknownValue
  deriving DecidableEq, Repr

structure DecodeError where
  /-- Empty for the top-level value. -/
  field : String
  kind : DecodeErrorKind
  deriving DecidableEq, Repr

/-- A path under a prefix; the element itself has no path of its own. -/
def reroot (pref field : String) : String := if field.isEmpty then pref else pref ++ "." ++ field

namespace DecodeError

def missing (field : String) : DecodeError := ⟨field, .missing⟩

def wrongType (field : String) : DecodeError := ⟨field, .wrongType⟩

def unknownValue (field : String) : DecodeError := ⟨field, .unknownValue⟩

/-- Re-roots the error under `pref`. -/
def within (e : DecodeError) (pref : String) : DecodeError := ⟨reroot pref e.field, e.kind⟩

def display [Unicode] (e : DecodeError) : String :=
  if e.field.isEmpty then "expected a JSON object"
  else
    match e.kind with
    | .missing => "missing field " ++ debugStr e.field
    | .wrongType => "field " ++ debugStr e.field ++ " has the wrong type"
    | .unknownValue => "field " ++ debugStr e.field ++ " has an unknown value"

end DecodeError

def object (value : Value) : Except DecodeError Object :=
  match value.asObject with
  | some obj => .ok obj
  | none => .error (.wrongType "")

/-- Reads a field that has to be there, through `read`. -/
def field {α : Type} (read : Value → Option α) (obj : Object) (name : String) :
    Except DecodeError α :=
  match Object.get obj name with
  | none => .error (.missing name)
  | some found =>
    match read found with
    | some a => .ok a
    | none => .error (.wrongType name)

def stringField (obj : Object) (name : String) : Except DecodeError String :=
  field Value.asStr obj name

inductive ErrorCode where
  | invalidCode
  | invalidName
  | nameTaken
  | invalidPublicKey
  | subnetFull
  | unauthorized
  | notFound
  | badRequest
  | internal
  deriving DecidableEq, Repr

/-- The wire spelling. -/
def ErrorCode.asStr : ErrorCode → String
  | invalidCode => "invalid_code"
  | invalidName => "invalid_name"
  | nameTaken => "name_taken"
  | invalidPublicKey => "invalid_public_key"
  | subnetFull => "subnet_full"
  | unauthorized => "unauthorized"
  | notFound => "not_found"
  | badRequest => "bad_request"
  | internal => "internal"

/-- Parses a wire spelling; a newer server's code is not mistaken for a known one. -/
def ErrorCode.fromWire (s : String) : Option ErrorCode :=
  match s with
  | "invalid_code" => some invalidCode
  | "invalid_name" => some invalidName
  | "name_taken" => some nameTaken
  | "invalid_public_key" => some invalidPublicKey
  | "subnet_full" => some subnetFull
  | "unauthorized" => some unauthorized
  | "not_found" => some notFound
  | "bad_request" => some badRequest
  | "internal" => some internal
  | _ => none

structure ApiError where
  code : ErrorCode
  message : String
  deriving DecidableEq, Repr

structure JoinRequest where
  code : String
  name : String
  publicKey : String
  deriving DecidableEq, Repr

structure JoinResponse where
  name : String
  address : String
  subnet : String
  token : String
  serverPublicKey : String
  serverEndpoint : String
  serverAddress : String
  deriving DecidableEq, Repr

structure PeerInfo where
  name : String
  publicKey : String
  address : String
  deriving DecidableEq, Repr

structure HubInfo where
  subnet : String
  serverPublicKey : String
  serverEndpoint : String
  serverAddress : String
  deriving DecidableEq, Repr

structure PeersResponse where
  peers : List PeerInfo
  hub : Option HubInfo
  deriving DecidableEq, Repr

def JoinRequest.toJson (r : JoinRequest) : Value :=
  .ofPairs [("code", .str r.code), ("name", .str r.name), ("public_key", .str r.publicKey)]

def JoinRequest.fromJson (value : Value) : Except DecodeError JoinRequest := do
  let obj ← object value
  let code ← stringField obj "code"
  let name ← stringField obj "name"
  let publicKey ← stringField obj "public_key"
  .ok ⟨code, name, publicKey⟩

def JoinResponse.toJson (r : JoinResponse) : Value :=
  .ofPairs [("name", .str r.name), ("address", .str r.address), ("subnet", .str r.subnet),
    ("token", .str r.token), ("server_public_key", .str r.serverPublicKey),
    ("server_endpoint", .str r.serverEndpoint), ("server_address", .str r.serverAddress)]

def JoinResponse.fromJson (value : Value) : Except DecodeError JoinResponse := do
  let obj ← object value
  let name ← stringField obj "name"
  let address ← stringField obj "address"
  let subnet ← stringField obj "subnet"
  let token ← stringField obj "token"
  let serverPublicKey ← stringField obj "server_public_key"
  let serverEndpoint ← stringField obj "server_endpoint"
  let serverAddress ← stringField obj "server_address"
  .ok ⟨name, address, subnet, token, serverPublicKey, serverEndpoint, serverAddress⟩

def PeerInfo.toJson (p : PeerInfo) : Value :=
  .ofPairs [("name", .str p.name), ("public_key", .str p.publicKey), ("address", .str p.address)]

def PeersResponse.toJson (r : PeersResponse) : Value :=
  let peers := Value.arr (r.peers.map PeerInfo.toJson)
  match r.hub with
  | none => .ofPairs [("peers", peers)]
  | some hub =>
    .ofPairs [("peers", peers), ("subnet", .str hub.subnet),
      ("server_public_key", .str hub.serverPublicKey),
      ("server_endpoint", .str hub.serverEndpoint), ("server_address", .str hub.serverAddress)]

def PeerInfo.fromJson (value : Value) : Except DecodeError PeerInfo := do
  let obj ← object value
  let name ← stringField obj "name"
  let publicKey ← stringField obj "public_key"
  let address ← stringField obj "address"
  .ok ⟨name, publicKey, address⟩

/-- The four keys `HubInfo` occupies. -/
def hubFields : List String := ["subnet", "server_public_key", "server_endpoint", "server_address"]

/-- The loop over `peers`: the error of an element is re-rooted at its index. -/
def peersFromJson : Nat → List Value → Except DecodeError (List PeerInfo)
  | _, [] => .ok []
  | i, item :: items => do
    let peer ← (PeerInfo.fromJson item).mapError fun e =>
      e.within ("peers[" ++ String.ofList (DecimalText.showNat i) ++ "]")
    let peers ← peersFromJson (i + 1) items
    .ok (peer :: peers)

/-- What the hub says of itself: all four keys or none. -/
def hubFromJson (obj : Object) : Except DecodeError (Option HubInfo) :=
  match (hubFields.filter fun name => (Object.get obj name).isSome).length with
  | 0 => .ok none
  | 4 => do
    let subnet ← stringField obj "subnet"
    let serverPublicKey ← stringField obj "server_public_key"
    let serverEndpoint ← stringField obj "server_endpoint"
    let serverAddress ← stringField obj "server_address"
    .ok (some ⟨subnet, serverPublicKey, serverEndpoint, serverAddress⟩)
  -- a partial set has at least one absentee
  | _ => .error (.missing ((hubFields.find? fun name => (Object.get obj name).isNone).getD ""))

def PeersResponse.fromJson (value : Value) : Except DecodeError PeersResponse := do
  let obj ← object value
  let items ← field Value.asArray obj "peers"
  let peers ← peersFromJson 0 items
  let hub ← hubFromJson obj
  .ok ⟨peers, hub⟩

def ApiError.toJson (e : ApiError) : Value :=
  .ofPairs [("code", .str e.code.asStr), ("message", .str e.message)]

/-- An unrecognized `code` fails rather than collapsing to `internal`. -/
def ApiError.fromJson (value : Value) : Except DecodeError ApiError := do
  let obj ← object value
  let code ← stringField obj "code"
  let code ←
    match ErrorCode.fromWire code with
    | some code => .ok code
    | none => .error (.unknownValue "code")
  let message ← stringField obj "message"
  .ok ⟨code, message⟩

end Proto
