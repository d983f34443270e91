import Anago.ClientConf
import Anago.StateCodec

/-!
# What a device keeps of its hub

The device file, and the one place where the hub's answer to a join is read: nothing of
it reaches a config file that has not been parsed.
-/

open StdText DecimalText Json Proto WgConf

inductive JoinError where
  /-- Something this build cannot read, or will not put in a config file. -/
  | badResponse (detail : String)
  | deviceFile (detail : String)
  deriving DecidableEq, Repr

def JoinError.display : JoinError → String
  | badResponse detail => "the hub's answer made no sense: " ++ detail
  | deviceFile detail => "device file: " ++ detail

namespace StdText

/-- `str::rsplit_once`. -/
def rsplitOnce (c : Char) (text : List Char) : Option (List Char × List Char) :=
  (Subnet.splitOnce c text.reverse).map fun (after, before) => (before.reverse, after.reverse)

/-- `str::parse::<u16>`. -/
def parseU16 (cs : List Char) : Option UInt16 :=
  (parseUnsigned cs).bind fun n => if n < 65536 then some (UInt16.ofNat n) else none

/-- `Option::ok_or`. -/
def okOr {ε α : Type} (found : Option α) (refusal : ε) : Except ε α :=
  match found with
  | some a => .ok a
  | none => .error refusal

theorem parseU16_showNat (n : UInt16) : parseU16 (showNat n.toNat) = some n := by
  rw [parseU16, parseUnsigned_showNat, Option.bind_some, if_pos n.toNat_lt]
  exact congrArg some (UInt16.ofNat_toNat)

/-- The last occurrence is the one with none after it. -/
theorem rsplitOnce_append {c : Char} {before after : List Char} (h : c ∉ after) :
    rsplitOnce c (before ++ c :: after) = some (before, after) := by
  have reversed : (before ++ c :: after).reverse = after.reverse ++ c :: before.reverse := by simp
  rw [rsplitOnce, reversed, Subnet.splitOnce_append (by rwa [List.mem_reverse])]
  simp

end StdText

/-- What a joined device keeps. -/
structure DeviceConfig where
  domain : String
  apiPort : UInt16
  name : String
  address : String
  subnet : String
  token : String
  serverPublicKey : String
  serverEndpoint : String
  serverAddress : String
  deriving DecidableEq, Repr

def isHostChar (c : Char) : Bool := c.isAlphanum || c = '-' || c = '.'

section
variable [Unicode]

/-- Parses `host:port` strictly and gives it back canonical. -/
def checkedEndpoint (text : String) : Except JoinError String :=
  let bad (why : String) : Except JoinError String :=
    .error (.badResponse ("server endpoint " ++ debugStr text ++ ": " ++ why))
  match rsplitOnce ':' text.toList with
  | none => bad "expected host:port"
  | some (host, port) =>
    if host = [] then bad "no host"
    else if ¬host.all isHostChar then bad "the host is not a hostname"
    else
      match parseU16 port with
      | none => bad "the port is not a number"
      | some port =>
        if port = 0 then bad "port 0 is not a port"
        else .ok (String.ofList (host ++ ':' :: showNat port.toNat))

namespace DeviceConfig

/-- Schema version of `device.json`. -/
def schemaVersion : Int64 := 1

/-- What to say about a device file from before `api_port` was stored. -/
def missingPort : String :=
  "no api_port — this file was written by an earlier build that did not record which port it " ++
    "joined on. Add \"api_port\": <port> to this file: the port the hub serves its API on, " ++
    "which is 443 unless `server init --api-port` said otherwise"

/-- Built from the hub's answer plus the domain the person typed. -/
def fromResponse (domain : String) (apiPort : UInt16) (response : JoinResponse) : DeviceConfig where
  domain := domain
  apiPort := apiPort
  name := response.name
  address := response.address
  subnet := response.subnet
  token := response.token
  serverPublicKey := response.serverPublicKey
  serverEndpoint := response.serverEndpoint
  serverAddress := response.serverAddress

def toJson (config : DeviceConfig) : Value :=
  .ofPairs [("version", .int schemaVersion), ("domain", .str config.domain),
    ("api_port", .int (portToI64 config.apiPort)), ("name", .str config.name),
    ("address", .str config.address), ("subnet", .str config.subnet), ("token", .str config.token),
    ("server_public_key", .str config.serverPublicKey),
    ("server_endpoint", .str config.serverEndpoint), ("server_address", .str config.serverAddress)]

def toJsonString (config : DeviceConfig) : String := toStringPretty config.toJson

/-- `?` on a decode error. -/
def ofDecode {α : Type} (x : Except DecodeError α) : Except JoinError α :=
  x.mapError fun e => .deviceFile e.display

/-- The port has to be there and has to be one. -/
def portFromJson (obj : Object) : Except JoinError UInt16 :=
  match Object.get obj "api_port" with
  | none => .error (.deviceFile missingPort)
  | some found =>
    match (found.asI64.bind fitU16).filter (0 < ·) with
    | some port => .ok port
    | none => .error (.deviceFile "api_port is not a port")

def fromJson (value : Value) : Except JoinError DeviceConfig := do
  let obj ← ofDecode (object value)
  match (Object.get obj "version").bind Value.asI64 with
  | none => .error (.deviceFile "no version")
  | some version =>
    if version ≠ schemaVersion then
      .error (.deviceFile ("device file is version " ++ String.ofList (showInt version.toInt) ++
        ", this build writes " ++ String.ofList (showInt schemaVersion.toInt)))
    else
      let apiPort ← portFromJson obj
      let domain ← ofDecode (stringField obj "domain")
      let name ← ofDecode (stringField obj "name")
      let address ← ofDecode (stringField obj "address")
      let subnet ← ofDecode (stringField obj "subnet")
      let token ← ofDecode (stringField obj "token")
      let serverPublicKey ← ofDecode (stringField obj "server_public_key")
      let serverEndpoint ← ofDecode (stringField obj "server_endpoint")
      let serverAddress ← ofDecode (stringField obj "server_address")
      .ok ⟨domain, apiPort, name, address, subnet, token, serverPublicKey, serverEndpoint,
        serverAddress⟩

/-- Reads a device file back. -/
def parse (text : String) : Outcome JoinError DeviceConfig := do
  let value ← (Json.parse text).mapErr fun e => .deviceFile e.display
  .ofExcept (fromJson value)

/-- The config this device should run. Every field is parsed, not copied. -/
def profile (config : DeviceConfig) (privateKey : PrivateKey) : Except JoinError ClientProfile := do
  let address ← okOr (Ipv4Addr.parse config.address)
    (.badResponse (debugStr config.address ++ " is not an address"))
  let subnet ← (Subnet.parse config.subnet).mapError fun e => .badResponse ("subnet: " ++ e.display)
  let serverPublicKey ← (parseKey config.serverPublicKey).mapError fun e =>
    .badResponse ("server public key: " ++ e.display)
  let serverEndpoint ← checkedEndpoint config.serverEndpoint
  .ok ⟨address, subnet, privateKey, serverPublicKey, serverEndpoint⟩

/-- Checks the fields that never reach the wg config but do reach later commands. -/
def validate (config : DeviceConfig) : Except JoinError Unit := do
  let _ ← (DeviceName.parse config.name).mapError fun e => .badResponse ("name: " ++ e.display)
  let _ ← (DeviceToken.parse config.token).mapError fun e => .badResponse ("token: " ++ e.display)
  let _ ← okOr (Ipv4Addr.parse config.serverAddress)
    (.badResponse (debugStr config.serverAddress ++ " is not the server's address"))
  .ok ()

end DeviceConfig

namespace Join

/-- The hub's answer, decoded and checked, with this device's key in it. -/
def accepted (body domain : String) (apiPort : UInt16) (privateKey : PrivateKey) :
    Outcome JoinError (DeviceConfig × ClientProfile) := do
  let value ← (Json.parse body).mapErr fun e => .badResponse e.display
  let answer ← .ofExcept ((JoinResponse.fromJson value).mapError fun e => .badResponse e.display)
  let config := DeviceConfig.fromResponse domain apiPort answer
  .ofExcept config.validate
  let profile ← .ofExcept (config.profile privateKey)
  .ok (config, profile)

end Join

end
