import Anago.JsonParser
import Anago.State

/-!
# The state file

The schema the server writes (version 2), and the reader of it and of the version
before. Every leaf is read by the parser of the type that owns it; the error of a
nested read is re-rooted on the way up, so that it names the full path.
-/

open StdText DecimalText Json Proto

def schemaVersion : Int64 := 2

/-- Flat `tls_cert_path` and `tls_key_path`, no ACME; still read. -/
def legacySchemaVersion : Int64 := 1

inductive StateError where
  | json (e : Json.Error)
  | shape (e : DecodeError)
  | unsupportedVersion (version : Int64)
  | badValue (field message : String)
  deriving DecidableEq, Repr

namespace StateError

/-- Re-roots a nested error. -/
def within (e : StateError) (pref : String) : StateError :=
  match e with
  | shape e => shape (e.within pref)
  | badValue field message => badValue (reroot pref field) message
  | other => other

/-- `?` on a decode error. -/
def ofDecode {α : Type} (x : Except DecodeError α) : Except StateError α := x.mapError shape

/-- `?` on a decode error that belongs under `pref`. -/
def ofDecodeAt {α : Type} (pref : String) (x : Except DecodeError α) : Except StateError α :=
  x.mapError fun e => shape (e.within pref)

end StateError

open StateError

def optStr : Option String → Value
  | some text => .str text
  | none => .null

def optTime : Option Int64 → Value
  | some at' => .int at'
  | none => .null

def intField (obj : Object) (name : String) : Except DecodeError Int64 :=
  field Value.asI64 obj name

def arrayField (obj : Object) (name : String) : Except DecodeError (List Value) :=
  field Value.asArray obj name

def objectField (obj : Object) (name : String) : Except DecodeError Object :=
  field Value.asObject obj name

/-- A field that is there but may be `null`; a missing one is still an error. -/
def optField {α : Type} (read : Value → Option α) (obj : Object) (name : String) :
    Except DecodeError (Option α) :=
  field (fun found => match found with
    | .null => some none
    | found => (read found).map some) obj name

def optIntField (obj : Object) (name : String) : Except DecodeError (Option Int64) :=
  optField Value.asI64 obj name

def optStringField (obj : Object) (name : String) : Except DecodeError (Option String) :=
  optField Value.asStr obj name

def optObjectField (obj : Object) (name : String) : Except DecodeError (Option Object) :=
  optField Value.asObject obj name

/-- `u16::try_from`. -/
def fitU16 (n : Int64) : Option UInt16 :=
  if 0 ≤ n.toInt ∧ n.toInt < 0x10000 then some (UInt16.ofNat n.toInt.toNat) else none

/-- `i64::from` on a port. -/
def portToI64 (port : UInt16) : Int64 := Int64.ofNat port.toNat

def portField (obj : Object) (name : String) : Except StateError UInt16 := do
  let value ← ofDecode (intField obj name)
  match fitU16 value with
  | some port => .ok port
  | none => .error (.badValue name (String.ofList (showInt value.toInt) ++ " is not a port"))

def Challenge.asStr : Challenge → String
  | http01 => "http-01"
  | dns01 => "dns-01"

def Challenge.parse (text : String) : Option Challenge :=
  if text = "http-01" then some http01
  else if text = "dns-01" then some dns01
  else none

variable [Unicode]

def addressField (obj : Object) (name : String) : Except StateError Ipv4Addr := do
  let text ← ofDecode (stringField obj name)
  match Ipv4Addr.parse text with
  | some address => .ok address
  | none => .error (.badValue name (debugStr text ++ " is not an IPv4 address"))

def acmeToJson (acme : Acme) : Value :=
  .ofPairs [("directory", .str acme.directory), ("contact", optStr acme.contact),
    ("account_key_path", .str acme.accountKeyPath), ("account_url", .str acme.accountUrl),
    ("challenge", .str acme.challenge.asStr), ("issued_at", .int acme.issuedAt),
    ("renew_after", .int acme.renewAfter)]

def acmeFromJson (obj : Object) : Except StateError Acme := do
  let challenge ← ofDecodeAt "tls.acme" (stringField obj "challenge")
  let directory ← ofDecodeAt "tls.acme" (stringField obj "directory")
  let contact ← ofDecodeAt "tls.acme" (optStringField obj "contact")
  let accountKeyPath ← ofDecodeAt "tls.acme" (stringField obj "account_key_path")
  let accountUrl ← ofDecodeAt "tls.acme" (stringField obj "account_url")
  let challenge ← match Challenge.parse challenge with
    | some challenge => .ok challenge
    | none => .error (.badValue "tls.acme.challenge"
        (debugStr challenge ++ " is not \"http-01\" or \"dns-01\""))
  let issuedAt ← ofDecodeAt "tls.acme" (intField obj "issued_at")
  let renewAfter ← ofDecodeAt "tls.acme" (intField obj "renew_after")
  .ok ⟨directory, contact, accountKeyPath, accountUrl, challenge, issuedAt, renewAfter⟩

def tlsToJson (tls : Tls) : Value :=
  let (source, acme) := match tls.source with
    | .manual => ("manual", Value.null)
    | .acme acme => ("acme", acmeToJson acme)
  .ofPairs [("source", .str source), ("cert_path", .str tls.certPath),
    ("key_path", .str tls.keyPath), ("not_after", optTime tls.notAfter), ("acme", acme)]

/-- The source and the ACME details have to agree. -/
def tlsSourceFromJson (source : String) (acme : Option Object) : Except StateError TlsSource :=
  if source = "manual" then
    match acme with
    | none => .ok .manual
    | some _ => .error (.badValue "tls.acme"
        "source is \"manual\" but acme details are present")
  else if source = "acme" then
    match acme with
    | some found => (acmeFromJson found).map .acme
    | none => .error (.badValue "tls.acme" "source is \"acme\" but acme details are null")
  else .error (.badValue "tls.source" (debugStr source ++ " is not \"manual\" or \"acme\""))

def tlsFromJson (obj : Object) (version : Int64) : Except StateError Tls :=
  if version = legacySchemaVersion then do
    let certPath ← ofDecode (stringField obj "tls_cert_path")
    let keyPath ← ofDecode (stringField obj "tls_key_path")
    .ok (Tls.manual certPath keyPath)
  else do
    let tls ← ofDecode (objectField obj "tls")
    let source ← ofDecodeAt "tls" (stringField tls "source")
    let acme ← ofDecodeAt "tls" (optObjectField tls "acme")
    let source ← tlsSourceFromJson source acme
    let certPath ← ofDecodeAt "tls" (stringField tls "cert_path")
    let keyPath ← ofDecodeAt "tls" (stringField tls "key_path")
    let notAfter ← ofDecodeAt "tls" (optIntField tls "not_after")
    .ok ⟨certPath, keyPath, notAfter, source⟩

def cloudflareToJson : Option Cloudflare → Value
  | none => .null
  | some cf => .ofPairs [("zone_id", .str cf.zoneId), ("record_id", optStr cf.recordId),
      ("token_path", optStr cf.tokenPath)]

def cloudflareFromJson (obj : Object) (version : Int64) : Except StateError (Option Cloudflare) :=
  if version = legacySchemaVersion then .ok none
  else do
    match ← ofDecode (optObjectField obj "cloudflare") with
    | none => .ok none
    | some cf =>
      let zoneId ← ofDecodeAt "cloudflare" (stringField cf "zone_id")
      let recordId ← ofDecodeAt "cloudflare" (optStringField cf "record_id")
      let tokenPath ← ofDecodeAt "cloudflare" (optStringField cf "token_path")
      .ok (some ⟨zoneId, recordId, tokenPath⟩)

def peerToJson (peer : Peer) : Value :=
  .ofPairs [("name", .str peer.name.asStr), ("public_key", .str peer.publicKey),
    ("address", .str peer.address.toString), ("token_hash", .str peer.tokenHash.asStr),
    ("created_at", .int peer.createdAt), ("last_seen", optTime peer.lastSeen)]

def peerFromJson (value : Value) : Except StateError Peer := do
  let obj ← ofDecode (object value)
  let name ← ofDecode (stringField obj "name")
  let tokenHash ← ofDecode (stringField obj "token_hash")
  let name ← (DeviceName.parse name).mapError fun e => .badValue "name" e.display
  let publicKey ← ofDecode (stringField obj "public_key")
  let address ← addressField obj "address"
  let tokenHash ← (TokenHash.parse tokenHash).mapError fun e => .badValue "token_hash" e.display
  let createdAt ← ofDecode (intField obj "created_at")
  let lastSeen ← ofDecode (optIntField obj "last_seen")
  .ok ⟨name, publicKey, address, tokenHash, createdAt, lastSeen⟩

def codeToJson (code : IssuedCode) : Value :=
  .ofPairs [("code", .str code.code.asStr), ("issued_at", .int code.issuedAt),
    ("expires_at", .int code.expiresAt), ("used_at", optTime code.usedAt)]

def codeFromJson (value : Value) : Except StateError IssuedCode := do
  let obj ← ofDecode (object value)
  let code ← ofDecode (stringField obj "code")
  let code ← (JoinCode.parse code).mapError fun e => .badValue "code" e.display
  let issuedAt ← ofDecode (intField obj "issued_at")
  let expiresAt ← ofDecode (intField obj "expires_at")
  let usedAt ← ofDecode (optIntField obj "used_at")
  .ok ⟨code, issuedAt, expiresAt, usedAt⟩

def serverToJson (server : ServerKeys) : Value :=
  .ofPairs [("private_key", .str server.privateKey.text), ("public_key", .str server.publicKey),
    ("address", .str server.address.toString)]

def serverFromJson (value : Value) : Except StateError ServerKeys := do
  let obj ← ofDecodeAt "server" (object value)
  let privateKey ← ofDecodeAt "server" (stringField obj "private_key")
  let publicKey ← ofDecodeAt "server" (stringField obj "public_key")
  let address ← (addressField obj "address").mapError fun e => e.within "server"
  .ok ⟨⟨privateKey⟩, publicKey, address⟩

/-- The loops over `peers` and `codes`: each element is read, and its error re-rooted
at its index. -/
def itemsFromJson {α : Type} (name : String) (read : Value → Except StateError α) :
    Nat → List Value → Except StateError (List α)
  | _, [] => .ok []
  | i, item :: items => do
    let a ← (read item).mapError fun e =>
      e.within (name ++ "[" ++ String.ofList (showNat i) ++ "]")
    let rest ← itemsFromJson name read (i + 1) items
    .ok (a :: rest)

namespace ServerState

def toJson (state : ServerState) : Value :=
  .ofPairs [("version", .int schemaVersion), ("domain", .str state.domain),
    ("subnet", .str state.subnet.toString), ("listen_port", .int (portToI64 state.listenPort)),
    ("api_port", .int (portToI64 state.apiPort)), ("tls", tlsToJson state.tls),
    ("cloudflare", cloudflareToJson state.cloudflare), ("server", serverToJson state.server),
    ("peers", .arr (state.peers.map peerToJson)), ("codes", .arr (state.codes.map codeToJson))]

/-- The text that goes on disk. -/
def toJsonString (state : ServerState) : String := toStringPretty state.toJson

def fromJson (value : Value) : Except StateError ServerState := do
  let obj ← ofDecode (object value)
  let version ← ofDecode (intField obj "version")
  if version ≠ schemaVersion ∧ version ≠ legacySchemaVersion then
    .error (.unsupportedVersion version)
  else
    let subnetText ← ofDecode (stringField obj "subnet")
    let subnet ← (Subnet.parse subnetText).mapError fun e => .badValue "subnet" e.display
    let found ← ofDecode (field some obj "server")
    let server ← serverFromJson found
    if server.address ≠ subnet.serverAddress then
      .error (.badValue "server.address" (server.address.toString ++ " is not " ++
        subnet.toString ++ "'s .1 address"))
    else
      let items ← ofDecode (arrayField obj "peers")
      let peers ← itemsFromJson "peers" peerFromJson 0 items
      let items ← ofDecode (arrayField obj "codes")
      let codes ← itemsFromJson "codes" codeFromJson 0 items
      let domain ← ofDecode (stringField obj "domain")
      let listenPort ← portField obj "listen_port"
      let apiPort ← portField obj "api_port"
      let tls ← tlsFromJson obj version
      let cloudflare ← cloudflareFromJson obj version
      .ok ⟨domain, subnet, listenPort, apiPort, tls, cloudflare, server, peers, codes⟩

/-- Reads the file's text. -/
def parse (text : String) : Outcome StateError ServerState := do
  let value ← (Json.parse text).mapErr .json
  Outcome.ofExcept (fromJson value)

end ServerState
