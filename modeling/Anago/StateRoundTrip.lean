import Anago.Init
import Anago.JsonRoundTrip
import Anago.StateCodec

/-!
# The state file keeps the whole state

The encoder and the decoder are two passes over one schema. Each leaf parser reads
what its type writes, each pair of passes is inverse, and the text in between is a
document the JSON parser accepts.
-/

open StdText DecimalText Json Proto StateError

@[simp] theorem ofDecode_ok {α : Type} (a : α) : ofDecode (.ok a) = .ok a := rfl

@[simp] theorem ofDecodeAt_ok {α : Type} (pref : String) (a : α) :
    ofDecodeAt pref (.ok a) = .ok a := rfl

theorem fitU16_portToI64 (port : UInt16) : fitU16 (portToI64 port) = some port := by
  have hp : port.toNat < 2 ^ 16 := port.toNat_lt
  have hi : (portToI64 port).toInt = port.toNat := Int64.toInt_ofNat_of_lt (by omega)
  rw [fitU16, hi, if_pos ⟨by omega, by omega⟩, Int.toNat_natCast, UInt16.ofNat_toNat]

theorem challenge_parse_asStr (c : Challenge) : Challenge.parse c.asStr = some c := by
  cases c <;> rfl

section Fields

variable {obj : Object} (name : String)

theorem stringField_of_get {s : String} (h : Object.get obj name = some (.str s)) :
    stringField obj name = .ok s := by
  simp [stringField, field, h, Value.asStr]

theorem intField_of_get {n : Int64} (h : Object.get obj name = some (.int n)) :
    intField obj name = .ok n := by
  simp [intField, field, h, Value.asI64]

theorem optStringField_of_get {s : Option String} (h : Object.get obj name = some (optStr s)) :
    optStringField obj name = .ok s := by
  cases s <;> simp [optStringField, optField, field, h, optStr, Value.asStr]

theorem optIntField_of_get {n : Option Int64} (h : Object.get obj name = some (optTime n)) :
    optIntField obj name = .ok n := by
  cases n <;> simp [optIntField, optField, field, h, optTime, Value.asI64]

theorem arrayField_of_get {items : List Value} (h : Object.get obj name = some (.arr items)) :
    arrayField obj name = .ok items := by
  simp [arrayField, field, h, Value.asArray]

theorem portField_of_get {port : UInt16} (h : Object.get obj name = some (.int (portToI64 port))) :
    portField obj name = .ok port := by
  rw [portField, intField_of_get name h]
  simp [fitU16_portToI64, bind, Except.bind]

theorem addressField_of_get [Unicode] {addr : Ipv4Addr}
    (h : Object.get obj name = some (.str addr.toString)) : addressField obj name = .ok addr := by
  rw [addressField, stringField_of_get name h]
  simp [bind, Except.bind]

end Fields

theorem except_bind_eq_ok {ε α β : Type} {x : Except ε α} {f : α → Except ε β} {b : β}
    (h : (x >>= f) = .ok b) : ∃ a, x = .ok a ∧ f a = .ok b := by
  cases x with
  | error e => cases h
  | ok a => exact ⟨a, rfl, h⟩

@[simp] theorem except_ok_bind {ε α β : Type} (a : α) (f : α → Except ε β) :
    ((Except.ok a : Except ε α) >>= f) = f a := rfl

theorem cloudflareFromJson_toJson {obj : Object} {cf : Option Cloudflare}
    (h : Object.get obj "cloudflare" = some (cloudflareToJson cf)) :
    cloudflareFromJson obj schemaVersion = .ok cf := by
  rw [cloudflareFromJson, if_neg (by decide), optObjectField, optField, field, h]
  cases cf with
  | none => rfl
  | some cf =>
    simp only [cloudflareToJson, Value.ofPairs, Value.asObject, Option.map_some, ofDecode_ok,
      except_ok_bind]
    rw [stringField_of_get "zone_id" (by simp [Object.get]; rfl),
      optStringField_of_get "record_id" (by simp [Object.get]; rfl),
      optStringField_of_get "token_path" (by simp [Object.get]; rfl)]
    rfl

theorem object_ofPairs (pairs : List (String × Value)) (distinct : (pairs.map Prod.fst).Nodup) :
    object (.ofPairs pairs distinct) = .ok pairs := rfl

theorem itemsFromJson_map {α : Type} (name : String) {read : Value → Except StateError α}
    {write : α → Value} (inverse : ∀ a, read (write a) = .ok a) (i : Nat) (as : List α) :
    itemsFromJson name read i (as.map write) = .ok as := by
  induction as generalizing i with
  | nil => rfl
  | cons a as ih => simp [itemsFromJson, inverse, ih, Except.mapError]

section
variable [Unicode]

theorem acmeFromJson_toJson (acme : Acme) :
    ∃ obj, acmeToJson acme = .obj obj ∧ acmeFromJson obj = .ok acme := by
  refine ⟨_, rfl, ?_⟩
  rw [acmeFromJson, stringField_of_get "challenge" (by simp [Object.get]; rfl),
    stringField_of_get "directory" (by simp [Object.get]; rfl),
    optStringField_of_get "contact" (by simp [Object.get]; rfl),
    stringField_of_get "account_key_path" (by simp [Object.get]; rfl),
    stringField_of_get "account_url" (by simp [Object.get]; rfl),
    intField_of_get "issued_at" (by simp [Object.get]; rfl),
    intField_of_get "renew_after" (by simp [Object.get]; rfl)]
  simp [challenge_parse_asStr]

theorem tlsSourceFromJson_manual : tlsSourceFromJson "manual" none = .ok .manual := rfl

theorem tlsSourceFromJson_acme {acme : Acme} {obj : Object} (h : acmeFromJson obj = .ok acme) :
    tlsSourceFromJson "acme" (some obj) = .ok (.acme acme) := by
  rw [tlsSourceFromJson, if_neg (by decide), if_pos rfl]
  simp only [h]
  rfl

theorem tlsFromJson_toJson {obj : Object} {tls : Tls}
    (h : Object.get obj "tls" = some (tlsToJson tls)) :
    tlsFromJson obj schemaVersion = .ok tls := by
  obtain ⟨certPath, keyPath, notAfter, source⟩ := tls
  rw [tlsFromJson, if_neg (by decide), objectField, field, h]
  cases source with
  | manual =>
    simp only [tlsToJson, Value.ofPairs, Value.asObject, ofDecode_ok, except_ok_bind]
    rw [stringField_of_get "source" (by simp [Object.get]; rfl),
      stringField_of_get "cert_path" (by simp [Object.get]; rfl),
      stringField_of_get "key_path" (by simp [Object.get]; rfl),
      optIntField_of_get "not_after" (by simp [Object.get]; rfl)]
    simp [optObjectField, optField, field, Object.get, tlsSourceFromJson_manual]
  | acme acme =>
    obtain ⟨acmeObj, hjson, hread⟩ := acmeFromJson_toJson acme
    simp only [tlsToJson, Value.ofPairs, Value.asObject, ofDecode_ok, except_ok_bind, hjson]
    rw [stringField_of_get "source" (by simp [Object.get]; rfl),
      stringField_of_get "cert_path" (by simp [Object.get]; rfl),
      stringField_of_get "key_path" (by simp [Object.get]; rfl),
      optIntField_of_get "not_after" (by simp [Object.get]; rfl)]
    simp [optObjectField, optField, field, Object.get, Value.asObject,
      tlsSourceFromJson_acme hread]

theorem peerFromJson_toJson (peer : Peer) : peerFromJson (peerToJson peer) = .ok peer := by
  rw [peerFromJson, peerToJson, object_ofPairs, ofDecode_ok, except_ok_bind,
    stringField_of_get "name" (by simp [Object.get]; rfl),
    stringField_of_get "token_hash" (by simp [Object.get]; rfl),
    stringField_of_get "public_key" (by simp [Object.get]; rfl),
    addressField_of_get "address" (by simp [Object.get]; rfl),
    intField_of_get "created_at" (by simp [Object.get]; rfl),
    optIntField_of_get "last_seen" (by simp [Object.get]; rfl)]
  simp [Except.mapError]

theorem codeFromJson_toJson (code : IssuedCode) : codeFromJson (codeToJson code) = .ok code := by
  rw [codeFromJson, codeToJson, object_ofPairs, ofDecode_ok, except_ok_bind,
    stringField_of_get "code" (by simp [Object.get]; rfl),
    intField_of_get "issued_at" (by simp [Object.get]; rfl),
    intField_of_get "expires_at" (by simp [Object.get]; rfl),
    optIntField_of_get "used_at" (by simp [Object.get]; rfl)]
  simp [Except.mapError]

theorem serverFromJson_toJson (server : ServerKeys) :
    serverFromJson (serverToJson server) = .ok server := by
  rw [serverFromJson, serverToJson, object_ofPairs, ofDecodeAt_ok, except_ok_bind,
    stringField_of_get "private_key" (by simp [Object.get]; rfl),
    stringField_of_get "public_key" (by simp [Object.get]; rfl),
    addressField_of_get "address" (by simp [Object.get]; rfl)]
  simp [Except.mapError]

/-- The decoder undoes the encoder. -/
theorem fromJson_toJson (state : ServerState)
    (home : state.server.address = state.subnet.serverAddress) :
    ServerState.fromJson state.toJson = .ok state := by
  have hserver : ∀ obj : Object, Object.get obj "server" = some (serverToJson state.server) →
      field some obj "server" = .ok (serverToJson state.server) := by
    intro obj h
    rw [field, h]
  rw [ServerState.fromJson, ServerState.toJson, object_ofPairs, ofDecode_ok, except_ok_bind,
    intField_of_get "version" (by simp [Object.get]; rfl), ofDecode_ok, except_ok_bind,
    if_neg (by decide),
    stringField_of_get "subnet" (by simp [Object.get]; rfl),
    hserver _ (by simp [Object.get]),
    arrayField_of_get "peers" (by simp [Object.get]; rfl),
    arrayField_of_get "codes" (by simp [Object.get]; rfl),
    stringField_of_get "domain" (by simp [Object.get]; rfl),
    portField_of_get "listen_port" (by simp [Object.get]; rfl),
    portField_of_get "api_port" (by simp [Object.get]; rfl),
    tlsFromJson_toJson (by simp [Object.get]; rfl),
    cloudflareFromJson_toJson (by simp [Object.get]; rfl)]
  simp [Except.mapError, serverFromJson_toJson, home,
    itemsFromJson_map "peers" peerFromJson_toJson, itemsFromJson_map "codes" codeFromJson_toJson]

end

namespace Json.Value

@[simp] theorem built_optStr (s : Option String) : (optStr s).Built := by
  cases s <;> simp [optStr, Built]

@[simp] theorem built_optTime (n : Option Int64) : (optTime n).Built := by
  cases n <;> simp [optTime, Built]

@[simp] theorem depth_optStr (s : Option String) : (optStr s).depth = 0 := by
  cases s <;> simp [optStr, depth]

@[simp] theorem depth_optTime (n : Option Int64) : (optTime n).depth = 0 := by
  cases n <;> simp [optTime, depth]

theorem builtItems_map {α : Type} {f : α → Value} (h : ∀ a, (f a).Built) (as : List α) :
    BuiltItems (as.map f) := by
  induction as with
  | nil => exact trivial
  | cons a as ih => exact ⟨h a, ih⟩

theorem depthItems_map {α : Type} {f : α → Value} {n : Nat} (h : ∀ a, (f a).depth ≤ n)
    (as : List α) : depthItems (as.map f) ≤ n + 1 := by
  induction as with
  | nil => exact Nat.zero_le _
  | cons a as ih =>
    have := h a
    rw [List.map_cons, depthItems_cons]
    omega

end Json.Value

theorem acmeToJson_bounds (acme : Acme) :
    (acmeToJson acme).Built ∧ (acmeToJson acme).depth = 1 := by
  simp [acmeToJson, Value.ofPairs, Value.Built, Value.BuiltFields, Value.depth,
    Value.depthFields]

theorem tlsToJson_bounds (tls : Tls) : (tlsToJson tls).Built ∧ (tlsToJson tls).depth ≤ 2 := by
  obtain ⟨certPath, keyPath, notAfter, source⟩ := tls
  cases source with
  | manual =>
    simp [tlsToJson, Value.ofPairs, Value.Built, Value.BuiltFields, Value.depth,
      Value.depthFields]
  | acme acme =>
    simp [tlsToJson, Value.ofPairs, Value.Built, Value.BuiltFields, Value.depth,
      Value.depthFields, acmeToJson_bounds acme]

theorem cloudflareToJson_bounds (cf : Option Cloudflare) :
    (cloudflareToJson cf).Built ∧ (cloudflareToJson cf).depth ≤ 1 := by
  cases cf <;>
    simp [cloudflareToJson, Value.ofPairs, Value.Built, Value.BuiltFields, Value.depth,
      Value.depthFields]

theorem serverToJson_bounds (server : ServerKeys) :
    (serverToJson server).Built ∧ (serverToJson server).depth = 1 := by
  simp [serverToJson, Value.ofPairs, Value.Built, Value.BuiltFields, Value.depth,
    Value.depthFields]

theorem codeToJson_bounds (code : IssuedCode) :
    (codeToJson code).Built ∧ (codeToJson code).depth = 1 := by
  simp [codeToJson, Value.ofPairs, Value.Built, Value.BuiltFields, Value.depth,
    Value.depthFields]

section
variable [Unicode]

theorem peerToJson_bounds (peer : Peer) :
    (peerToJson peer).Built ∧ (peerToJson peer).depth = 1 := by
  simp [peerToJson, Value.ofPairs, Value.Built, Value.BuiltFields, Value.depth,
    Value.depthFields]

/-- What is written can be parsed: its keys are distinct and it nests three deep. -/
theorem toJson_bounds (state : ServerState) : state.toJson.Built ∧ state.toJson.depth ≤ 3 := by
  have peers := Value.builtItems_map (fun peer => (peerToJson_bounds peer).1) state.peers
  have codes := Value.builtItems_map (fun code => (codeToJson_bounds code).1) state.codes
  have peersDepth :=
    Value.depthItems_map (fun peer => (peerToJson_bounds peer).2.le) state.peers
  have codesDepth :=
    Value.depthItems_map (fun code => (codeToJson_bounds code).2.le) state.codes
  have tls := tlsToJson_bounds state.tls
  have cloudflare := cloudflareToJson_bounds state.cloudflare
  have server := serverToJson_bounds state.server
  constructor
  · simp [ServerState.toJson, Value.ofPairs, Value.Built, Value.BuiltFields, peers, codes,
      tls.1, cloudflare.1, server.1]
  · simp only [ServerState.toJson, Value.ofPairs, Value.depth, Value.depthFields]
    omega

namespace ServerState

theorem parse_toJsonString {state : ServerState}
    (home : state.server.address = state.subnet.serverAddress) :
    parse state.toJsonString = .ok state := by
  obtain ⟨built, shallow⟩ := toJson_bounds state
  have hparse : Json.parse state.toJsonString = .ok state.toJson :=
    (parse_document (isDocument_written (some 2) built)).1 (Nat.le_trans shallow (by decide))
  rw [parse, hparse]
  simp only [Outcome.mapErr, Outcome.ok_bind]
  rw [fromJson_toJson state home]
  rfl

/-- A state that was read has the hub at its subnet's `.1`. -/
theorem home_of_fromJson {value : Value} {state : ServerState}
    (h : fromJson value = .ok state) : state.server.address = state.subnet.serverAddress := by
  rw [fromJson] at h
  obtain ⟨obj, _, h⟩ := except_bind_eq_ok h
  obtain ⟨version, _, h⟩ := except_bind_eq_ok h
  split at h
  · cases h
  obtain ⟨subnetText, _, h⟩ := except_bind_eq_ok h
  obtain ⟨subnet, _, h⟩ := except_bind_eq_ok h
  obtain ⟨found, _, h⟩ := except_bind_eq_ok h
  obtain ⟨server, _, h⟩ := except_bind_eq_ok h
  split at h
  · cases h
  next home =>
  obtain ⟨_, _, h⟩ := except_bind_eq_ok h
  obtain ⟨_, _, h⟩ := except_bind_eq_ok h
  obtain ⟨_, _, h⟩ := except_bind_eq_ok h
  obtain ⟨_, _, h⟩ := except_bind_eq_ok h
  obtain ⟨_, _, h⟩ := except_bind_eq_ok h
  obtain ⟨_, _, h⟩ := except_bind_eq_ok h
  obtain ⟨_, _, h⟩ := except_bind_eq_ok h
  obtain ⟨_, _, h⟩ := except_bind_eq_ok h
  obtain ⟨_, _, h⟩ := except_bind_eq_ok h
  cases h
  exact Decidable.not_not.mp home

theorem home_of_parse {text : String} {state : ServerState} (h : parse text = .ok state) :
    state.server.address = state.subnet.serverAddress := by
  rw [parse] at h
  obtain ⟨value, _, h⟩ := Outcome.bind_eq_ok h
  cases hread : fromJson value with
  | error e =>
    rw [hread] at h
    cases h
  | ok read =>
    rw [hread] at h
    cases h
    exact home_of_fromJson hread

/-- Writing a state whose hub is at its subnet's `.1` and reading the text gives that
state back, and every state that was read from any text is such a state. -/
theorem parse_written_state :
    (∀ state : ServerState, state.server.address = state.subnet.serverAddress →
      parse state.toJsonString = .ok state) ∧
    ∀ text (state : ServerState), parse text = .ok state →
      state.server.address = state.subnet.serverAddress ∧
        parse state.toJsonString = .ok state :=
  ⟨fun _ home => parse_toJsonString home,
    fun _ _ h => ⟨home_of_parse h, parse_toJsonString (home_of_parse h)⟩⟩

end ServerState

end

theorem ServerState.parse_written_state_sample :
    letI := asciiTables
    let code := (JoinCode.fromIndices [5, 23, 28, 2, 19, 0, 17, 11]).get (by decide)
    let fresh := Init.buildState ⟨"net.example.com", ⟨⟨10, 100, 0, 0⟩, rfl⟩, 51820, 443⟩
      (Tls.manual "/c.pem" "/k.pem") (some ⟨"zone", none, some "/token"⟩) (⟨"a="⟩, "b=") code 0
    let peer : Peer := {
      name := ⟨"macbook", by decide, by decide, by decide⟩
      publicKey := "\"\n"
      address := ⟨10, 100, 0, 2⟩
      tokenHash := ⟨String.ofList (List.replicate 64 'a'), by decide⟩
      createdAt := -1
      lastSeen := some 7 }
    let state := { fresh with peers := [peer] }
    ServerState.parse state.toJsonString = .ok state ∧
      state.server.address = state.subnet.serverAddress := by
  intro code fresh peer state
  have written := (@ServerState.parse_written_state asciiTables).1 state rfl
  exact ⟨written, ((@ServerState.parse_written_state asciiTables).2 _ state written).1⟩
