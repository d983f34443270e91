import Anago.WireRoundTrip
import Anago.DeviceRoundTrip
import Anago.JsonSchema

/-!
# Messages survive the wire

A message, written and read, is the message; a newer build may put in fields that this one
does not know; and half a description of a hub is no description.
-/

open StdText Json Schema

namespace Proto

theorem stringField_same {fs fs' : Object} {name : String}
    (h : Object.get fs' name = Object.get fs name) :
    stringField fs' name = stringField fs name := by
  rw [stringField, stringField, field, field, h]

theorem object_obj (fs : Object) : object (.obj fs) = .ok fs := rfl

namespace JoinRequest

def schema : Schema := flat ["code", "name", "public_key"]

theorem fromJson_widens {v v' : Value} (h : Widens schema v v') : fromJson v' = fromJson v := by
  rcases h.flat with rfl | ⟨fs, fs', rfl, rfl, same⟩
  · rfl
  · simp only [List.forall_mem_cons, List.not_mem_nil, false_imp_iff,
      implies_true, and_true] at same
    simp only [fromJson, object_obj, except_ok_bind, stringField_same same.1,
      stringField_same same.2.1, stringField_same same.2.2]

theorem fromJson_toJson (r : JoinRequest) : fromJson r.toJson = .ok r := by
  rw [fromJson, toJson, object_ofPairs]
  rw [except_ok_bind, stringField_of_get "code" (by simp [Object.get]; rfl),
    stringField_of_get "name" (by simp [Object.get]; rfl),
    stringField_of_get "public_key" (by simp [Object.get]; rfl)]
  rfl

end JoinRequest

namespace JoinResponse

def schema : Schema :=
  flat ["name", "address", "subnet", "token", "server_public_key", "server_endpoint",
    "server_address"]

theorem fromJson_widens {v v' : Value} (h : Widens schema v v') : fromJson v' = fromJson v := by
  rcases h.flat with rfl | ⟨fs, fs', rfl, rfl, same⟩
  · rfl
  · simp only [List.forall_mem_cons, List.not_mem_nil, false_imp_iff,
      implies_true, and_true] at same
    obtain ⟨name, address, subnet, token, key, endpoint, server⟩ := same
    simp only [fromJson, object_obj, except_ok_bind, stringField_same name,
      stringField_same address, stringField_same subnet, stringField_same token,
      stringField_same key, stringField_same endpoint, stringField_same server]

end JoinResponse

namespace PeerInfo

def schema : Schema := flat ["name", "public_key", "address"]

theorem fromJson_widens {v v' : Value} (h : Widens schema v v') : fromJson v' = fromJson v := by
  rcases h.flat with rfl | ⟨fs, fs', rfl, rfl, same⟩
  · rfl
  · simp only [List.forall_mem_cons, List.not_mem_nil, false_imp_iff,
      implies_true, and_true] at same
    simp only [fromJson, object_obj, except_ok_bind, stringField_same same.1,
      stringField_same same.2.1, stringField_same same.2.2]

end PeerInfo

theorem peersFromJson_widens {vs vs' : List Value}
    (h : List.Forall₂ (Widens PeerInfo.schema) vs vs') (i : Nat) :
    peersFromJson i vs' = peersFromJson i vs := by
  induction h generalizing i with
  | nil => rfl
  | cons widens _ ih => rw [peersFromJson, peersFromJson, PeerInfo.fromJson_widens widens, ih]

theorem hubFromJson_same {fs fs' : Object}
    (same : ∀ name ∈ hubFields, Object.get fs' name = Object.get fs name) :
    hubFromJson fs' = hubFromJson fs := by
  have present : hubFields.filter (fun name => (Object.get fs' name).isSome) =
      hubFields.filter fun name => (Object.get fs name).isSome :=
    List.filter_congr fun name known => by rw [same name known]
  have absent : hubFields.find? (fun name => (Object.get fs' name).isNone) =
      hubFields.find? fun name => (Object.get fs name).isNone := by
    rw [← List.head?_filter, ← List.head?_filter]
    exact congrArg _ (List.filter_congr fun name known => by rw [same name known])
  simp only [hubFields, List.forall_mem_cons, List.not_mem_nil, false_imp_iff, implies_true,
    and_true] at same
  rw [hubFromJson, hubFromJson, present, absent, stringField_same same.1, stringField_same same.2.1,
    stringField_same same.2.2.1, stringField_same same.2.2.2]

/-- The number of its own fields a hub has put into a peers body. -/
def described (body : Object) : Nat :=
  (hubFields.filter fun name => (Object.get body name).isSome).length

/-- Some of the four, but not all, is an error. -/
theorem hubFromJson_part {body : Object} (present : 0 < described body)
    (absent : described body < 4) :
    hubFromJson body = .error (.missing
      ((hubFields.find? fun name => (Object.get body name).isNone).getD "")) := by
  rw [hubFromJson]
  split
  · next none => exact absurd none (by rw [described] at present; omega)
  · next all => exact absurd all (by rw [described] at absent; omega)
  · rfl

namespace PeersResponse

def schema : Schema :=
  .fields fun name =>
    if name = "peers" then .each PeerInfo.schema
    else if name ∈ hubFields then .whole
    else .unread

theorem fromJson_widens {v v' : Value} (h : Widens schema v v') : fromJson v' = fromJson v := by
  rcases h.fields with rfl | ⟨fs, fs', rfl, rfl, same⟩
  · rfl
  · have hub : hubFromJson fs' = hubFromJson fs := by
      refine hubFromJson_same fun name known => ?_
      have other : name ≠ "peers" := by
        rintro rfl
        exact absurd known (by decide)
      have found := same name (by simp [other, known, isRead])
      rw [if_neg other, if_pos known] at found
      exact eq_of_whole found
    have peers := same "peers" rfl
    rw [if_pos rfl] at peers
    simp only [fromJson, object_obj, except_ok_bind, field, hub]
    cases hget : Object.get fs "peers" with
    | none =>
      rw [hget] at peers
      cases hget' : Object.get fs' "peers" with
      | none => rfl
      | some _ =>
        rw [hget'] at peers
        cases peers
    | some items =>
      rw [hget] at peers
      cases hget' : Object.get fs' "peers" with
      | none =>
        rw [hget'] at peers
        cases peers
      | some items' =>
        rw [hget'] at peers
        obtain widens := Option.rel_some_some.mp peers
        rcases widens.each with rfl | ⟨vs, vs', rfl, rfl, each⟩
        · rfl
        · simp only [Value.asArray, except_ok_bind, peersFromJson_widens each]

/-- A body that describes the hub in part is refused, whatever else it carries. -/
theorem fromJson_part {body : Object} (present : 0 < described body) (absent : described body < 4) :
    ∃ e, fromJson (.obj body) = .error e := by
  cases hread : fromJson (.obj body) with
  | error e => exact ⟨e, rfl⟩
  | ok response =>
    rw [fromJson, object_obj, except_ok_bind] at hread
    obtain ⟨items, _, hread⟩ := except_bind_eq_ok hread
    obtain ⟨peers, _, hread⟩ := except_bind_eq_ok hread
    obtain ⟨hub, hhub, _⟩ := except_bind_eq_ok hread
    rw [hubFromJson_part present absent] at hhub
    cases hhub

end PeersResponse

namespace ApiError

def schema : Schema := flat ["code", "message"]

theorem fromWire_asStr (code : ErrorCode) : ErrorCode.fromWire code.asStr = some code := by
  cases code <;> rfl

theorem fromJson_toJson (e : ApiError) : fromJson e.toJson = .ok e := by
  rw [fromJson, toJson, object_ofPairs]
  rw [except_ok_bind, stringField_of_get "code" (by simp [Object.get]; rfl),
    stringField_of_get "message" (by simp [Object.get]; rfl)]
  simp only [except_ok_bind, fromWire_asStr]

theorem fromJson_widens {v v' : Value} (h : Widens schema v v') : fromJson v' = fromJson v := by
  rcases h.flat with rfl | ⟨fs, fs', rfl, rfl, same⟩
  · rfl
  · simp only [List.forall_mem_cons, List.not_mem_nil, false_imp_iff,
      implies_true, and_true] at same
    simp only [fromJson, object_obj, except_ok_bind, stringField_same same.1,
      stringField_same same.2]

end ApiError

end Proto

namespace DeviceConfig

open Proto

def schema : Schema :=
  flat ["version", "api_port", "domain", "name", "address", "subnet", "token", "server_public_key",
    "server_endpoint", "server_address"]

theorem fromJson_widens [Unicode] {v v' : Value} (h : Widens schema v v') :
    fromJson v' = fromJson v := by
  rcases h.flat with rfl | ⟨fs, fs', rfl, rfl, same⟩
  · rfl
  · simp only [List.forall_mem_cons, List.not_mem_nil, false_imp_iff,
      implies_true, and_true] at same
    obtain ⟨version, port, domain, name, address, subnet, token, key, endpoint, server⟩ := same
    have samePort : portFromJson fs' = portFromJson fs := by rw [portFromJson, portFromJson, port]
    simp only [fromJson, object_obj, ofDecode, Except.mapError, except_ok_bind, version, samePort,
      stringField_same domain, stringField_same name, stringField_same address,
      stringField_same subnet, stringField_same token, stringField_same key,
      stringField_same endpoint, stringField_same server]

end DeviceConfig

namespace Proto

variable [Unicode]

/-- What is written of a message is read back as the message, also by a build that knows fewer
fields than the one that wrote it. -/
def Survives {α ε : Type} (print : Value → String) (schema : Schema) (write : α → Value)
    (read : Value → Except ε α) (message : α) : Prop :=
  (Json.parse (print (write message)) = .ok (write message) ∧ read (write message) = .ok message) ∧
    ∀ v, Widens schema (write message) v →
      read v = .ok message ∧ (v.Built → v.depth ≤ Json.maxDepth → Json.parse (print v) = .ok v)

theorem survives_of {α ε : Type} {schema : Schema} {write : α → Value} {read : Value → Except ε α}
    {message : α} (indent : Option Nat) (parsed : Json.parse
      (String.ofList (writeValue indent 0 (write message))) = .ok (write message))
    (back : read (write message) = .ok message)
    (widens : ∀ {v v'}, Widens schema v v' → read v' = read v) :
    Survives (fun v => String.ofList (writeValue indent 0 v)) schema write read message := by
  refine ⟨⟨parsed, back⟩, fun v wide => ⟨(widens wide).trans back, fun built shallow => ?_⟩⟩
  exact (parse_document (isDocument_written indent built)).1 shallow

theorem JoinRequest.parse_json (r : JoinRequest) :
    Json.parse (Json.toString r.toJson) = .ok r.toJson := by
  have built : r.toJson.Built := by
    simp [toJson, Value.ofPairs, Value.Built, Value.BuiltFields]
  have shallow : r.toJson.depth ≤ Json.maxDepth := by
    simp [toJson, Value.ofPairs, Value.depth, Value.depthFields, Json.maxDepth]
  exact (parse_document (isDocument_written none built)).1 shallow

theorem PeerInfo.parse_json (peer : PeerInfo) :
    Json.parse (Json.toString peer.toJson) = .ok peer.toJson := by
  have built : peer.toJson.Built := by
    simp [toJson, Value.ofPairs, Value.Built, Value.BuiltFields]
  have shallow : peer.toJson.depth ≤ Json.maxDepth := by
    simp [toJson, Value.ofPairs, Value.depth, Value.depthFields, Json.maxDepth]
  exact (parse_document (isDocument_written none built)).1 shallow

theorem ApiError.parse_json (e : ApiError) :
    Json.parse (Json.toString e.toJson) = .ok e.toJson := by
  have built : e.toJson.Built := by
    simp [toJson, Value.ofPairs, Value.Built, Value.BuiltFields]
  have shallow : e.toJson.depth ≤ Json.maxDepth := by
    simp [toJson, Value.ofPairs, Value.depth, Value.depthFields, Json.maxDepth]
  exact (parse_document (isDocument_written none built)).1 shallow

/-- Every message and the device file round-trip, unknown fields change nothing, and a body with
one, two or three of the four hub fields is refused. -/
theorem messages_survive :
    (∀ r : JoinRequest, Survives Json.toString JoinRequest.schema JoinRequest.toJson
      JoinRequest.fromJson r) ∧
    (∀ r : JoinResponse, Survives Json.toString JoinResponse.schema JoinResponse.toJson
      JoinResponse.fromJson r) ∧
    (∀ peer : PeerInfo, Survives Json.toString PeerInfo.schema PeerInfo.toJson
      PeerInfo.fromJson peer) ∧
    (∀ r : PeersResponse, Survives Json.toString PeersResponse.schema PeersResponse.toJson
      PeersResponse.fromJson r) ∧
    (∀ e : ApiError, Survives Json.toString ApiError.schema ApiError.toJson ApiError.fromJson e) ∧
    (∀ config : DeviceConfig, config.apiPort ≠ 0 →
      Survives toStringPretty DeviceConfig.schema DeviceConfig.toJson DeviceConfig.fromJson config ∧
        DeviceConfig.parse config.toJsonString = .ok config) ∧
    ∀ body : Object, 0 < described body → described body < 4 →
      ∃ e, PeersResponse.fromJson (.obj body) = .error e := by
  refine ⟨fun r => ?_, fun r => ?_, fun peer => ?_, fun r => ?_, fun e => ?_, fun config port => ?_,
    fun body present absent => PeersResponse.fromJson_part present absent⟩
  · exact survives_of none r.parse_json r.fromJson_toJson JoinRequest.fromJson_widens
  · exact survives_of none r.read_written.1 r.read_written.2 JoinResponse.fromJson_widens
  · exact survives_of none peer.parse_json peer.fromJson_toJson PeerInfo.fromJson_widens
  · exact survives_of none r.read_written.1 r.read_written.2 PeersResponse.fromJson_widens
  · exact survives_of none e.parse_json e.fromJson_toJson ApiError.fromJson_widens
  · refine ⟨?_, DeviceConfig.parse_toJsonString port⟩
    exact survives_of (some 2) config.parse_json (DeviceConfig.fromJson_toJson port)
      DeviceConfig.fromJson_widens

omit [Unicode] in
theorem messages_survive_sample :
    letI := asciiTables
    let config : DeviceConfig := ⟨"hub.example", 443, "macbook", "10.44.0.2", "10.44.0.0/24", "t\n",
      "k", "hub.example:51820", "10.44.0.1"⟩
    DeviceConfig.parse config.toJsonString = .ok config ∧
      ∃ e, PeersResponse.fromJson (.obj [("peers", .arr []), ("subnet", .str "10.44.0.0/24")]) =
        .error e := by
  let := asciiTables
  obtain ⟨_, _, _, _, _, device, part⟩ := messages_survive
  exact ⟨(device _ (by decide)).2, part _ (by decide) (by decide)⟩

end Proto
