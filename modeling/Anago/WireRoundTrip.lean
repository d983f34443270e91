import Anago.StateRoundTrip

/-!
# A client reads what a hub writes

The answers of the control API that a device acts on, written in the compact form and
read back.
-/

open StdText Json

namespace Proto

variable [Unicode]

theorem JoinResponse.read_written (answer : JoinResponse) :
    Json.parse (Json.toString answer.toJson) = .ok answer.toJson ∧
      JoinResponse.fromJson answer.toJson = .ok answer := by
  have built : answer.toJson.Built := by
    simp [JoinResponse.toJson, Value.ofPairs, Value.Built, Value.BuiltFields]
  have shallow : answer.toJson.depth ≤ Json.maxDepth := by
    simp [JoinResponse.toJson, Value.ofPairs, Value.depth, Value.depthFields, Json.maxDepth]
  refine ⟨(parse_document (isDocument_written none built)).1 shallow, ?_⟩
  rw [JoinResponse.fromJson, JoinResponse.toJson, object_ofPairs]
  rw [except_ok_bind, stringField_of_get "name" (by simp [Object.get]; rfl),
    stringField_of_get "address" (by simp [Object.get]; rfl),
    stringField_of_get "subnet" (by simp [Object.get]; rfl),
    stringField_of_get "token" (by simp [Object.get]; rfl),
    stringField_of_get "server_public_key" (by simp [Object.get]; rfl),
    stringField_of_get "server_endpoint" (by simp [Object.get]; rfl),
    stringField_of_get "server_address" (by simp [Object.get]; rfl)]
  rfl

omit [Unicode] in
theorem PeerInfo.fromJson_toJson (peer : PeerInfo) : PeerInfo.fromJson peer.toJson = .ok peer := by
  rw [PeerInfo.fromJson, PeerInfo.toJson, object_ofPairs]
  rw [except_ok_bind, stringField_of_get "name" (by simp [Object.get]; rfl),
    stringField_of_get "public_key" (by simp [Object.get]; rfl),
    stringField_of_get "address" (by simp [Object.get]; rfl)]
  rfl

omit [Unicode] in
theorem peersFromJson_map (i : Nat) (peers : List PeerInfo) :
    peersFromJson i (peers.map PeerInfo.toJson) = .ok peers := by
  induction peers generalizing i with
  | nil => rfl
  | cons peer peers ih =>
    rw [List.map_cons, peersFromJson, PeerInfo.fromJson_toJson, ih]
    rfl

omit [Unicode] in
theorem PeersResponse.toJson_bounds (response : PeersResponse) :
    response.toJson.Built ∧ response.toJson.depth ≤ 3 := by
  have built : ∀ peer : PeerInfo, peer.toJson.Built := by
    intro peer
    simp [PeerInfo.toJson, Value.ofPairs, Value.Built, Value.BuiltFields]
  have shallow : ∀ peer : PeerInfo, peer.toJson.depth ≤ 1 := by
    intro peer
    simp [PeerInfo.toJson, Value.ofPairs, Value.depth, Value.depthFields]
  have peers := Value.builtItems_map built response.peers
  have depth := Value.depthItems_map shallow response.peers
  cases hhub : response.hub with
  | none =>
    simp only [PeersResponse.toJson, hhub]
    simp [Value.ofPairs, Value.Built, Value.BuiltFields, Value.depth, Value.depthFields, peers]
    omega
  | some hub =>
    simp only [PeersResponse.toJson, hhub]
    simp [Value.ofPairs, Value.Built, Value.BuiltFields, Value.depth, Value.depthFields, peers]
    omega

theorem PeersResponse.read_written (response : PeersResponse) :
    Json.parse (Json.toString response.toJson) = .ok response.toJson ∧
      PeersResponse.fromJson response.toJson = .ok response := by
  obtain ⟨built, shallow⟩ := response.toJson_bounds
  refine ⟨(parse_document (isDocument_written none built)).1 (shallow.trans (by decide)), ?_⟩
  obtain ⟨peers, hub⟩ := response
  cases hub with
  | none =>
    rw [PeersResponse.fromJson, PeersResponse.toJson, object_ofPairs, except_ok_bind]
    simp [field, Object.get, Value.asArray, peersFromJson_map, hubFromJson, hubFields]
  | some hub =>
    rw [PeersResponse.fromJson, PeersResponse.toJson, object_ofPairs, except_ok_bind]
    simp [field, Object.get, Value.asArray, peersFromJson_map, hubFromJson, hubFields]
    rw [stringField_of_get "subnet" (by simp [Object.get]; rfl),
      stringField_of_get "server_public_key" (by simp [Object.get]; rfl),
      stringField_of_get "server_endpoint" (by simp [Object.get]; rfl),
      stringField_of_get "server_address" (by simp [Object.get]; rfl)]
    rfl

end Proto
