import Anago.Refusals
import Anago.RegistryInvariant
import Anago.WgConfRead

/-!
# One tunnel for each device

The registry keeps names and addresses apart but never looks at keys. So the generated
configuration gives every device a tunnel of its own exactly as long as no accepted join
brings a key that is registered already.
-/

open StdText Proto WgConf

namespace Registry

variable [Unicode]

/-- The configuration holds the interface and one section for each device, and no two
of them share an address or a key. -/
def OwnTunnels (state : ServerState) : Prop :=
  ∃ tunnels, SectionText.read (serverConfig state).expose.toList =
      some (interfaceSection state :: tunnels) ∧
    tunnels = state.peers.map tunnel ∧
    (tunnels.map (·.value "AllowedIPs".toList)).Nodup ∧
    (tunnels.map (·.value "PublicKey".toList)).Nodup

/-- What a join with this key needs to go through. -/
def Accepts (state : ServerState) (request : JoinRequest) (now : Int64) (key : String) : Prop :=
  Api.Redeemable state request now ∧
    (∃ name, DeviceName.parse request.name = .ok name ∧ name ∉ state.peers.map Peer.name) ∧
    parseKey request.publicKey = .ok key ∧
    ∃ address, state.subnet.allocate (state.peers.map Peer.address) = some address

/-- A join that goes through with a key that some device has already. -/
def ReusesKey (state : ServerState) (op : Op) : Prop :=
  ∃ request token tokenHash now key, op = .join request token tokenHash now ∧
    Accepts state request now key ∧ key ∈ state.peers.map Peer.publicKey

/-- `add_peer` is called by a join, never by itself. -/
def Handled (op : Op) : Prop := ∀ registration now, op ≠ .register registration now

/-- Every key in the state came through `parseKey`. -/
structure Keyed (state : ServerState) : Prop where
  server : IsKey state.server.privateKey.text
  peers : ∀ peer ∈ state.peers, IsKey peer.publicKey

/-- No two devices share a key. -/
def DistinctKeys (state : ServerState) : Prop := (state.peers.map Peer.publicKey).Nodup

/-- What an operation does to the keys of the devices. -/
inductive KeyChange (state : ServerState) (op : Op) (state' : ServerState) : Prop
  | added {request : JoinRequest} {token : DeviceToken} {tokenHash : TokenHash} {now : Int64}
    {key : String} : op = .join request token tokenHash now → Accepts state request now key →
    state'.peers.map Peer.publicKey = state.peers.map Peer.publicKey ++ [key] →
    KeyChange state op state'
  | kept : (∀ request token tokenHash now key, op = .join request token tokenHash now →
      ¬Accepts state request now key) →
    (state'.peers.map Peer.publicKey).Sublist (state.peers.map Peer.publicKey) →
    KeyChange state op state'

theorem addPeer_ok {state : ServerState} {registration : Registration} {now : Int64}
    {issued : IssuedCode} {address : Ipv4Addr}
    (code : (state.codes.find? fun issued => issued.code = registration.code) = some issued)
    (unused : issued.usedAt = none) (unexpired : now < issued.expiresAt)
    (free : registration.name ∉ state.peers.map Peer.name)
    (room : state.subnet.allocate (state.peers.map Peer.address) = some address) :
    ∃ peer, (state.addPeer registration now).1 = .ok peer := by
  rw [ServerState.addPeer]
  split
  · next hnone =>
    have hfind := List.find?_eq_none.mpr (List.findFinIdx?_eq_none_iff.mp hnone)
    cases code.symm.trans hfind
  next index hindex =>
  have hissued : state.codes.get index = issued :=
    Option.some_inj.mp ((FirstMatch.find_eq hindex).symm.trans code)
  have usable : (issued.status now).isUsable = true :=
    CodeStatus.isUsable_status.mpr ⟨unused, unexpired⟩
  have hname : ¬DeviceName.isTaken (state.peers.map fun peer => peer.name.asStr)
      registration.name = true := by
    have hmap : (state.peers.map fun peer => peer.name.asStr) =
        (state.peers.map Peer.name).map DeviceName.asStr := by rw [List.map_map]; rfl
    rwa [hmap, DeviceName.isTaken_iff]
  simp only [hissued, usable, Bool.not_true, Bool.false_eq_true, if_false, hname, room]
  exact ⟨_, rfl⟩

theorem decideJoin_ok {state : ServerState} {request : JoinRequest} {now : Int64} {key : String}
    (h : Accepts state request now key) (token : DeviceToken) (tokenHash : TokenHash) :
    ∃ response, (Api.decideJoin state request token tokenHash now).1 = .ok response := by
  obtain ⟨⟨code, issued, hcode, hfind, unused, unexpired⟩, ⟨name, hname, free⟩, hkey, address,
    room⟩ := h
  obtain ⟨peer, hadd⟩ := @addPeer_ok _ state ⟨code, name, key, tokenHash⟩ now issued address hfind
    unused unexpired free room
  rw [Api.decideJoin, hcode, hname, hkey]
  simp only
  split
  · next heq => rw [heq] at hadd; cases hadd
  · exact ⟨_, rfl⟩

theorem accepts_of_registered {state : ServerState} {request : JoinRequest} {now : Int64}
    {code : JoinCode} {name : DeviceName} {key : String} {tokenHash : TokenHash} {peer : Peer}
    {state' : ServerState} {before : List IssuedCode} {issued : IssuedCode}
    {after : List IssuedCode} (hcode : JoinCode.parse request.code = .ok code)
    (hname : DeviceName.parse request.name = .ok name)
    (hkey : parseKey request.publicKey = .ok key)
    (hreg : ServerState.Registered state ⟨code, name, key, tokenHash⟩ now peer state' before issued
      after) : Accepts state request now key := by
  refine ⟨⟨code, issued, hcode, ?_, hreg.unused, hreg.unexpired⟩, ⟨name, hname, hreg.free⟩, hkey,
    peer.address, hreg.address⟩
  rw [hreg.codes, List.find?_eq_some_iff_append]
  exact ⟨decide_eq_true hreg.code, before, after, rfl, fun c hc => by simpa using hreg.first c hc⟩

theorem join_keys (state : ServerState) (request : JoinRequest) (token : DeviceToken)
    (tokenHash : TokenHash) (now : Int64) :
    KeyChange state (.join request token tokenHash now)
      (step state (.join request token tokenHash now)) := by
  rw [step]
  rcases decideJoin_cases state request token tokenHash now with
    ⟨e, h⟩ | ⟨code, name, key, peer, state', before, issued, after, _, hcode, hname, hkey, hreg, h,
      _, _⟩
  · rw [h]
    refine .kept ?_ (List.Sublist.refl _)
    rintro request' token' tokenHash' now' key' heq accepted
    cases heq
    obtain ⟨response, hok⟩ := decideJoin_ok accepted token tokenHash
    rw [h] at hok
    cases hok
  · rw [h]
    refine .added rfl (accepts_of_registered hcode hname hkey hreg) ?_
    rw [hreg.result, List.map_append, List.map_singleton, hreg.peer_publicKey]

theorem step_keys (state : ServerState) {op : Op} (handled : Handled op) :
    KeyChange state op (step state op) := by
  cases op with
  | join request token tokenHash now => exact join_keys state request token tokenHash now
  | register registration now => exact absurd rfl (handled registration now)
  | issue draw draws now ttlSecs =>
    refine .kept (fun _ _ _ _ _ heq => by cases heq) ?_
    rw [step]
    split <;> exact List.Sublist.refl _
  | remove name =>
    refine .kept (fun _ _ _ _ _ heq => by cases heq) ?_
    rw [step]
    rcases decideRemove_cases state name with
      ⟨e, h, _⟩ | ⟨_, before, peer, after, _, _, hpeers, _, _, h, _⟩
    · rw [h]
    · rw [h, hpeers]
      exact ((List.sublist_cons_self peer after).append_left before).map _
  | drop name =>
    refine .kept (fun _ _ _ _ _ heq => by cases heq) ?_
    rw [step]
    rcases state.removePeer_cases name with ⟨_, h⟩ | ⟨before, peer, after, hpeers, _, _, h⟩
    · rw [h]
    · rw [h, hpeers]
      exact ((List.sublist_cons_self peer after).append_left before).map _
  | touch name now =>
    refine .kept (fun _ _ _ _ _ heq => by cases heq) ?_
    rw [step]
    rcases touchLastSeen_cases state name now with h | ⟨before, peer, after, hpeers, h⟩
    · rw [h]
    · rw [h, hpeers]
      simp

theorem step_keyed {state : ServerState} {op : Op} (handled : Handled op) (h : Keyed state) :
    Keyed (step state op) := by
  have server : IsKey (step state op).server.privateKey.text := by
    rw [(step_effect state op).sameHub.server]
    exact h.server
  have old : ∀ key ∈ state.peers.map Peer.publicKey, IsKey key := by
    intro key hkey
    obtain ⟨peer, hpeer, rfl⟩ := List.mem_map.mp hkey
    exact h.peers peer hpeer
  refine ⟨server, fun peer hpeer => ?_⟩
  have hkey := List.mem_map_of_mem (f := Peer.publicKey) hpeer
  cases step_keys state handled with
  | added _ accepted hkeys =>
    rw [hkeys] at hkey
    rcases List.mem_append.mp hkey with hkey | hkey
    · exact old _ hkey
    · rw [List.mem_singleton.mp hkey]
      exact ⟨_, accepted.2.2.1⟩
  | kept _ hkeys => exact old _ (hkeys.subset hkey)

/-- Sections are read back as they are, so devices share a tunnel only by their keys. -/
theorem ownTunnels_iff {state : ServerState} (keyed : Keyed state) (apart : Apart state) :
    OwnTunnels state ↔ DistinctKeys state := by
  have keys : (state.peers.map tunnel).map (·.value "PublicKey".toList) =
      (state.peers.map Peer.publicKey).map fun key => some key.toList := by
    rw [List.map_map, List.map_map]
    rfl
  have addresses : (state.peers.map tunnel).map (·.value "AllowedIPs".toList) =
      (state.peers.map Peer.address).map fun address => some (address.display ++ "/32".toList) := by
    rw [List.map_map, List.map_map]
    rfl
  constructor
  · rintro ⟨_, _, rfl, _, distinct⟩
    rw [keys] at distinct
    exact distinct.of_map _
  · intro distinct
    refine ⟨_, read_serverConfig keyed.server keyed.peers, rfl, ?_, ?_⟩
    · rw [addresses]
      refine apart.addresses.map fun x y h => ?_
      exact Ipv4Addr.display_injective (List.append_cancel_right (Option.some_inj.mp h))
    · rw [keys]
      refine distinct.map fun x y h => ?_
      exact String.toList_inj.mp (Option.some_inj.mp h)

theorem step_distinct {state : ServerState} {op : Op} (handled : Handled op)
    (fresh : ¬ReusesKey state op) (h : DistinctKeys state) : DistinctKeys (step state op) := by
  cases step_keys state handled with
  | @added request token tokenHash now key heq accepted hkeys =>
    have new : key ∉ state.peers.map Peer.publicKey := fun hmem =>
      fresh ⟨request, token, tokenHash, now, key, heq, accepted, hmem⟩
    rw [DistinctKeys, hkeys, ← List.concat_eq_append]
    exact h.concat new
  | kept _ hkeys => exact h.sublist hkeys

theorem ReusesKey.not_distinct {state : ServerState} {op : Op} (handled : Handled op)
    (h : ReusesKey state op) : ¬DistinctKeys (step state op) := by
  obtain ⟨request, token, tokenHash, now, key, heq, accepted, hmem⟩ := h
  cases step_keys state handled with
  | @added request' token' tokenHash' now' key' heq' accepted' hkeys =>
    cases heq.symm.trans heq'
    cases accepted.2.2.1.symm.trans accepted'.2.2.1
    rw [DistinctKeys, hkeys, List.nodup_append]
    rintro ⟨_, _, disjoint⟩
    exact disjoint key hmem key (List.mem_singleton_self key) rfl
  | kept never _ => exact absurd accepted (never request token tokenHash now key heq)

/-- From an empty registry every device has its own tunnel in the configuration, and this
lasts as long as no join is accepted with the key of a registered device, and no longer. -/
theorem own_tunnels (start : ServerState) (empty : start.peers = [])
    (secret : IsKey start.server.privateKey.text) (ops : List Op)
    (handled : ∀ op ∈ ops, Handled op) :
    (∀ before op after, ops = before ++ op :: after → ¬ReusesKey (run start before) op) ↔
      ∀ before, before <+: ops → OwnTunnels (run start before) := by
  have keyed : ∀ before, before <+: ops → Keyed (run start before) := by
    intro before hbefore
    refine Runs.run_keeps_of (fun _ _ (handled : Handled _) => step_keyed handled)
      ⟨secret, by simp [empty]⟩ before ?_
    rintro sooner op later rfl
    exact handled op (hbefore.subset (List.mem_append_right sooner List.mem_cons_self))
  have apart : ∀ before, Apart (run start before) := run_apart (apart_empty empty)
  constructor
  · intro fresh before hbefore
    refine (ownTunnels_iff (keyed before hbefore) (apart before)).mpr ?_
    have none : DistinctKeys start := by simp [DistinctKeys, empty]
    refine Runs.run_keeps_of
      (fun _ _ (kind : Handled _ ∧ ¬ReusesKey _ _) => step_distinct kind.1 kind.2) none before ?_
    rintro sooner op later rfl
    obtain ⟨rest, rfl⟩ := hbefore
    exact ⟨handled op (by simp), fresh sooner op (later ++ rest) (by simp)⟩
  · rintro own before op after rfl reused
    have hprefix : before ++ [op] <+: before ++ op :: after := ⟨after, by simp⟩
    have last := (ownTunnels_iff (keyed _ hprefix) (apart _)).mp (own _ hprefix)
    rw [run, Runs.run_append] at last
    exact reused.not_distinct (handled op (by simp)) last

/-- The sample hub with a private key as the tools print it. -/
def keyedHub : @ServerState asciiTables :=
  letI := asciiTables
  { Init.sampleHub with server := { Init.sampleHub.server with
    privateKey := ⟨String.ofList (List.replicate 43 'S' ++ ['='])⟩ } }

omit [Unicode] in
theorem keyedHub_secret :
    letI := asciiTables
    IsKey keyedHub.server.privateKey.text := by
  let := asciiTables
  exact ⟨String.ofList (List.replicate 43 'S' ++ ['=']), by decide +kernel⟩

omit [Unicode] in
theorem own_tunnels_sample :
    letI := asciiTables
    OwnTunnels (run keyedHub
      [sampleJoin "macbook" 'A' (.sample 'a' rfl) (.sample 'b' rfl) 7]) := by
  let := asciiTables
  refine (own_tunnels keyedHub rfl keyedHub_secret _ ?_).mp ?_ _ List.prefix_rfl
  · intro op hop registration now heq
    rw [List.mem_singleton.mp hop] at heq
    cases heq
  · rintro before op after hops ⟨request, token, tokenHash, now, key, heq, _, hmem⟩
    cases before with
    | nil => cases hmem
    | cons first before => simp at hops

omit [Unicode] in
/-- Two devices with one key are two sections with one key. -/
theorem own_tunnels_shared :
    letI := asciiTables
    ¬∀ (start : ServerState) (ops : List Op), start.peers = [] →
      IsKey start.server.privateKey.text → (∀ op ∈ ops, Handled op) →
        OwnTunnels (run start ops) := by
  let := asciiTables
  intro claim
  let code := (JoinCode.fromIndices [1, 2, 3, 4, 5, 6, 7, 8]).get (by decide)
  let key := String.ofList (List.replicate 43 'A' ++ ['='])
  let ops := [sampleJoin "macbook" 'A' (.sample 'a' rfl) (.sample 'b' rfl) 7,
    .issue (fun _ => .ok code) 8 8 60,
    .join ⟨code.asStr, "phone", key⟩ (.sample 'c' rfl) (.sample 'd' rfl) 9]
  have handled : ∀ op ∈ ops, Handled op := by
    intro op hop registration now heq
    rw [heq] at hop
    rcases List.mem_cons.mp hop with h | h
    · cases h
    · rcases List.mem_cons.mp h with h | h
      · cases h
      · cases List.mem_singleton.mp h
  obtain ⟨_, _, rfl, _, distinct⟩ := claim keyedHub ops rfl keyedHub_secret handled
  revert distinct
  decide +kernel

end Registry
