import Anago.State

/-!
# What a registration does

When a code is redeemed for an address, which address it is, and what else of the state
is different afterwards. Nothing is assumed of the state: it may hold a code twice, a name
twice, or a peer outside the subnet.
-/

open StdText

namespace Subnet

/-- No address in `used` that is of this subnet has this host octet, and a device may have it. -/
def Free (subnet : Subnet) (used : List Ipv4Addr) (octet : UInt8) : Prop :=
  2 ≤ octet ∧ octet ≤ 254 ∧ ∀ addr ∈ used, subnet.contains addr = true → addr.d ≠ octet

theorem mem_hostOctets {subnet : Subnet} {used : List Ipv4Addr} {octet : UInt8} :
    octet ∈ used.filterMap subnet.hostOctet ↔ ∃ addr ∈ used,
      subnet.contains addr = true ∧ addr.d = octet := by
  simp [List.mem_filterMap, hostOctet]

theorem not_mem_hostOctets {subnet : Subnet} {used : List Ipv4Addr} {octet : UInt8} :
    octet ∉ used.filterMap subnet.hostOctet ↔ ∀ addr ∈ used, subnet.contains addr = true →
      addr.d ≠ octet := by
  rw [mem_hostOctets]
  constructor
  · intro absent addr mem inside same
    exact absent ⟨addr, mem, inside, same⟩
  · rintro apart ⟨addr, mem, inside, same⟩
    exact apart addr mem inside same

/-- The address that is handed out has the lowest octet that is free. -/
theorem allocate_lowest {subnet : Subnet} {used : List Ipv4Addr} {addr : Ipv4Addr}
    (h : subnet.allocate used = some addr) :
    addr = subnet.addressOf addr.d ∧ subnet.Free used addr.d ∧ ∀ octet, subnet.Free used octet →
      addr.d ≤ octet := by
  rw [allocate, Option.map_eq_some_iff] at h
  obtain ⟨octet, hoctet, rfl⟩ := h
  obtain ⟨low, high, unused, below⟩ := nextFreeOctet_eq_some hoctet
  refine ⟨rfl, ⟨low, high, not_mem_hostOctets.mp unused⟩, ?_⟩
  rintro other ⟨low', _, unused'⟩
  by_contra lower
  exact not_mem_hostOctets.mpr unused' (below other low' (UInt8.not_le.mp lower))

theorem allocate_isSome {subnet : Subnet} {used : List Ipv4Addr} :
    (∃ addr, subnet.allocate used = some addr) ↔ ∃ octet, subnet.Free used octet := by
  constructor
  · rintro ⟨addr, h⟩
    exact ⟨addr.d, (allocate_lowest h).2.1⟩
  · rintro ⟨octet, low, high, unused⟩
    cases hnext : nextFreeOctet (used.filterMap subnet.hostOctet) with
    | none =>
      have taken := nextFreeOctet_eq_none.mp hnext octet low high
      exact absurd taken (not_mem_hostOctets.mpr unused)
    | some found => exact ⟨subnet.addressOf found, by rw [allocate, hnext, Option.map_some]⟩

end Subnet

namespace ServerState

variable [Unicode]

/-- The first entry of this code can be redeemed at `now`. -/
def Usable (state : ServerState) (code : JoinCode) (now : Int64) : Prop :=
  ∃ issued, (state.codes.find? fun issued => issued.code = code) = some issued ∧
    issued.usedAt = none ∧ now < issued.expiresAt

/-- Some device address is held by no peer inside the subnet. -/
def HasRoom (state : ServerState) : Prop :=
  ∃ octet, state.subnet.Free (state.peers.map Peer.address) octet

theorem isTaken_peers {peers : List Peer} {name : DeviceName} :
    DeviceName.isTaken (peers.map fun peer => peer.name.asStr) name = true ↔
      name ∈ peers.map Peer.name := by
  have names : (peers.map fun peer => peer.name.asStr) =
      (peers.map Peer.name).map DeviceName.asStr := by
    rw [List.map_map]
    rfl
  rw [names, DeviceName.isTaken_iff]

theorem Registered.usable {state state' : ServerState} {registration : Registration}
    {now : Int64} {peer : Peer} {before after : List IssuedCode} {issued : IssuedCode}
    (h : Registered state registration now peer state' before issued after) :
    state.Usable registration.code now := by
  refine ⟨issued, ?_, h.unused, h.unexpired⟩
  rw [List.find?_eq_some_iff_append]
  exact ⟨by simpa using h.code, before, after, h.codes, fun c mem => by simpa using h.first c mem⟩

/-- With a usable code, a free name and room there is nothing to refuse. -/
theorem addPeer_accepts {state : ServerState} {registration : Registration} {now : Int64}
    (usable : state.Usable registration.code now)
    (free : registration.name ∉ state.peers.map Peer.name) (room : state.HasRoom) :
    ∃ peer, (state.addPeer registration now).1 = .ok peer := by
  obtain ⟨issued, found, unused, unexpired⟩ := usable
  obtain ⟨address, allocated⟩ := Subnet.allocate_isSome.mpr room
  rw [addPeer]
  split
  · next unknown =>
    rw [List.find?_eq_some_iff_append] at found
    obtain ⟨same, _, _, codes, _⟩ := found
    have different := List.findFinIdx?_eq_none_iff.mp unknown issued (by rw [codes]; simp)
    exact absurd same different
  next index hindex =>
  cases (FirstMatch.find_eq hindex).symm.trans found
  have status : ((state.codes.get index).status now).isUsable = true :=
    CodeStatus.isUsable_status.mpr ⟨unused, unexpired⟩
  have untaken : DeviceName.isTaken (state.peers.map fun peer => peer.name.asStr)
      registration.name = false :=
    eq_false_of_ne_true fun taken => free (isTaken_peers.mp taken)
  simp only [status, untaken, allocated, Bool.not_true, Bool.false_eq_true, if_false]
  exact ⟨_, rfl⟩

/-- The reasons to refuse, in the order in which they are found. -/
inductive Refused (state : ServerState) (registration : Registration) (now : Int64) :
    JoinRejection → Prop
  | unknown : (state.codes.find? fun issued => issued.code = registration.code) = none →
    Refused state registration now .unknownCode
  | unusable {issued : IssuedCode} :
    (state.codes.find? fun issued => issued.code = registration.code) = some issued →
    ¬(issued.usedAt = none ∧ now < issued.expiresAt) →
    Refused state registration now (.codeNotUsable (issued.status now))
  | taken : state.Usable registration.code now → registration.name ∈ state.peers.map Peer.name →
    Refused state registration now .nameTaken
  | full : state.Usable registration.code now → registration.name ∉ state.peers.map Peer.name →
    ¬state.HasRoom → Refused state registration now .subnetFull

theorem addPeer_refused {state state' : ServerState} {registration : Registration} {now : Int64}
    {rejection : JoinRejection} (h : state.addPeer registration now = (.error rejection, state')) :
    state' = state ∧ Refused state registration now rejection := by
  rw [addPeer] at h
  split at h
  · next unknown =>
    cases h
    refine ⟨rfl, .unknown (List.find?_eq_none.mpr fun issued mem => ?_)⟩
    exact List.findFinIdx?_eq_none_iff.mp unknown issued mem
  next index hindex =>
  have found := FirstMatch.find_eq hindex
  simp only at h
  split at h
  · next unusable =>
    cases h
    refine ⟨rfl, .unusable found fun usable => ?_⟩
    have status : ((state.codes.get index).status now).isUsable = true :=
      CodeStatus.isUsable_status.mpr usable
    rw [status] at unusable
    cases unusable
  next usable =>
  rw [Bool.not_eq_true', Bool.not_eq_false, IssuedCode.status, CodeStatus.isUsable_status] at usable
  split at h
  · next taken =>
    cases h
    exact ⟨rfl, .taken ⟨_, found, usable⟩ (isTaken_peers.mp taken)⟩
  next untaken =>
  split at h
  · next unallocated =>
    cases h
    refine ⟨rfl,
      .full ⟨_, found, usable⟩ (fun taken => untaken (isTaken_peers.mpr taken)) fun room => ?_⟩
    obtain ⟨addr, allocated⟩ := Subnet.allocate_isSome.mpr room
    cases unallocated.symm.trans allocated
  · cases h

/-- A registration is accepted exactly with a usable code, a free name and room. Then one code
entry is spent and one peer appended; otherwise nothing changes, and what was refused for its
name or for want of room can be tried again with the same code. -/
theorem addPeer_exact (state : ServerState) (registration : Registration) (now : Int64) :
    ((∃ peer, (state.addPeer registration now).1 = .ok peer) ↔
      state.Usable registration.code now ∧
      registration.name ∉ state.peers.map Peer.name ∧ state.HasRoom) ∧
    (∀ peer state', state.addPeer registration now = (.ok peer, state') →
      ∃ before issued after, state.codes = before ++ issued :: after ∧
        (∀ other ∈ before, other.code ≠ registration.code) ∧ issued.code = registration.code ∧
        state' = { state with
          codes := before ++ { issued with usedAt := some now } :: after
          peers := state.peers ++ [peer] } ∧
        peer = { registration with address := peer.address, createdAt := now, lastSeen := none } ∧
        peer.address = state.subnet.addressOf peer.address.d ∧
        state.subnet.Free (state.peers.map Peer.address) peer.address.d ∧
        ∀ octet, state.subnet.Free (state.peers.map Peer.address) octet → peer.address.d ≤ octet) ∧
    ∀ rejection state', state.addPeer registration now = (.error rejection, state') →
      state' = state ∧ Refused state registration now rejection ∧
        (rejection = .nameTaken ∨ rejection = .subnetFull → ∀ again : Registration,
          again.code = registration.code → again.name ∉ state'.peers.map Peer.name →
            ((∃ peer, (state'.addPeer again now).1 = .ok peer) ↔ state'.HasRoom)) := by
  have accepted : ∀ registration : Registration,
      (∃ peer, (state.addPeer registration now).1 = .ok peer) →
        state.Usable registration.code now ∧ registration.name ∉ state.peers.map Peer.name ∧
        state.HasRoom := by
    rintro registration ⟨peer, hpeer⟩
    rcases addPeer_cases state registration now with ⟨rejection, h⟩ | ⟨peer', state', _,
      _, _, _, registered⟩
    · rw [h] at hpeer
      cases hpeer
    · exact ⟨registered.usable, registered.free, Subnet.allocate_isSome.mp ⟨_, registered.address⟩⟩
  refine ⟨⟨accepted registration, fun ⟨usable, free, room⟩ => addPeer_accepts usable free room⟩, ?_,
    ?_⟩
  · intro peer state' h
    rcases addPeer_cases state registration now with ⟨rejection, h'⟩ | ⟨_, _, before, issued,
      after, h', registered⟩
    · cases h.symm.trans h'
    · cases h.symm.trans h'
      obtain ⟨address, free, lowest⟩ := Subnet.allocate_lowest registered.address
      exact ⟨before, issued, after, registered.codes, registered.first, registered.code,
        registered.result, registered.entry, address, free, lowest⟩
  · intro rejection state' h
    obtain ⟨rfl, refused⟩ := addPeer_refused h
    refine ⟨rfl, refused, fun late again same free => ?_⟩
    have usable : state'.Usable registration.code now := by
      cases refused with
      | unknown _ => exact absurd late (by simp)
      | unusable _ _ => exact absurd late (by simp)
      | taken usable _ => exact usable
      | full usable _ _ => exact usable
    constructor
    · exact fun done => (accepted again done).2.2
    · exact fun room => addPeer_accepts (same ▸ usable) free room

end ServerState
