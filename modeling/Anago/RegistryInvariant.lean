import Mathlib.Data.List.Perm.Subperm
import Anago.Registry

/-!
# What holds of every reachable registry

Names, addresses and code strings never repeat, and a device is always on a device
address of the subnet. The invariant is kept by each effect, so by each operation,
so by every run.
-/

open StdText Proto

namespace Registry

theorem nodup_map_concat {α β : Type} {f : α → β} {l : List α} {a : α}
    (distinct : (l.map f).Nodup) (new : f a ∉ l.map f) : ((l ++ [a]).map f).Nodup := by
  rw [List.map_append, List.map_singleton, ← List.concat_eq_append]
  exact distinct.concat new

theorem nodup_map_erase {α β : Type} {f : α → β} {before after : List α} {a : α}
    (distinct : ((before ++ a :: after).map f).Nodup) : ((before ++ after).map f).Nodup :=
  distinct.sublist (((List.sublist_cons_self a after).append_left before).map f)

variable [Unicode]

/-- A device address: inside the subnet, and neither `.0`, `.1` nor `.255`. -/
def DeviceAddress (subnet : Subnet) (addr : Ipv4Addr) : Prop :=
  subnet.contains addr = true ∧ 2 ≤ addr.d ∧ addr.d ≤ 254

/-- No two devices share a name or an address. -/
structure Apart (state : ServerState) : Prop where
  names : (state.peers.map Peer.name).Nodup
  addresses : (state.peers.map Peer.address).Nodup
  hosts : ∀ peer ∈ state.peers, DeviceAddress state.subnet peer.address

structure WellFormed (state : ServerState) : Prop extends Apart state where
  codes : (state.codes.map IssuedCode.code).Nodup

theorem apart_empty {state : ServerState} (empty : state.peers = []) : Apart state where
  names := by simp [empty]
  addresses := by simp [empty]
  hosts := by simp [empty]

theorem Effect.apart {state state' : ServerState} (effect : Effect state state')
    (h : Apart state) : Apart state' := by
  cases effect with
  | unchanged => exact h
  | issued _ _ => exact ⟨h.names, h.addresses, h.hosts⟩
  | @registered registration now peer state' before entry after hreg =>
    obtain ⟨hin, hlow, hhigh, hfree⟩ := Subnet.allocate_eq_some hreg.address
    rw [hreg.result]
    exact {
      names := nodup_map_concat h.names hreg.peer_free
      addresses := nodup_map_concat h.addresses hfree
      hosts := by
        intro p hp
        rcases List.mem_append.mp hp with hp | hp
        · exact h.hosts p hp
        · rw [List.mem_singleton.mp hp]
          exact ⟨hin, hlow, hhigh⟩ }
  | @removed before peer after hpeers =>
    have hnames := h.names
    have haddresses := h.addresses
    rw [hpeers] at hnames haddresses
    exact {
      names := nodup_map_erase hnames
      addresses := nodup_map_erase haddresses
      hosts := by
        intro p hp
        apply h.hosts
        rw [hpeers]
        exact ((List.sublist_cons_self peer after).append_left before).subset hp }
  | @stamped before peer after seen hpeers =>
    have hnames := h.names
    have haddresses := h.addresses
    rw [hpeers] at hnames haddresses
    exact {
      names := by simpa using hnames
      addresses := by simpa using haddresses
      hosts := by
        intro p hp
        rcases List.mem_append.mp hp with hp | hp
        · exact h.hosts p (by rw [hpeers]; exact List.mem_append_left _ hp)
        · rcases List.mem_cons.mp hp with rfl | hp
          · exact h.hosts peer (by simp [hpeers])
          · exact h.hosts p (by simp [hpeers, hp]) }

theorem Effect.codes_nodup {state state' : ServerState} (effect : Effect state state')
    (h : (state.codes.map IssuedCode.code).Nodup) :
    (state'.codes.map IssuedCode.code).Nodup := by
  cases effect with
  | unchanged => exact h
  | issued fresh _ => exact nodup_map_concat h fresh
  | registered hreg =>
    rw [hreg.codes] at h
    rw [hreg.result]
    simpa using h
  | removed _ => exact h
  | stamped _ => exact h

theorem run_apart {state : ServerState} (h : Apart state) (ops : List Op) :
    Apart (run state ops) :=
  Runs.run_keeps (fun state op => (step_effect state op).apart) h ops

theorem step_wellFormed (state : ServerState) (op : Op) (h : WellFormed state) :
    WellFormed (step state op) :=
  ⟨(step_effect state op).apart h.toApart, (step_effect state op).codes_nodup h.codes⟩

theorem run_wellFormed {state : ServerState} (h : WellFormed state) (ops : List Op) :
    WellFormed (run state ops) :=
  Runs.run_keeps step_wellFormed h ops

/-- There is room for 253 devices. -/
theorem Apart.length_le {state : ServerState} (h : Apart state) :
    state.peers.length ≤ 253 := by
  have octets : (state.peers.map fun peer => peer.address.d).Nodup := by
    refine List.Nodup.map_on ?_ (List.Nodup.of_map _ h.addresses)
    intro p hp q hq hd
    have haddr := Subnet.eq_of_octet (h.hosts p hp).1 (h.hosts q hq).1 hd
    exact List.inj_on_of_nodup_map h.addresses hp hq haddr
  have inside : (state.peers.map fun peer => peer.address.d) ⊆
      (List.range' 2 253).map UInt8.ofNat := by
    intro o ho
    obtain ⟨peer, hp, rfl⟩ := List.mem_map.mp ho
    exact Subnet.mem_deviceOctets.mpr (h.hosts peer hp).2
  simpa using (List.subperm_of_subset octets inside).length_le

/-- Started without devices and with distinct codes, the registry keeps names,
addresses and codes distinct and devices on device addresses, whatever happens. -/
theorem run_distinct (start : ServerState) (empty : start.peers = [])
    (codes : (start.codes.map fun issued => issued.code.asStr).Nodup) (ops : List Op) :
    let state := run start ops
    (state.peers.map fun peer => peer.name.asStr).Nodup ∧
      (state.peers.map Peer.address).Nodup ∧
      (∀ peer ∈ state.peers, ∃ octet, state.subnet.hostOctet peer.address = some octet ∧
        2 ≤ octet ∧ octet ≤ 254) ∧
      state.peers.length ≤ 253 ∧
      (state.codes.map fun issued => issued.code.asStr).Nodup := by
  intro state
  have hcodes : (start.codes.map IssuedCode.code).Nodup := by
    apply List.Nodup.of_map JoinCode.asStr
    rwa [List.map_map]
  have h := run_wellFormed ⟨apart_empty empty, hcodes⟩ ops
  have names : (state.peers.map fun peer => peer.name.asStr).Nodup := by
    have := h.names.map fun _ _ => DeviceName.ext_text
    rwa [List.map_map] at this
  have strings : (state.codes.map fun issued => issued.code.asStr).Nodup := by
    have := h.codes.map fun _ _ => JoinCode.ext_text
    rwa [List.map_map] at this
  refine ⟨names, h.addresses, fun peer hp => ?_, h.length_le, strings⟩
  obtain ⟨hin, hlow, hhigh⟩ := h.hosts peer hp
  exact ⟨peer.address.d, by rw [Subnet.hostOctet, if_pos hin], hlow, hhigh⟩

omit [Unicode] in
theorem run_distinct_sample :
    letI := asciiTables
    let state := run Init.sampleHub [sampleJoin "macbook" 'A' (.sample 'a' rfl) (.sample 'b' rfl) 7,
      .remove "macbook", .issue (fun _ => .ok Init.sampleCode) 8 5 60]
    (state.peers.map Peer.address).Nodup ∧ state.peers.length ≤ 253 ∧
      (state.codes.map fun issued => issued.code.asStr).Nodup := by
  let := asciiTables
  have h := run_distinct Init.sampleHub rfl (List.nodup_singleton _)
    [sampleJoin "macbook" 'A' (.sample 'a' rfl) (.sample 'b' rfl) 7, .remove "macbook",
      .issue (fun _ => .ok Init.sampleCode) 8 5 60]
  exact ⟨h.2.1, h.2.2.2.1, h.2.2.2.2⟩

end Registry
