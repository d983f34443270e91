import Anago.SectionText
import Anago.Wg
import Anago.WgConf

/-!
# Reading the hub's configuration back

The generated file is a list of lines, none of them broken, and reading it as the
WireGuard tools do gives one section for the interface and one for each device.
-/

open StdText DecimalText SectionText

namespace WgConf

theorem isSpace_of_not_whitespace {c : Char} (h : isWhitespace c = false) : isSpace c = false := by
  have hc : c = ' ' ↔ c.toNat = 0x20 := by
    rw [← Char.toNat_inj]
    rfl
  simp only [isWhitespace, Bool.or_eq_false_iff, Bool.and_eq_false_iff,
    decide_eq_false_iff_not] at h
  simp only [isSpace, Bool.or_eq_false_iff, Bool.and_eq_false_iff, decide_eq_false_iff_not, hc]
  omega

theorem plain_of_isKey {key : String} (h : IsKey key) : Plain key.toList := by
  intro c hc
  refine ⟨?_, isSpace_of_not_whitespace (h.not_whitespace hc)⟩
  rintro rfl
  rcases h.chars _ hc with hbase | hequals
  · revert hbase
    decide
  · revert hequals
    decide

theorem plain_of_digits {cs : List Char} (h : ∀ c ∈ cs, c.isDigit = true ∨ c = '.' ∨ c = '/') :
    Plain cs := by
  intro c hc
  rcases h c hc with hdigit | rfl | rfl
  · have halnum : c.isAlphanum = true := by
      rw [Char.isAlphanum, hdigit, Bool.or_true]
    refine ⟨?_, isSpace_of_not_whitespace (isAlphanum_not_whitespace c halnum)⟩
    rintro rfl
    revert hdigit
    decide
  · decide
  · decide

theorem plain_display (addr : Ipv4Addr) {tail : List Char} (h : Plain tail) :
    Plain (addr.display ++ tail) := by
  refine Plain.append (plain_of_digits fun c hc => ?_) h
  rcases addr.display_chars c hc with hdigit | rfl
  · exact Or.inl hdigit
  · exact Or.inr (Or.inl rfl)

theorem plain_showNat (n : Nat) : Plain (showNat n) :=
  plain_of_digits fun c hc => Or.inl (List.all_eq_true.mp (all_isDigit_showNat n) c hc)

variable [Unicode]

def interfaceLines (state : ServerState) : List Line :=
  [.header "Interface".toList,
    .comment " anago server — generated file, edits are overwritten".toList,
    .setting "Address".toList (state.server.address.display ++ "/24".toList),
    .setting "ListenPort".toList (showNat state.listenPort.toNat),
    .setting "PrivateKey".toList state.server.privateKey.text.toList]

def peerLines (peer : Peer) : List Line :=
  [.blank, .header "Peer".toList, .comment (' ' :: peer.name.asStr.toList),
    .setting "PublicKey".toList peer.publicKey.toList,
    .setting "AllowedIPs".toList (peer.address.display ++ "/32".toList)]

theorem peerSection_lines (peer : Peer) : (peerSection peer).toList = render (peerLines peer) := by
  simp only [peerSection, peerLines, render, unlines, String.toList_append, Ipv4Addr.toString,
    String.toList_ofList, List.map_cons, List.map_nil, List.flatMap_cons, List.flatMap_nil,
    List.append_assoc, List.append_nil, Line.text]
  rfl

theorem foldl_peerSection (peers : List Peer) (out : String) :
    (peers.foldl (fun out peer => out ++ peerSection peer) out).toList =
      out.toList ++ render (peers.flatMap peerLines) := by
  induction peers generalizing out with
  | nil => rw [List.foldl_nil, List.flatMap_nil]; exact (List.append_nil _).symm
  | cons peer peers ih =>
    rw [List.foldl_cons, ih, String.toList_append, peerSection_lines, List.append_assoc,
      List.flatMap_cons, render_append]

theorem serverConfig_lines (state : ServerState) :
    (serverConfig state).expose.toList =
      render (interfaceLines state ++ state.peers.flatMap peerLines) := by
  rw [SecretText.expose, serverConfig]
  simp only [foldl_peerSection]
  rw [render_append]
  refine congrArg (· ++ render (state.peers.flatMap peerLines)) ?_
  have newline : "\n".toList = ['\n'] := rfl
  have slash : "/".toList ++ showNat prefixLen.toNat = "/24".toList := rfl
  have header : "[Interface]\n".toList = (Line.header "Interface".toList).text ++ ['\n'] := rfl
  have comment : "# anago server — generated file, edits are overwritten\n".toList =
      '#' :: (" anago server — generated file, edits are overwritten".toList ++ ['\n']) := by
    decide
  have address : "Address = ".toList = "Address".toList ++ [' ', '=', ' '] := rfl
  have port : "ListenPort = ".toList = "ListenPort".toList ++ [' ', '=', ' '] := rfl
  have secret : "PrivateKey = ".toList = "PrivateKey".toList ++ [' ', '=', ' '] := rfl
  simp only [interfaceLines, render, unlines, String.toList_append, Ipv4Addr.toString,
    String.toList_ofList, List.map_cons, List.map_nil, List.flatMap_cons, List.flatMap_nil,
    List.append_nil, newline, header, comment, address, port, secret, Line.text]
  simp only [← slash, List.append_assoc, List.cons_append]

/-- What the interface is told of itself. -/
def interfaceSection (state : ServerState) : Section where
  name := "Interface".toList
  settings := [("Address".toList, state.server.address.display ++ "/24".toList),
    ("ListenPort".toList, showNat state.listenPort.toNat),
    ("PrivateKey".toList, state.server.privateKey.text.toList)]

/-- What it is told of a device. -/
def tunnel (peer : Peer) : Section where
  name := "Peer".toList
  settings := [("PublicKey".toList, peer.publicKey.toList),
    ("AllowedIPs".toList, peer.address.display ++ "/32".toList)]

theorem interfaceLines_proper {state : ServerState} (key : IsKey state.server.privateKey.text) :
    ∀ line ∈ interfaceLines state, line.Proper := by
  have header : (Line.header "Interface".toList).Proper := by decide
  have comment : (Line.comment
      " anago server — generated file, edits are overwritten".toList).Proper := by decide
  have address : (Line.setting "Address".toList
      (state.server.address.display ++ "/24".toList)).Proper :=
    ⟨by decide, plain_display state.server.address (by decide)⟩
  have port : (Line.setting "ListenPort".toList (showNat state.listenPort.toNat)).Proper :=
    ⟨by decide, plain_showNat state.listenPort.toNat⟩
  have secret : (Line.setting "PrivateKey".toList
      state.server.privateKey.text.toList).Proper := ⟨by decide, plain_of_isKey key⟩
  rw [interfaceLines]
  simp only [List.forall_mem_cons, List.not_mem_nil, false_implies, implies_true, and_true]
  exact ⟨header, comment, address, port, secret⟩

theorem peerLines_proper {peer : Peer} (key : IsKey peer.publicKey) :
    ∀ line ∈ peerLines peer, line.Proper := by
  have name : '\n' ∉ ' ' :: peer.name.asStr.toList := by
    rw [List.mem_cons]
    rintro (hc | hc)
    · revert hc
      decide
    · exact absurd (peer.name.not_whitespace_of_mem hc) (by decide)
  simp only [peerLines, List.forall_mem_cons, List.not_mem_nil, false_implies, implies_true,
    and_true, Line.Proper]
  exact ⟨trivial, by decide, name, ⟨by decide, plain_of_isKey key⟩, by decide,
    plain_display peer.address (by decide)⟩

theorem foldlM_peerLines (peers : List Peer) (sections : List Section) :
    (peers.flatMap peerLines).foldlM put sections = some (sections ++ peers.map tunnel) := by
  induction peers generalizing sections with
  | nil => simp
  | cons peer peers ih =>
    have one : (peerLines peer).foldlM put sections = some (sections ++ [tunnel peer]) := by
      simp [peerLines, put, tunnel]
    rw [List.flatMap_cons, List.foldlM_append, one, List.map_cons]
    simpa using ih (sections ++ [tunnel peer])

/-- Whatever the devices are called: an interface with its address, port and key, and a
section for each device in the order of the state. -/
theorem read_serverConfig {state : ServerState} (secret : IsKey state.server.privateKey.text)
    (keys : ∀ peer ∈ state.peers, IsKey peer.publicKey) :
    read (serverConfig state).expose.toList =
      some (interfaceSection state :: state.peers.map tunnel) := by
  have proper : ∀ line ∈ interfaceLines state ++ state.peers.flatMap peerLines, line.Proper := by
    intro line hline
    rcases List.mem_append.mp hline with hline | hline
    · exact interfaceLines_proper secret line hline
    · obtain ⟨peer, hpeer, hline⟩ := List.mem_flatMap.mp hline
      exact peerLines_proper (keys peer hpeer) line hline
  have interface : (interfaceLines state).foldlM put [] = some [interfaceSection state] := rfl
  rw [serverConfig_lines, read_render proper, List.foldlM_append, interface]
  exact foldlM_peerLines state.peers [interfaceSection state]

end WgConf
