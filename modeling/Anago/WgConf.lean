import Anago.State

/-!
# The hub's WireGuard configuration
-/

open DecimalText

/-- Rendered text with a private key in it. -/
structure SecretText where
  text : String
  deriving DecidableEq

/-- The bytes; the only way out. -/
def SecretText.expose (secret : SecretText) : String := secret.text

namespace WgConf

variable [StdText.Unicode]

/-- What the loop of `server_config` adds for a device. -/
def peerSection (peer : Peer) : String :=
  "\n[Peer]\n" ++ ("# " ++ peer.name.asStr ++ "\n") ++ ("PublicKey = " ++ peer.publicKey ++ "\n") ++
    ("AllowedIPs = " ++ peer.address.toString ++ "/32\n")

/-- The server's `anago.conf`: each device gets its own `[Peer]`, in state order. -/
def serverConfig (state : ServerState) : SecretText :=
  let out := "[Interface]\n" ++ "# anago server — generated file, edits are overwritten\n" ++
    ("Address = " ++ state.server.address.toString ++ "/" ++
      String.ofList (showNat prefixLen.toNat) ++ "\n") ++
    ("ListenPort = " ++ String.ofList (showNat state.listenPort.toNat) ++ "\n") ++
    ("PrivateKey = " ++ state.server.privateKey.text ++ "\n")
  ⟨state.peers.foldl (fun out peer => out ++ peerSection peer) out⟩

end WgConf
