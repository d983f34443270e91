import Anago.State

/-!
# The state a hub starts from

What `server init` writes: no devices, and one fresh join code to paste on the first.
-/

open StdText

structure ServerInit where
  domain : String
  subnet : Subnet
  listenPort : UInt16
  apiPort : UInt16
  deriving DecidableEq

namespace Init

variable [Unicode]

/-- `build_state`, with the TLS and Cloudflare records its setup decided on. -/
def buildState (args : ServerInit) (tls : Tls) (cloudflare : Option Cloudflare)
    (keys : PrivateKey × String) (code : JoinCode) (now : Int64) : ServerState where
  domain := args.domain
  subnet := args.subnet
  listenPort := args.listenPort
  apiPort := args.apiPort
  tls := tls
  cloudflare := cloudflare
  server := {
    privateKey := keys.1
    publicKey := keys.2
    address := args.subnet.serverAddress }
  peers := []
  codes := [IssuedCode.issue code now JoinCode.defaultTtlSecs]

/-- The code of a hub small enough to run things on. -/
def sampleCode : JoinCode := (JoinCode.fromIndices [5, 23, 28, 2, 19, 0, 17, 11]).get (by decide)

def sampleHub : @ServerState asciiTables :=
  letI := asciiTables
  buildState ⟨"net.example.com", ⟨⟨10, 100, 0, 0⟩, rfl⟩, 51820, 443⟩
    (Tls.manual "/c.pem" "/k.pem") none (⟨"a="⟩, "b=") sampleCode 0

end Init
