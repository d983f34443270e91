import Anago.AcmeAccount
import Anago.Init

/-!
# What `server renew` decides and what it edits

The plan is a function of the hub, the flags and the clock, and so are the edits. Every
edit here touches the TLS settings and the Cloudflare settings and nothing else.
-/

open StdText AcmeClient Schedule

namespace Renew

/-- Which CA the hub should order from after this run. -/
inductive Ca where
  | staging
  | production
  deriving DecidableEq, Repr

/-- The flags of `server renew`. -/
structure ServerRenew where
  force : Bool
  dnsOnly : Bool
  ca : Option Ca
  acmeEmail : Option String
  acmeChallenge : Option Challenge
  cfToken : Option String
  cfTokenFile : Option String
  deriving DecidableEq, Repr

/-- `server renew` with no flags. -/
def ServerRenew.plain : ServerRenew := ⟨false, false, none, none, none, none, none⟩

/-- Why a run is ordering a certificate. -/
inductive Why where
  | forced
  | due
  | different (flag : String)
  deriving DecidableEq, Repr

inductive Plan where
  | pushRecord
  | notDue (dueAt : Int64)
  | settings
  | reissue (why : Why)
  deriving DecidableEq, Repr

/-- Why `server renew` could not do what it was asked. -/
inductive RenewError where
  | notOurs (certPath : String)
  | busy
  | noToken
  | noTokenForDns01
  | unreadable (path detail : String)
  | tokenWithoutJob (given : String) (challenge : Challenge)
  | noAddress
  | moved
  | cloudflare (detail : String)
  | acme (source : AcmeError) (notAfter : Option Int64) (now : Int64)
  | state (detail : String)
  deriving DecidableEq, Repr

/-- The challenge this hub will be on when the run is over. -/
def resultingChallenge (tls : Tls) (asked : ServerRenew) : Challenge :=
  match asked.acmeChallenge, tls.renewable with
  | some challenge, _ => challenge
  | none, some current => current.challenge
  | none, none => .http01

/-- Refuses a token this hub has nowhere to put. -/
def checkTokenHasAJob (tls : Tls) (asked : ServerRenew) : Except RenewError Unit :=
  let refuse (given : String) : Except RenewError Unit :=
    if resultingChallenge tls asked = .dns01 then .ok ()
    else .error (.tokenWithoutJob given (resultingChallenge tls asked))
  match asked.cfToken, asked.cfTokenFile with
  | some _, _ => refuse "--cf-token"
  | none, some _ => refuse "--cf-token-file"
  | none, none => .ok ()

/-- The directory of a CA flag, and the flag. -/
def Ca.named : Ca → String × String
  | .staging => (AcmeClient.staging, "--acme-staging")
  | .production => (AcmeClient.production, "--acme-production")

/-- The flag that moves this hub to another CA, when one does. -/
def changesCa (current : Acme) (asked : Option Ca) : Option String :=
  asked.bind fun ca => if current.directory ≠ ca.named.1 then some ca.named.2 else none

variable [Unicode]

/-- Whether any of the flags given would alter the state. -/
def changesAnything (state : ServerState) (asked : ServerRenew) : Bool :=
  match state.tls.renewable with
  | none => true
  | some current =>
    let recordedToken := state.cloudflare.bind Cloudflare.tokenPath
    (asked.acmeEmail.isSome && asked.acmeEmail ≠ current.contact) ||
      asked.acmeChallenge.any (· ≠ current.challenge) ||
      asked.cfToken.isSome ||
      (asked.cfTokenFile.isSome && asked.cfTokenFile ≠ recordedToken)

/-- Decides what `server renew` does. -/
def plan (state : ServerState) (asked : ServerRenew) (now : Int64) : Except RenewError Plan :=
  if asked.dnsOnly then .ok .pushRecord
  else
    match checkTokenHasAJob state.tls asked with
    | .error e => .error e
    | .ok () =>
      match state.tls.renewable with
      | none =>
        if asked.acmeEmail.isNone then .error (.notOurs state.tls.certPath)
        else .ok (.reissue (.different "--acme-email"))
      | some current =>
        match changesCa current asked.ca with
        | some flag => .ok (.reissue (.different flag))
        | none =>
          if asked.force then .ok (.reissue .forced)
          else if state.tls.needsRenewal now renewalLeadSecs then .ok (.reissue .due)
          else if changesAnything state asked then .ok .settings
          -- a renewable certificate has a due date
          else .ok (.notDue
            (Schedule.renewalDue current.renewAfter state.tls.notAfter renewalLeadSecs))

/-- What this run does about the Cloudflare token. -/
inductive Keeping where
  | unchanged
  | forget
  | token (zoneId path : String)
  deriving DecidableEq, Repr

inductive Disposition where
  | unchanged
  | forget
  | keep
  deriving DecidableEq, Repr

/-- Which of the three this run is. `forget` is only the move away from DNS-01. -/
def disposition (tls : Tls) (asked : ServerRenew) : Disposition :=
  match resultingChallenge tls asked, tls.renewable.map Acme.challenge with
  | .dns01, _ => .keep
  | .http01, some .dns01 => .forget
  | .http01, _ => .unchanged

/-- Works out what happens to the token. `kept` is what came of finding the zone and of
putting the token where a renewal will read it. -/
def settle (disposition : Disposition) (kept : Except RenewError (String × String)) :
    Except RenewError Keeping :=
  match disposition with
  | .unchanged => .ok .unchanged
  | .forget => .ok .forget
  | .keep => kept.map fun (zoneId, path) => .token zoneId path

/-- The part of `apply` that is about an ACME hub's own settings: only what was given. -/
def applyAcme (acme : Acme) (asked : ServerRenew) : Acme :=
  { acme with
    directory := match asked.ca with
      | some ca => AcmeClient.directory (ca = .staging)
      | none => acme.directory
    contact := asked.acmeEmail.or acme.contact
    challenge := asked.acmeChallenge.getD acme.challenge }

def applyTls (tls : Tls) (asked : ServerRenew) (paths : ServerPaths) : Tls :=
  match tls.source with
  -- manual to ACME: anago's own paths, and no expiry yet
  | .manual => {
      certPath := paths.certificate
      keyPath := paths.privateKey
      notAfter := none
      source := .acme {
        directory := AcmeClient.directory (asked.ca = some .staging)
        contact := asked.acmeEmail
        accountKeyPath := paths.accountKey
        accountUrl := ""
        challenge := asked.acmeChallenge.getD .http01
        issuedAt := 0
        renewAfter := 0 } }
  | .acme acme => { tls with source := .acme (applyAcme acme asked) }

def applyKeeping (cloudflare : Option Cloudflare) : Keeping → Option Cloudflare
  | .unchanged => cloudflare
  | .forget => cloudflare.map fun cloudflare => { cloudflare with tokenPath := none }
  | .token zoneId path =>
    match cloudflare with
    -- in another zone the old record id means nothing
    | some cloudflare => some {
        zoneId := zoneId
        recordId := if cloudflare.zoneId ≠ zoneId then none else cloudflare.recordId
        tokenPath := some path }
    | none => some ⟨zoneId, none, some path⟩

/-- Writes what was asked into the state. -/
def apply (state : ServerState) (asked : ServerRenew) (paths : ServerPaths) (keeping : Keeping) :
    ServerState :=
  { state with
    tls := applyTls state.tls asked paths
    cloudflare := applyKeeping state.cloudflare keeping }

/-- How a push of the A record came out. -/
inductive Applied where
  | created (recordId : String)
  | updated (recordId : String) (adopted : Bool)
  | unchanged (recordId : String)
  deriving DecidableEq, Repr

def Applied.recordId : Applied → String
  | created recordId => recordId
  | updated recordId _ => recordId
  | unchanged recordId => recordId

/-- A record that was written, and the zone it went into. -/
structure Pushed where
  applied : Applied
  zoneId : String
  deriving DecidableEq, Repr

/-- Writes the zone and record ids a push proved. -/
def remember (state : ServerState) (pushed : Pushed) : ServerState :=
  { state with
    cloudflare := match state.cloudflare with
      | some cloudflare => some { cloudflare with
          zoneId := pushed.zoneId
          recordId := some pushed.applied.recordId }
      | none => some ⟨pushed.zoneId, some pushed.applied.recordId, none⟩ }

/-- What no renewal may touch. -/
structure Untouched (state state' : ServerState) : Prop where
  domain : state'.domain = state.domain
  subnet : state'.subnet = state.subnet
  listenPort : state'.listenPort = state.listenPort
  apiPort : state'.apiPort = state.apiPort
  server : state'.server = state.server
  peers : state'.peers = state.peers
  codes : state'.codes = state.codes

theorem Untouched.trans {a b c : ServerState} (h : Untouched a b) (h' : Untouched b c) :
    Untouched a c where
  domain := h'.domain.trans h.domain
  subnet := h'.subnet.trans h.subnet
  listenPort := h'.listenPort.trans h.listenPort
  apiPort := h'.apiPort.trans h.apiPort
  server := h'.server.trans h.server
  peers := h'.peers.trans h.peers
  codes := h'.codes.trans h.codes

theorem apply_untouched (state : ServerState) (asked : ServerRenew) (paths : ServerPaths)
    (keeping : Keeping) : Untouched state (apply state asked paths keeping) :=
  ⟨rfl, rfl, rfl, rfl, rfl, rfl, rfl⟩

theorem remember_untouched (state : ServerState) (pushed : Pushed) :
    Untouched state (remember state pushed) :=
  ⟨rfl, rfl, rfl, rfl, rfl, rfl, rfl⟩

theorem record_untouched (state : ServerState) (renewed : Renewed) (now : Int64) :
    Untouched state (record state renewed now) :=
  ⟨rfl, rfl, rfl, rfl, rfl, rfl, rfl⟩

/-- The settings of a hub small enough to run things on. -/
def sampleAcme (accountUrl : String) : Acme :=
  ⟨production, some "jo@example.com", "/acme/account.json", accountUrl, .http01, 0, 0⟩

def samplePaths : ServerPaths := ⟨"/acme/c.pem", "/acme/k.pem", "/acme/account.json"⟩

def sampleState (accountUrl : String) : @ServerState asciiTables :=
  letI := asciiTables
  { Init.sampleHub with tls := ⟨"/acme/c.pem", "/acme/k.pem", none, .acme (sampleAcme accountUrl)⟩ }

end Renew
