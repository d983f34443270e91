import Anago.AccountOnDisk

/-!
# `server init`, as far as the certificate goes

It decides between a certificate that is given and one that is ordered, orders, and
publishes the state file last. What it wrote before a failure it removes again, but only
what was not there before.
-/

open StdText AcmeClient

namespace Init

/-- What `server init` was told about the certificate. -/
structure Request where
  tlsCert : Option String
  tlsKey : Option String
  acmeEmail : Option String
  staging : Bool
  challenge : Option Challenge
  /-- Whether a Cloudflare token was found anywhere. -/
  token : Bool
  deriving DecidableEq, Repr

/-- How this hub will have a certificate. -/
inductive Plan where
  | manual (cert key : String)
  | acme (directory : String) (challenge : Challenge) (contact : String) (staging : Bool)
  deriving DecidableEq, Repr

inductive PlanError where
  | halfAPair (given missing : String)
  | acmeFlagsWithCertificate (flags : List String)
  | noContact
  | dns01WithoutToken
  deriving DecidableEq, Repr

inductive InitError where
  | alreadyInitialized
  | plan (error : PlanError)
  | io (detail : String)
  | tls (detail : String)
  | cloudflare (detail : String)
  | acme (error : AcmeError)
  | afterIssuance (source : InitError)
  deriving DecidableEq, Repr

/-- Which ACME flags were given. -/
def acmeFlags (request : Request) : List String :=
  (if request.acmeEmail.isSome then ["--acme-email"] else []) ++
    (if request.staging then ["--acme-staging"] else []) ++
    if request.challenge.isSome then ["--acme-challenge"] else []

/-- Decides how the certificate will be obtained. -/
def plan (request : Request) : Except PlanError Plan :=
  match request.tlsCert, request.tlsKey with
  | some cert, some key =>
    if acmeFlags request ≠ [] then .error (.acmeFlagsWithCertificate (acmeFlags request))
    else .ok (.manual cert key)
  | some _, none => .error (.halfAPair "--tls-cert" "--tls-key")
  | none, some _ => .error (.halfAPair "--tls-key" "--tls-cert")
  | none, none =>
    match (request.acmeEmail.map fun email => String.ofList (trim email.toList)).filter
        (!String.isEmpty ·) with
    | none => .error .noContact
    | some contact =>
      let acme (challenge : Challenge) : Except PlanError Plan :=
        .ok (.acme (AcmeClient.directory request.staging) challenge contact request.staging)
      match request.challenge with
      | some .dns01 => if request.token then acme .dns01 else .error .dns01WithoutToken
      | some .http01 => acme .http01
      | none => acme (if request.token then .dns01 else .http01)

/-- The TLS settings `build_state` starts from. -/
def Plan.tls (paths : ServerPaths) : Plan → Tls
  | .manual cert key => Tls.manual cert key
  | .acme directory challenge contact _ => {
      certPath := paths.certificate
      keyPath := paths.privateKey
      notAfter := none
      source := .acme {
        directory := directory
        contact := some contact
        accountKeyPath := paths.accountKey
        accountUrl := ""
        challenge := challenge
        issuedAt := 0
        renewAfter := 0 } }

/-- How a run turns out where it is not up to it. -/
structure Luck where
  tools : Except String Unit
  /-- The lock, and that the WireGuard config does not exist. -/
  locked : Except String Unit
  /-- The DNS half, and what it leaves to record. -/
  dns : Except String (Option Cloudflare)
  keys : Except String (PrivateKey × String)
  answers : Answers
  /-- Whether the pair can be served, and its expiry. -/
  loaded : Except String (Option Int64)
  published : Except String Unit

/-- Everything before the CA: it can refuse and writes nothing. -/
def prepare (request : Request) (luck : Luck) :
    Except InitError (Plan × Option Cloudflare × PrivateKey × String) := do
  let plan ← (plan request).mapError .plan
  luck.tools.mapError .io
  match plan with
  -- a certificate that was given is on disk now
  | .manual _ _ => (luck.loaded.map fun _ => ()).mapError .tls
  | .acme _ _ _ _ => pure ()
  luck.locked.mapError .io
  let cloudflare ← luck.dns.mapError .cloudflare
  let keys ← luck.keys.mapError .io
  return (plan, cloudflare, keys)

/-- Removes what was not there before. -/
def sweep (before after : Disk) : Disk where
  account := before.account.bind fun _ => after.account
  certificate := before.certificate.bind fun _ => after.certificate
  key := before.key.bind fun _ => after.key

variable [Unicode] [Format]

/-- Publishes the state with the expiry of the pair it will serve. -/
def publish (state : ServerState) (luck : Luck) : Except InitError String :=
  match luck.loaded with
  | .error detail => .error (.tls detail)
  | .ok notAfter =>
    match luck.published with
    | .error detail => .error (.io detail)
    | .ok () => .ok { state with tls := { state.tls with notAfter := notAfter } }.toJsonString

/-- `server init`: its result, the state file, the other files and what the CA was told. -/
def run (file : Option String) (disk : Disk) (args : ServerInit) (request : Request)
    (paths : ServerPaths) (code : JoinCode) (now : Int64) (luck : Luck) :
    Except InitError Unit × Option String × Disk × List Call :=
  if file.isSome then (.error .alreadyInitialized, file, disk, [])
  else
    match prepare request luck with
    | .error e => (.error e, file, disk, [])
    | .ok (plan, cloudflare, keys) =>
      let state := buildState args (plan.tls paths) cloudflare keys code now
      match plan with
      | .manual _ _ =>
        match publish state luck with
        | .error e => (.error e, file, disk, [])
        | .ok text => (.ok (), some text, disk, [])
      | .acme _ _ _ _ =>
        let attempt := AcmeClient.renew state paths disk luck.answers
        match attempt.result with
        | .error e => (.error (.acme e), file, sweep disk attempt.disk, attempt.calls)
        | .ok issued =>
          match publish (record state issued now) luck with
          -- the certificate was paid for all the same
          | .error e => (.error (.afterIssuance e), file, sweep disk attempt.disk, attempt.calls)
          | .ok text => (.ok (), some text, attempt.disk, attempt.calls)

/-- The ACME settings a new hub orders under. -/
def wanted (paths : ServerPaths) (directory contact : String) (challenge : Challenge) : Acme :=
  ⟨directory, some contact, paths.accountKey, "", challenge, 0, 0⟩

/-- All `server init` can come to. -/
inductive Ran (file : Option String) (disk : Disk) (request : Request) (paths : ServerPaths)
    (now : Int64) (luck : Luck) : Except InitError Unit × Option String × Disk × List Call → Prop
  | refused {e : InitError} : Ran file disk request paths now luck (.error e, file, disk, [])
  | failed {e : InitError} {after : Disk} {calls : List Call} : file = none →
    Ran file disk request paths now luck (.error e, none, after, calls)
  | manual {text : String} {state : ServerState} : ServerState.parse text = .ok state →
    state.tls.renewable = none → Ran file disk request paths now luck (.ok (), some text, disk, [])
  | issued {text directory contact : String} {challenge : Challenge} {staging : Bool}
    {cloudflare : Option Cloudflare} {keys : PrivateKey × String} {issued : Renewed} {after : Disk}
    {calls : List Call} {notAfter : Option Int64} {state : ServerState} : file = none →
    prepare request luck = .ok (.acme directory challenge contact staging, cloudflare, keys) →
    Leaves (wanted paths directory contact challenge) disk luck.answers
      ⟨.ok issued, after, calls⟩ →
    luck.loaded = .ok notAfter → luck.published = .ok () → ServerState.parse text = .ok state →
    state.tls.renewable = some ({ wanted paths directory contact challenge with
      accountUrl := issued.accountUrl }.issued now issued.notAfter) →
    Ran file disk request paths now luck (.ok (), some text, after, calls)

omit [Format] in
theorem publish_ok {state : ServerState} {luck : Luck} {text : String}
    (h : publish state luck = .ok text) (home : state.server.address = state.subnet.serverAddress) :
    ∃ notAfter, luck.loaded = .ok notAfter ∧ luck.published = .ok () ∧
      ServerState.parse text =
        .ok { state with tls := { state.tls with notAfter := notAfter } } := by
  rw [publish] at h
  split at h
  · cases h
  next notAfter hloaded =>
  split at h
  · cases h
  next hpublished =>
  cases h
  exact ⟨notAfter, hloaded, hpublished, ServerState.parse_toJsonString home⟩

theorem run_ran (file : Option String) (disk : Disk) (args : ServerInit) (request : Request)
    (paths : ServerPaths) (code : JoinCode) (now : Int64) (luck : Luck) :
    Ran file disk request paths now luck (run file disk args request paths code now luck) := by
  rw [run]
  split
  · exact .refused
  next absent =>
  have absent : file = none := by simpa using absent
  subst absent
  cases hprepare : prepare request luck with
  | error e => exact .refused
  | ok prepared =>
    obtain ⟨plan, cloudflare, keys⟩ := prepared
    cases plan with
    | manual cert key =>
      simp only
      split
      · exact .refused
      · next text hpublish =>
        obtain ⟨notAfter, _, _, hparse⟩ := publish_ok hpublish rfl
        exact .manual hparse rfl
    | acme directory challenge contact staging =>
      simp only
      let plan : Plan := .acme directory challenge contact staging
      have leaves : Leaves (wanted paths directory contact challenge) disk luck.answers
          (AcmeClient.renew (buildState args (plan.tls paths) cloudflare keys code now) paths disk
            luck.answers) := renew_leaves rfl paths disk luck.answers
      generalize AcmeClient.renew _ paths disk luck.answers = attempt at *
      obtain ⟨result, after, calls⟩ := attempt
      cases result with
      | error e => exact .failed rfl
      | ok issued =>
        simp only
        split
        · exact .failed rfl
        · next text hpublish =>
          obtain ⟨notAfter, hloaded, hpublished, hparse⟩ := publish_ok hpublish rfl
          exact .issued rfl hprepare leaves hloaded hpublished hparse rfl

end Init
