import Anago.AccountStep

/-!
# When `server renew` orders, and what it settles

A run orders again when a new certificate would be another one, or is due. Everything else
is written down once: asked again, there is nothing left to write.
-/

open StdText AcmeClient Schedule

namespace Cfapi

/-- Where a token came from. -/
inductive Source where
  | file (path : String)
  | flag
  | env
  deriving DecidableEq, Repr

inductive CfError where
  | bothFlags
  deriving DecidableEq, Repr

def CfError.display : CfError → String
  | bothFlags =>
    "--cf-token and --cf-token-file were both given; pass one. " ++
      "The file is the safer of the two — " ++
      "a token in argv is visible to `ps` and lands in shell history"

/-- Decides which of the three ways in wins. An empty variable is an unset one. -/
def choose (file flag env : Option String) : Except CfError (Option Source) :=
  match file, flag with
  | some _, some _ => .error .bothFlags
  | some path, none => .ok (some (.file path))
  | none, some _ => .ok (some .flag)
  | none, none => .ok ((env.filter fun value => trim value.toList ≠ []).map fun _ => .env)

end Cfapi

namespace Renew

/-- Where `store_token` leaves a token: the operator's own file stays where it is. -/
def keptAt (cfToken : String) : Cfapi.Source → String
  | .file path => path
  | _ => cfToken

variable [Unicode]

/-- Where `read_token` looks: a flag, then the file the hub recorded, then the environment. -/
def tokenSource (state : ServerState) (asked : ServerRenew) (env : Option String) :
    Except Cfapi.CfError (Option Cfapi.Source) :=
  let recorded := state.cloudflare.bind Cloudflare.tokenPath
  let file :=
    match asked.cfTokenFile, asked.cfToken with
    | some path, _ => some path
    | none, some _ => none
    | none, none => recorded
  Cfapi.choose file asked.cfToken env

/-- The token a run found, put where a renewal will read it, and the zone it was found in. -/
def keepToken (cfToken : String) (zone : Except RenewError String) :
    Except Cfapi.CfError (Option Cfapi.Source) → Except RenewError (String × String)
  | .error e => .error (.cloudflare e.display)
  | .ok none => .error .noTokenForDns01
  | .ok (some source) => zone.map fun zoneId => (zoneId, keptAt cfToken source)

/-- The `Keeping` that the disposition calls for. `zone` is what looking the zone up comes to. -/
def keepingOf (state : ServerState) (asked : ServerRenew) (env : Option String) (cfToken : String)
    (zone : Except RenewError String) : Except RenewError Keeping :=
  settle (disposition state.tls asked) (keepToken cfToken zone (tokenSource state asked env))

/-- What keeping can be, and when. -/
theorem keepingOf_cases {state : ServerState} {asked : ServerRenew} {env : Option String}
    {cfToken : String} {zone : Except RenewError String} {keeping : Keeping}
    (h : keepingOf state asked env cfToken zone = .ok keeping) :
    (disposition state.tls asked = .unchanged ∧ keeping = .unchanged) ∨
      (disposition state.tls asked = .forget ∧ keeping = .forget) ∨
        ∃ zoneId path, disposition state.tls asked = .keep ∧ keeping = .token zoneId path ∧
          zone = .ok zoneId ∧ ∀ file, asked.cfTokenFile = some file → path = file := by
  rw [keepingOf, settle.eq_def] at h
  split at h
  · next hd =>
    cases h
    exact Or.inl ⟨hd, rfl⟩
  · next hd =>
    cases h
    exact Or.inr (Or.inl ⟨hd, rfl⟩)
  · next hd =>
    refine Or.inr (Or.inr ?_)
    rw [keepToken.eq_def] at h
    split at h
    · cases h
    · cases h
    next source hsource =>
      cases zone with
      | error e => cases h
      | ok zoneId =>
        cases h
        refine ⟨zoneId, _, hd, rfl, rfl, fun file hfile => ?_⟩
        rw [tokenSource, hfile] at hsource
        simp only [Cfapi.choose] at hsource
        split at hsource
        · cases hsource
        · next path _ heq _ =>
          cases heq
          cases hsource
          rfl
        · next heq _ => cases heq
        · next heq _ => cases heq

omit [Unicode] in
theorem changesCa_eq_none {current : Acme} {asked : Option Ca}
    (h : changesCa current asked = none) :
    ∀ ca, asked = some ca → current.directory = ca.named.1 := by
  rintro ca rfl
  by_contra differs
  rw [changesCa, Option.bind_some, if_pos differs] at h
  cases h

/-- A plan for a run that is about more than DNS, where it comes from. -/
theorem plan_eq_ok {state : ServerState} {asked : ServerRenew} {now : Int64} {found : Plan}
    (plain : asked.dnsOnly = false) (h : Renew.plan state asked now = .ok found) :
    checkTokenHasAJob state.tls asked = .ok () ∧
      ((state.tls.renewable = none ∧ asked.acmeEmail.isSome = true ∧
          found = .reissue (.different "--acme-email")) ∨
        ∃ current, state.tls.renewable = some current ∧
          ((∃ flag, changesCa current asked.ca = some flag ∧ found = .reissue (.different flag)) ∨
            changesCa current asked.ca = none ∧
              ((asked.force = true ∧ found = .reissue .forced) ∨
                asked.force = false ∧
                  ((state.tls.needsRenewal now renewalLeadSecs = true ∧ found = .reissue .due) ∨
                    state.tls.needsRenewal now renewalLeadSecs = false ∧
                      ((changesAnything state asked = true ∧ found = .settings) ∨
                        changesAnything state asked = false ∧ ∃ dueAt,
                        found = .notDue dueAt))))) := by
  rw [Renew.plan, plain] at h
  simp only [Bool.false_eq_true, if_false] at h
  split at h
  · cases h
  next job =>
    refine ⟨job, ?_⟩
    split at h
    · next manual =>
      split at h
      · cases h
      next email =>
        cases h
        exact Or.inl ⟨manual, Option.isSome_iff_ne_none.mpr (by simpa using email), rfl⟩
    · next current acme =>
      refine Or.inr ⟨current, acme, ?_⟩
      split at h
      · next flag changed =>
        cases h
        exact Or.inl ⟨flag, changed, rfl⟩
      next same =>
        refine Or.inr ⟨same, ?_⟩
        split at h
        · next force =>
          cases h
          exact Or.inl ⟨force, rfl⟩
        next lazy =>
          refine Or.inr ⟨by simpa using lazy, ?_⟩
          split at h
          · next due =>
            cases h
            exact Or.inl ⟨due, rfl⟩
          next early =>
            refine Or.inr ⟨by simpa using early, ?_⟩
            split at h
            · next changes =>
              cases h
              exact Or.inl ⟨changes, rfl⟩
            · next settled =>
              cases h
              exact Or.inr ⟨by simpa using settled, _, rfl⟩

/-- What `apply` leaves of an ACME hub's certificate. -/
structure SameCertificate (tls tls' : Tls) (current current' : Acme) : Prop where
  before : tls.renewable = some current
  after : tls'.renewable = some current'
  certPath : tls'.certPath = tls.certPath
  keyPath : tls'.keyPath = tls.keyPath
  notAfter : tls'.notAfter = tls.notAfter
  directory : current'.directory = current.directory
  issuedAt : current'.issuedAt = current.issuedAt
  renewAfter : current'.renewAfter = current.renewAfter

omit [Unicode] in
theorem applyTls_acme {tls : Tls} {current : Acme} (h : tls.renewable = some current)
    (asked : ServerRenew) (paths : ServerPaths) :
    applyTls tls asked paths = { tls with source := .acme (applyAcme current asked) } := by
  rw [applyTls, Tls.renewable_eq_some.mp h]

omit [Unicode] in
theorem renewable_applyTls {tls : Tls} {current : Acme} (h : tls.renewable = some current)
    (asked : ServerRenew) (paths : ServerPaths) :
    (applyTls tls asked paths).renewable = some (applyAcme current asked) := by
  rw [applyTls_acme h]
  rfl

theorem sameCertificate_apply {state : ServerState} {current : Acme} {asked : ServerRenew}
    (acme : state.tls.renewable = some current) (same : changesCa current asked.ca = none)
    (paths : ServerPaths) (keeping : Keeping) :
    SameCertificate state.tls (apply state asked paths keeping).tls current
      (applyAcme current asked) where
  before := acme
  after := renewable_applyTls acme asked paths
  certPath := by rw [apply, applyTls_acme acme]
  keyPath := by rw [apply, applyTls_acme acme]
  notAfter := by rw [apply, applyTls_acme acme]
  directory := (applyAcme_directory current asked).mpr same
  issuedAt := rfl
  renewAfter := rfl

omit [Unicode] in
theorem SameCertificate.needsRenewal {tls tls' : Tls} {current current' : Acme}
    (h : SameCertificate tls tls' current current') (now leadSecs : Int64) :
    tls'.needsRenewal now leadSecs = tls.needsRenewal now leadSecs := by
  simp only [Tls.needsRenewal, Tls.renewalDue, h.before, h.after, Option.map_some,
    h.notAfter, h.renewAfter]

omit [Unicode] in
/-- The challenge that the flags ask for is the one that was written. -/
theorem applyAcme_challenge {tls : Tls} {current : Acme} (h : tls.renewable = some current)
    (asked : ServerRenew) : (applyAcme current asked).challenge = resultingChallenge tls asked := by
  rw [resultingChallenge, h, applyAcme]
  cases asked.acmeChallenge <;> rfl

omit [Unicode] in
theorem resultingChallenge_again {tls : Tls} {current : Acme} (h : tls.renewable = some current)
    (asked : ServerRenew) (paths : ServerPaths) :
    resultingChallenge (applyTls tls asked paths) asked = resultingChallenge tls asked := by
  rw [resultingChallenge, renewable_applyTls h, ← applyAcme_challenge h]
  cases hc : asked.acmeChallenge with
  | none => rfl
  | some challenge => simp [applyAcme, hc]

omit [Unicode] in
theorem checkTokenHasAJob_again {tls : Tls} {current : Acme} (h : tls.renewable = some current)
    (asked : ServerRenew) (paths : ServerPaths) :
    checkTokenHasAJob (applyTls tls asked paths) asked = checkTokenHasAJob tls asked := by
  simp only [checkTokenHasAJob, resultingChallenge_again h]

/-- What was asked for and written down is no change any more. -/
theorem changesAnything_again {state : ServerState} {current : Acme} {asked : ServerRenew}
    (acme : state.tls.renewable = some current)
    (job : checkTokenHasAJob state.tls asked = .ok ()) (token : asked.cfToken = none)
    {env : Option String} {cfToken : String} {zone : Except RenewError String} {keeping : Keeping}
    (h : keepingOf state asked env cfToken zone = .ok keeping) (paths : ServerPaths) :
    changesAnything (apply state asked paths keeping) asked = false := by
  have file : asked.cfTokenFile.isSome = true →
      (applyKeeping state.cloudflare keeping).bind Cloudflare.tokenPath = asked.cfTokenFile := by
    intro given
    obtain ⟨path, hpath⟩ := Option.isSome_iff_exists.mp given
    have dns : resultingChallenge state.tls asked = .dns01 := by
      by_contra other
      rw [checkTokenHasAJob, token, hpath] at job
      simp only [if_neg other] at job
      cases job
    have keep : disposition state.tls asked = .keep := by rw [disposition, dns]
    rcases keepingOf_cases h with ⟨hd, _⟩ | ⟨hd, _⟩ | ⟨zoneId, path', _, rfl, _, same⟩
    · cases keep.symm.trans hd
    · cases keep.symm.trans hd
    · rw [same path hpath, hpath, applyKeeping.eq_def]
      cases state.cloudflare <;> rfl
  have email : asked.acmeEmail.isSome = true →
      (applyAcme current asked).contact = asked.acmeEmail := by
    intro given
    obtain ⟨contact, hcontact⟩ := Option.isSome_iff_exists.mp given
    rw [applyAcme, hcontact, Option.some_or]
  have challenge : ∀ challenge, asked.acmeChallenge = some challenge →
      (applyAcme current asked).challenge = challenge := by
    intro challenge given
    rw [applyAcme, given, Option.getD_some]
  have after : (apply state asked paths keeping).tls.renewable = some (applyAcme current asked) :=
    renewable_applyTls acme asked paths
  rw [changesAnything, after]
  simp only [apply, token, Option.isSome_none, Bool.or_false, Bool.or_eq_false_iff,
    Bool.and_eq_false_imp, decide_eq_false_iff_not, not_not]
  refine ⟨⟨fun given => (email given).symm, ?_⟩, fun given => by simp [file given]⟩
  cases hc : asked.acmeChallenge with
  | none => rfl
  | some asked' => simp [challenge asked' hc]

theorem plan_settings_eq {state : ServerState} {asked : ServerRenew} {now : Int64}
    (plain : asked.dnsOnly = false) (h : Renew.plan state asked now = .ok .settings) :
    checkTokenHasAJob state.tls asked = .ok () ∧ ∃ current, state.tls.renewable = some current ∧
      changesCa current asked.ca = none ∧ asked.force = false ∧
        state.tls.needsRenewal now renewalLeadSecs = false := by
  obtain ⟨job, found⟩ := plan_eq_ok plain h
  refine ⟨job, ?_⟩
  rcases found with ⟨_, _, h⟩ | ⟨current, acme,
    ⟨_, _, h⟩ | ⟨same, ⟨_, h⟩ | ⟨lazy, ⟨_, h⟩ | ⟨early, _⟩⟩⟩⟩
  · cases h
  · cases h
  · cases h
  · cases h
  · exact ⟨current, acme, same, lazy, early⟩

/-- The same command again, at the same time. -/
theorem plan_again {state : ServerState} {asked : ServerRenew} {now : Int64}
    (plain : asked.dnsOnly = false) (h : Renew.plan state asked now = .ok .settings)
    (token : asked.cfToken = none) (paths : ServerPaths) {env : Option String} {cfToken : String}
    {zone : Except RenewError String} {keeping : Keeping}
    (hkeeping : keepingOf state asked env cfToken zone = .ok keeping) :
    ∃ dueAt, Renew.plan (apply state asked paths keeping) asked now = .ok (.notDue dueAt) := by
  obtain ⟨job, current, acme, same, lazy, early⟩ := plan_settings_eq plain h
  have certificate := sameCertificate_apply acme same paths keeping
  have job' : checkTokenHasAJob (apply state asked paths keeping).tls asked = .ok () :=
    (checkTokenHasAJob_again acme asked paths).trans job
  have same' : changesCa (applyAcme current asked) asked.ca = none := by
    rw [changesCa, (applyAcme_directory current asked).mpr same]
    exact same
  have early' := (certificate.needsRenewal now renewalLeadSecs).trans early
  have settled := changesAnything_again acme job token hkeeping paths
  refine ⟨Schedule.renewalDue (applyAcme current asked).renewAfter
    (apply state asked paths keeping).tls.notAfter renewalLeadSecs, ?_⟩
  rw [Renew.plan, plain]
  simp only [Bool.false_eq_true, if_false, job', certificate.after, same', lazy, early', settled]

omit [Unicode] in
theorem changesCa_eq_some {current : Acme} {asked : Option Ca} {flag : String}
    (h : changesCa current asked = some flag) :
    ∃ ca, asked = some ca ∧ AcmeClient.directory (ca = .staging) ≠ current.directory := by
  cases asked with
  | none => cases h
  | some ca =>
    refine ⟨ca, rfl, fun same => ?_⟩
    rw [changesCa, Option.bind_some, if_neg (by rw [← same, directory_named]; simp)] at h
    cases h

/-- A run orders exactly when it has to, what it writes down besides leaves the certificate as it
is, and written down once it is settled. -/
theorem orders_when_due {state : ServerState} {asked : ServerRenew} {now : Int64} {found : Plan}
    (plain : asked.dnsOnly = false) (h : Renew.plan state asked now = .ok found) :
    ((∃ why, found = .reissue why) ↔
      (state.tls.renewable = none ∧ asked.acmeEmail.isSome = true) ∨
        (∃ current ca, state.tls.renewable = some current ∧ asked.ca = some ca ∧
          AcmeClient.directory (ca = .staging) ≠ current.directory) ∨
        asked.force = true ∨ state.tls.needsRenewal now renewalLeadSecs = true) ∧
    (found = .settings → ∀ paths keeping, ∃ current current',
      SameCertificate state.tls (apply state asked paths keeping).tls current current') ∧
    (found = .settings → asked.cfToken = none → ∀ paths env cfToken zone keeping,
      keepingOf state asked env cfToken zone = .ok keeping →
        ∃ dueAt, Renew.plan (apply state asked paths keeping) asked now = .ok (.notDue dueAt)) := by
  refine ⟨?_, ?_, ?_⟩
  · have quiet : ∀ current, state.tls.renewable = some current → changesCa current asked.ca = none →
        asked.force = false → state.tls.needsRenewal now renewalLeadSecs = false →
        ¬((state.tls.renewable = none ∧ asked.acmeEmail.isSome = true) ∨
          (∃ current ca, state.tls.renewable = some current ∧ asked.ca = some ca ∧
            AcmeClient.directory (ca = .staging) ≠ current.directory) ∨
          asked.force = true ∨ state.tls.needsRenewal now renewalLeadSecs = true) := by
      rintro current acme same lazy early
        (⟨manual, _⟩ | ⟨current', ca, acme', hca, differs⟩ | force | due)
      · cases manual.symm.trans acme
      · cases acme.symm.trans acme'
        exact differs ((directory_named ca).trans (changesCa_eq_none same ca hca).symm)
      · cases force.symm.trans lazy
      · cases due.symm.trans early
    obtain ⟨_, found | ⟨current, acme, found⟩⟩ := plan_eq_ok plain h
    · obtain ⟨manual, email, rfl⟩ := found
      exact ⟨fun _ => Or.inl ⟨manual, email⟩, fun _ => ⟨_, rfl⟩⟩
    rcases found with ⟨flag, changed, rfl⟩ | ⟨same,
      ⟨force, rfl⟩ | ⟨lazy, ⟨due, rfl⟩ | ⟨early, rest⟩⟩⟩
    · obtain ⟨ca, hca, differs⟩ := changesCa_eq_some changed
      exact ⟨fun _ => Or.inr (Or.inl ⟨current, ca, acme, hca, differs⟩), fun _ => ⟨_, rfl⟩⟩
    · exact ⟨fun _ => Or.inr (Or.inr (Or.inl force)), fun _ => ⟨_, rfl⟩⟩
    · exact ⟨fun _ => Or.inr (Or.inr (Or.inr due)), fun _ => ⟨_, rfl⟩⟩
    · constructor
      · rintro ⟨why, rfl⟩
        rcases rest with ⟨_, h⟩ | ⟨_, _, h⟩ <;> cases h
      · exact fun needed => absurd needed (quiet current acme same lazy early)
  · rintro rfl paths keeping
    obtain ⟨_, current, acme, same, _⟩ := plan_settings_eq plain h
    exact ⟨current, _, sameCertificate_apply acme same paths keeping⟩
  · rintro rfl token paths env cfToken zone keeping hkeeping
    exact plan_again plain h token paths hkeeping

omit [Unicode] in
/-- Another address for the warnings, written down once. -/
theorem orders_when_due_sample :
    letI := asciiTables
    let asked : ServerRenew := { ServerRenew.plain with acmeEmail := some "ops@example.com" }
    let state := { sampleState "" with
      tls := ⟨"/acme/c.pem", "/acme/k.pem", none, .acme { sampleAcme "" with renewAfter := 1000 }⟩ }
    ∃ dueAt, Renew.plan (apply state asked samplePaths .unchanged) asked 0 =
      .ok (.notDue dueAt) := by
  intro asked state
  have settings : letI := asciiTables
      Renew.plan state asked 0 = .ok .settings := by
    decide +kernel
  have kept : letI := asciiTables
      keepingOf state asked none "/acme/token" (.ok "z") = .ok .unchanged := by
    decide +kernel
  let := asciiTables
  exact (orders_when_due rfl settings).2.2 rfl rfl samplePaths none "/acme/token" (.ok "z") _ kept

end Renew
