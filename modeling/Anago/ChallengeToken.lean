import Mathlib.Logic.Relation
import Anago.InitRun
import Anago.RenewRuns
import Anago.RenewSettings

/-!
# The kept token and the challenge

A token is kept for one reason, which is renewing over DNS-01. Setting a hub up, changing
its settings, renewing it and pushing its record each edit one of the two objects this is a
rule about, and none of them breaks it.
-/

open StdText AcmeClient

namespace Init

/-- What happened to the hub's A record. -/
inductive ARecord where
  | written (applied : Renew.Applied)
  | byHand
  deriving DecidableEq, Repr

/-- What `server init` found and did about DNS. -/
structure Dns where
  /-- Known whenever there was a token to look it up with. -/
  zoneId : Option String
  record : ARecord
  deriving DecidableEq, Repr

namespace Dns

/-- What goes in the state file. -/
def recorded (dns : Dns) (tokenPath : Option String) : Option Cloudflare :=
  dns.zoneId.map fun zoneId => {
    zoneId := zoneId
    recordId := match dns.record with
      | .written applied => some applied.recordId
      | .byHand => none
    tokenPath := tokenPath }

end Dns

/-- `point_dns`. The rest is what comes of loading the token and finding the zone, whether there
is an address to point the record at, and what comes of writing it. -/
def pointDns (token : Option Cfapi.Source) (zone : Except String String) (address : Bool)
    (written : Except String Renew.Applied) : Except String Dns :=
  match token with
  | none => .ok ⟨none, .byHand⟩
  | some _ =>
    match zone with
    | .error e => .error e
    | .ok zoneId =>
      if address then written.map fun applied => ⟨some zoneId, .written applied⟩
      else .ok ⟨some zoneId, .byHand⟩

/-- Whether the token is needed, as opposed to merely useful. -/
def Plan.needsToken : Plan → Bool
  | .acme _ .dns01 _ _ => true
  | _ => false

/-- What `server init` settled before it built the state. -/
structure Setup where
  plan : Plan
  dns : Dns
  /-- Where the token will be kept, if it is. -/
  tokenPath : Option String

def Setup.new (plan : Plan) (dns : Dns) (cfToken : String) : Setup where
  plan := plan
  dns := dns
  tokenPath := if plan.needsToken && dns.zoneId.isSome then some cfToken else none

theorem plan_needsToken {request : Request} {plan : Plan} (h : Init.plan request = .ok plan)
    (needs : plan.needsToken = true) : request.token = true := by
  rw [Init.plan] at h
  split at h
  · split at h
    · cases h
    · cases h
      cases needs
  · cases h
  · cases h
  · split at h
    · cases h
    simp only at h
    split at h
    · split at h
      · next token => exact token
      · cases h
    · cases h
      cases needs
    · by_cases token : request.token = true
      · exact token
      · rw [if_neg token] at h
        cases h
        cases needs

/-- What `point_dns` comes back with. -/
theorem pointDns_ok {source : Option Cfapi.Source} {zone : Except String String} {address : Bool}
    {written : Except String Renew.Applied} {dns : Dns}
    (h : pointDns source zone address written = .ok dns) :
    (source = none ∧ dns = ⟨none, .byHand⟩) ∨
      ∃ zoneId, source.isSome = true ∧ zone = .ok zoneId ∧
        (dns = ⟨some zoneId, .byHand⟩ ∨
          ∃ applied, written = .ok applied ∧ dns = ⟨some zoneId, .written applied⟩) := by
  cases source with
  | none => exact Or.inl ⟨rfl, (Except.ok.inj h).symm⟩
  | some source =>
    cases zone with
    | error e => cases h
    | ok zoneId =>
      refine Or.inr ⟨zoneId, rfl, rfl, ?_⟩
      cases address with
      | false => exact Or.inl (Except.ok.inj h).symm
      | true =>
        cases written with
        | error e => cases h
        | ok applied => exact Or.inr ⟨applied, rfl, (Except.ok.inj h).symm⟩

/-- The state that `server init` publishes. An order is recorded where there was one. -/
def Setup.publishes [Unicode] (setup : Setup) (args : ServerInit) (paths : ServerPaths)
    (keys : PrivateKey × String) (code : JoinCode) (now : Int64) (issued : Renewed)
    (notAfter : Option Int64) : ServerState :=
  let made := buildState args (setup.plan.tls paths)
    (setup.dns.recorded setup.tokenPath) keys code now
  let recorded := if made.tls.renewable.isSome then AcmeClient.record made issued now else made
  { recorded with tls := { recorded.tls with notAfter := notAfter } }

end Init

namespace Renew

/-- What Cloudflare says of itself: which ids are zones, and the one zone that a record is in. -/
structure Zones where
  IsZone : String → Prop
  zoneOf : String → String

/-- The challenge a hub renews over, where it renews at all. -/
def challengeOf (tls : Tls) : Option Challenge := tls.renewable.map Acme.challenge

/-- The rule about the two objects, and what the ids in them are. -/
structure Agreed (zones : Zones) (challenge : Option Challenge) (cloudflare : Option Cloudflare) :
    Prop where
  token : (cloudflare.bind Cloudflare.tokenPath).isSome = true ↔ challenge = some .dns01
  zone : ∀ known, cloudflare = some known → zones.IsZone known.zoneId
  record : ∀ known id, cloudflare = some known → known.recordId = some id →
    zones.zoneOf id = known.zoneId

section
variable [Unicode]

/-- A hub as `server init` leaves it. Zones and records are what Cloudflare answered. -/
inductive Started (zones : Zones) (paths : ServerPaths) (cfToken : String) : ServerState → Prop
  | intro {args : ServerInit} {request : Init.Request} {source : Option Cfapi.Source}
    {plan : Init.Plan} {zone : Except String String} {address : Bool}
      {written : Except String Applied} {dns : Init.Dns}
    {keys : PrivateKey × String} {code : JoinCode} {now : Int64} {issued : Renewed}
    {notAfter : Option Int64} :
    request.token = source.isSome → Init.plan request = .ok plan →
    Init.pointDns source zone address written = .ok dns →
    (∀ zoneId, zone = .ok zoneId → zones.IsZone zoneId ∧
      ∀ applied, written = .ok applied → zones.zoneOf applied.recordId = zoneId) →
    (∀ zoneId, issued.zoneId = some zoneId → zones.IsZone zoneId) →
    Started zones paths cfToken
      ((Init.Setup.new plan dns cfToken).publishes args paths keys code now issued notAfter)

/-- What a command or the daemon does to the state file. `read` is what a command planned with;
it goes on only if the TLS settings are still those. -/
inductive Moves (zones : Zones) (paths : ServerPaths) (cfToken : String) :
    ServerState → ServerState → Prop
  | settings {read found : ServerState} {asked : ServerRenew} {now : Int64} {env : Option String}
    {zone : Except RenewError String} {keeping : Keeping} :
    Renew.plan read asked now = .ok .settings → found.tls = read.tls →
    keepingOf read asked env cfToken zone = .ok keeping →
    (∀ zoneId, zone = .ok zoneId → zones.IsZone zoneId) →
    Moves zones paths cfToken found (apply found asked paths keeping)
  | reissued {read found : ServerState} {asked : ServerRenew} {now : Int64} {env : Option String}
    {zone : Except RenewError String} {keeping : Keeping} {why : Why} {issued : Renewed}
    {notAfter : Option Int64} :
    Renew.plan read asked now = .ok (.reissue why) → found.tls = read.tls →
    keepingOf read asked env cfToken zone = .ok keeping →
    (∀ zoneId, zone = .ok zoneId → zones.IsZone zoneId) →
    (∀ zoneId, issued.zoneId = some zoneId → zones.IsZone zoneId) →
    Moves zones paths cfToken found (reissued found asked paths keeping issued now notAfter)
  | pushed {read found : ServerState} {asked : ServerRenew} {now : Int64} {pushed : Pushed} :
    Renew.plan read asked now = .ok .pushRecord → zones.IsZone pushed.zoneId →
    zones.zoneOf pushed.applied.recordId = pushed.zoneId →
    Moves zones paths cfToken found (remember found pushed)
  /-- A renewal of the daemon. -/
  | renewed {found : ServerState} {issued : Renewed} {now : Int64} :
    (∀ zoneId, issued.zoneId = some zoneId → zones.IsZone zoneId) →
    Moves zones paths cfToken found (AcmeClient.record found issued now)

end

/-- The flags settle the challenge, on a hub that renewed before and on one that starts to. -/
theorem challengeOf_applyTls (tls : Tls) (asked : ServerRenew) (paths : ServerPaths) :
    challengeOf (applyTls tls asked paths) = some (resultingChallenge tls asked) := by
  cases h : tls.source with
  | acme current =>
    have renews : tls.renewable = some current := Tls.renewable_eq_some.mpr h
    rw [challengeOf, renewable_applyTls renews, Option.map_some, applyAcme_challenge renews]
  | manual =>
    have manual : tls.renewable = none := by rw [Tls.renewable, h]
    rw [challengeOf, applyTls, h, resultingChallenge, manual]
    cases asked.acmeChallenge <;> rfl

theorem challengeOf_record [Unicode] (state : ServerState) (issued : Renewed) (now : Int64) :
    challengeOf (AcmeClient.record state issued now).tls = challengeOf state.tls := by
  cases h : state.tls.source <;>
    simp [challengeOf, AcmeClient.record, Tls.modifyAcme, Tls.renewable, h, Acme.issued]

theorem challengeOf_planned (plan : Init.Plan) (paths : ServerPaths) :
    challengeOf (plan.tls paths) = some .dns01 ↔ plan.needsToken = true := by
  cases plan with
  | manual cert key =>
    simp [challengeOf, Init.Plan.tls, Tls.manual, Tls.renewable, Init.Plan.needsToken]
  | acme directory challenge contact staging =>
    cases challenge <;> simp [challengeOf, Init.Plan.tls, Tls.renewable, Init.Plan.needsToken]

/-- What each disposition says of the challenge before and after. -/
theorem disposition_eq (tls : Tls) (asked : ServerRenew) :
    match disposition tls asked with
    | .unchanged => resultingChallenge tls asked = .http01 ∧ challengeOf tls ≠ some .dns01
    | .forget => resultingChallenge tls asked = .http01
    | .keep => resultingChallenge tls asked = .dns01 := by
  cases hr : resultingChallenge tls asked with
  | dns01 => simp only [disposition, hr]
  | http01 =>
    cases hc : challengeOf tls with
    | none =>
      rw [challengeOf] at hc
      simp [disposition, hr, hc]
    | some before =>
      rw [challengeOf] at hc
      cases before <;> simp [disposition, hr, hc]

section
variable {zones : Zones} {challenge : Option Challenge} {cloudflare : Option Cloudflare}

namespace Agreed

/-- Nothing known of Cloudflare, and no challenge that needs it. -/
theorem of_none (other : challenge ≠ some .dns01) : Agreed zones challenge none where
  token := by simpa using other
  zone := nofun
  record := nofun

/-- What keeps the token where it is, and drops the record id where it moves the zone. -/
theorem moved (h : Agreed zones challenge cloudflare) {zoneId : String}
    (new : zones.IsZone zoneId) :
    Agreed zones challenge (cloudflare.map fun known =>
      { known with
        zoneId := zoneId
        recordId := if known.zoneId ≠ zoneId then none else known.recordId }) := by
  cases cloudflare with
  | none => exact h
  | some known =>
    refine ⟨h.token, ?_, ?_⟩
    · rintro _ ⟨⟩
      exact new
    · rintro _ id ⟨⟩ hid
      by_cases same : known.zoneId = zoneId
      · subst same
        simp only [ne_eq, not_true, if_false] at hid
        exact h.record known id rfl hid
      · simp [same] at hid

/-- A token put anywhere agrees with DNS-01. -/
theorem kept (h : Agreed zones challenge cloudflare) {zoneId : String} (new : zones.IsZone zoneId)
    (path : String) :
    Agreed zones (some .dns01) (applyKeeping cloudflare (.token zoneId path)) := by
  cases cloudflare with
  | none =>
    refine ⟨by simp [applyKeeping], ?_, ?_⟩
    · rintro _ ⟨⟩
      exact new
    · rintro _ id ⟨⟩ hid
      cases hid
  | some known =>
    have moved := h.moved new
    refine ⟨by simp [applyKeeping], ?_, ?_⟩
    · rintro _ ⟨⟩
      exact new
    · rintro _ id ⟨⟩ hid
      exact moved.record { known with zoneId := zoneId, recordId := _ } id rfl hid

theorem forgotten (h : Agreed zones challenge cloudflare) :
    Agreed zones (some .http01) (applyKeeping cloudflare .forget) := by
  cases cloudflare with
  | none => exact of_none (by simp)
  | some known =>
    refine ⟨by simp [applyKeeping], ?_, ?_⟩
    · rintro _ ⟨⟩
      exact h.zone known rfl
    · rintro _ id ⟨⟩ hid
      exact h.record known id rfl hid

/-- A token that nothing is done about is one that HTTP-01 never had. -/
theorem untouched (h : Agreed zones challenge cloudflare) (other : challenge ≠ some .dns01) :
    Agreed zones (some .http01) cloudflare where
  token := by rw [h.token]; simp [other]
  zone := h.zone
  record := h.record

variable [Unicode]

theorem pushed {state : ServerState} (h : Agreed zones challenge state.cloudflare) {pushed : Pushed}
    (new : zones.IsZone pushed.zoneId)
    (own : zones.zoneOf pushed.applied.recordId = pushed.zoneId) :
    Agreed zones challenge (remember state pushed).cloudflare := by
  have token := h.token
  rw [remember]
  cases hc : state.cloudflare with
  | none =>
    rw [hc] at token
    refine ⟨token, ?_, ?_⟩
    · rintro _ ⟨⟩
      exact new
    · rintro _ id ⟨⟩ ⟨⟩
      exact own
  | some known =>
    rw [hc] at token
    refine ⟨token, ?_, ?_⟩
    · rintro _ ⟨⟩
      exact new
    · rintro _ id ⟨⟩ ⟨⟩
      exact own

theorem recorded {state : ServerState} (h : Agreed zones challenge state.cloudflare)
    {issued : Renewed} (new : ∀ zoneId, issued.zoneId = some zoneId → zones.IsZone zoneId)
    (now : Int64) : Agreed zones challenge (AcmeClient.record state issued now).cloudflare := by
  rw [AcmeClient.record]
  cases hzone : issued.zoneId with
  | none => exact h
  | some zoneId =>
    have moved := h.moved (new zoneId hzone)
    cases hc : state.cloudflare with
    | none =>
      rw [hc] at h
      exact h
    | some known =>
      rw [hc] at moved
      simp only
      split
      · next differs => simpa [differs] using moved
      · next same =>
        obtain rfl : known.zoneId = zoneId := by simpa using same
        simpa using moved

/-- The edit of a request, with the keeping its disposition called for. -/
theorem applied {found read : ServerState} {asked : ServerRenew} {env : Option String}
    {cfToken : String} {zone : Except RenewError String} {keeping : Keeping}
    (h : Agreed zones (challengeOf found.tls) found.cloudflare) (same : found.tls = read.tls)
    (settled : keepingOf read asked env cfToken zone = .ok keeping)
    (new : ∀ zoneId, zone = .ok zoneId → zones.IsZone zoneId) (paths : ServerPaths) :
    Agreed zones (challengeOf (apply found asked paths keeping).tls)
      (apply found asked paths keeping).cloudflare := by
  have after : challengeOf (apply found asked paths keeping).tls =
      some (resultingChallenge read.tls asked) := by
    rw [← same]
    exact challengeOf_applyTls found.tls asked paths
  rw [after]
  have settles := disposition_eq read.tls asked
  rcases keepingOf_cases settled with ⟨hd, rfl⟩ | ⟨hd, rfl⟩ | ⟨zoneId, path, hd, rfl, hzone, _⟩
  · rw [hd] at settles
    rw [settles.1]
    exact h.untouched (same ▸ settles.2)
  · rw [hd] at settles
    rw [settles]
    exact h.forgotten
  · rw [hd] at settles
    rw [settles]
    exact h.kept (new zoneId hzone) path

theorem moves {found next : ServerState} {paths : ServerPaths} {cfToken : String}
    (h : Agreed zones (challengeOf found.tls) found.cloudflare)
    (move : Moves zones paths cfToken found next) :
    Agreed zones (challengeOf next.tls) next.cloudflare := by
  cases move with
  | settings _ same settled new => exact h.applied same settled new paths
  | @reissued _ _ _ now _ _ _ _ issued _ _ same settled new answered =>
    have applied := (h.applied same settled new paths).recorded answered now
    rw [← challengeOf_record _ issued now] at applied
    exact applied
  | pushed _ new own => exact h.pushed new own
  | renewed issued =>
    rw [challengeOf_record]
    exact h.recorded issued _

/-- A hub starts with a token exactly where the plan needs one. -/
theorem started {paths : ServerPaths} {cfToken : String} {state : ServerState}
    (h : Started zones paths cfToken state) :
    Agreed zones (challengeOf state.tls) state.cloudflare := by
  obtain ⟨token, hplan, hdns, answered, issuedIn⟩ := h
  rename_i args request source plan zone address written dns keys code now issued notAfter
  let setup := Init.Setup.new plan dns cfToken
  let made := Init.buildState args (setup.plan.tls paths)
    (setup.dns.recorded setup.tokenPath) keys code now
  have kept : Agreed zones (challengeOf (plan.tls paths)) (dns.recorded setup.tokenPath) := by
    have needs := challengeOf_planned plan paths
    rcases Init.pointDns_ok hdns with ⟨rfl, rfl⟩ | ⟨zoneId, _, hzone,
      rfl | ⟨applied, hwritten, rfl⟩⟩
    · refine of_none fun dns01 => ?_
      cases token.symm.trans (Init.plan_needsToken hplan (needs.mp dns01))
    · refine ⟨?_, ?_, ?_⟩
      · rw [needs]
        cases h : plan.needsToken <;> simp [Init.Dns.recorded, setup, Init.Setup.new, h]
      · rintro _ ⟨⟩
        exact (answered zoneId hzone).1
      · rintro _ id ⟨⟩ hid
        cases hid
    · refine ⟨?_, ?_, ?_⟩
      · rw [needs]
        cases h : plan.needsToken <;> simp [Init.Dns.recorded, setup, Init.Setup.new, h]
      · rintro _ ⟨⟩
        exact (answered zoneId hzone).1
      · rintro _ id ⟨⟩ ⟨⟩
        exact (answered zoneId hzone).2 applied hwritten
  cases plan with
  | manual cert key => exact kept
  | acme directory ch contact staging =>
    have recorded : Agreed zones (challengeOf made.tls)
        (AcmeClient.record made issued now).cloudflare :=
      (show Agreed zones _ made.cloudflare from kept).recorded issuedIn now
    rw [← challengeOf_record made issued now] at recorded
    exact recorded

theorem run {start state : ServerState} {paths : ServerPaths} {cfToken : String}
    (h : Agreed zones (challengeOf start.tls) start.cloudflare)
    (moves : Relation.ReflTransGen (Moves zones paths cfToken) start state) :
    Agreed zones (challengeOf state.tls) state.cloudflare := by
  induction moves with
  | refl => exact h
  | tail _ move ih => exact ih.moves move

end Agreed

variable [Unicode]

/-- The kept token and the challenge agree in every state a hub comes to, and a record id never
outlives the zone it was cached for. -/
theorem token_kept_for_dns01 {paths : ServerPaths} {cfToken : String}
    {start state later : ServerState} (started : Started zones paths cfToken start)
    (reached : Relation.ReflTransGen (Moves zones paths cfToken) start state)
    (more : Relation.ReflTransGen (Moves zones paths cfToken) state later) :
    ((state.cloudflare.bind Cloudflare.tokenPath).isSome = true ↔
      ∃ acme, state.tls.renewable = some acme ∧ acme.challenge = .dns01) ∧
    (∀ acme, state.tls.renewable = some acme → acme.challenge = .dns01 →
      ∃ known path, state.cloudflare = some known ∧ known.tokenPath = some path ∧
        zones.IsZone known.zoneId) ∧
    ∀ before after id, state.cloudflare = some before → later.cloudflare = some after →
      after.zoneId ≠ before.zoneId → before.recordId = some id → after.recordId ≠ some id := by
  have agreed := (Agreed.started started).run reached
  have agreed' := agreed.run more
  have dns01 : challengeOf state.tls = some .dns01 ↔
      ∃ acme, state.tls.renewable = some acme ∧ acme.challenge = .dns01 := Option.map_eq_some_iff
  refine ⟨agreed.token.trans dns01, ?_, ?_⟩
  · intro acme ours challenge
    obtain ⟨path, hpath⟩ := Option.isSome_iff_exists.mp
      (agreed.token.mpr (dns01.mpr ⟨acme, ours, challenge⟩))
    obtain ⟨known, hknown, hpath⟩ := Option.bind_eq_some_iff.mp hpath
    exact ⟨known, path, hknown, hpath, agreed.zone known hknown⟩
  · intro before after id hbefore hafter differs hid hid'
    have old := agreed.record before id hbefore hid
    have new := agreed'.record after id hafter hid'
    exact differs (new.symm.trans old)

omit [Unicode] in
/-- A hub that renews over DNS-01, and whose domain moves to another zone. -/
theorem token_kept_for_dns01_sample :
    letI := asciiTables
    let request : Init.Request := ⟨none, none, some "jo@example.com", false, none, true⟩
    let plan : Init.Plan := .acme production .dns01 "jo@example.com" false
    let setup := Init.Setup.new plan ⟨some "z", .written (.created "r")⟩ "/acme/token"
    let args : ServerInit := ⟨"net.example.com", ⟨⟨10, 100, 0, 0⟩, rfl⟩, 51820, 443⟩
    let issued : Renewed := ⟨"/acme/c.pem", "/acme/k.pem", some "z", "u", none, []⟩
    let state := setup.publishes args samplePaths (⟨"a="⟩, "b=") Init.sampleCode 0 issued none
    let later := AcmeClient.record state { issued with zoneId := some "y" } 1
    Init.plan request = .ok plan ∧ state.cloudflare = some ⟨"z", some "r", some "/acme/token"⟩ ∧
      later.cloudflare = some ⟨"y", none, some "/acme/token"⟩ ∧
      ∀ after, later.cloudflare = some after → after.recordId ≠ some "r" := by
  intro request plan setup args issued state later
  let zones : Zones := ⟨fun id => id = "z" ∨ id = "y", fun _ => "z"⟩
  have planned : letI := asciiTables
      Init.plan request = .ok plan := by
    decide +kernel
  let := asciiTables
  have started : Started zones samplePaths "/acme/token" state :=
    @Started.intro _ zones samplePaths "/acme/token" args request (some .flag) plan (.ok "z") true
      (.ok (.created "r")) ⟨some "z", .written (.created "r")⟩
        (⟨"a="⟩, "b=") Init.sampleCode 0 issued none
      rfl planned rfl (by rintro _ ⟨⟩; exact ⟨Or.inl rfl, fun _ _ => rfl⟩)
      (by rintro _ ⟨⟩; exact Or.inl rfl)
  have move : Moves zones samplePaths "/acme/token" state later :=
    .renewed (by rintro _ ⟨⟩; exact Or.inr rfl)
  refine ⟨planned, rfl, rfl, fun after hafter => ?_⟩
  refine (token_kept_for_dns01 started .refl (.single move)).2.2 ⟨"z", some "r",
    some "/acme/token"⟩ after "r"
    rfl hafter ?_ rfl
  cases hafter
  decide

end

end Renew
