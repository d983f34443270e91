import Anago.Init
import Anago.Renew

/-!
# Which account a renewal ends up with

A renewal signs in with the account file when there is one and registers when there is
none. It compares the file with the settings it is given, so what it does after a change
of settings depends on which of them were changed first.
-/

open StdText AcmeClient

namespace AcmeClient

/-- The refusals that are about the hub's own account file. -/
def AcmeError.ownFile : AcmeError → Bool
  | .read _ _ => true
  | .unreadable _ _ => true
  | .wrongAccount _ _ _ => true
  | _ => false

variable [Format]

theorem belongsTo_eq_ok {text directory accountUrl : String} :
    belongsTo text directory accountUrl = .ok () ↔
      ∃ id, Format.fields text = .ok (some directory, id) ∧
        (accountUrl = "" ∨ id = some accountUrl) := by
  rw [belongsTo]
  cases hfields : Format.fields text with
  | error detail => simp
  | ok found =>
    obtain ⟨ca, id⟩ := found
    simp only
    by_cases hca : ca = some directory
    · subst hca
      by_cases hempty : accountUrl = ""
      · simp [hempty]
      · by_cases hid : id = some accountUrl
        · simp [hid]
        · simp [hempty, hid]
    · have other : ∀ id', (Except.ok (ca, id) : Except String _) ≠ .ok (some directory, id') := by
        rintro id' h
        cases h
        exact hca rfl
      simp [hca]

/-- Credentials are accepted where they belong, and while no account is recorded. -/
theorem belongsTo_of_read {text : String} {credentials : Credentials}
    (read : Format.read text = .ok credentials) (directory accountUrl : String) :
    belongsTo text directory accountUrl = .ok () ↔
      credentials.directory = some directory ∧ (accountUrl = "" ∨ credentials.id = accountUrl) := by
  rw [belongsTo_eq_ok, Format.fields_of_read text credentials read]
  constructor
  · rintro ⟨id, h, hurl⟩
    obtain ⟨hdirectory, rfl⟩ := Prod.mk.inj (Except.ok.inj h)
    exact ⟨hdirectory, hurl.imp_right Option.some.inj⟩
  · rintro ⟨hdirectory, hurl⟩
    exact ⟨some credentials.id, by rw [hdirectory], hurl.imp_right (congrArg some)⟩

theorem load_eq_ok {path directory accountUrl : String} {file : Option String}
    {credentials : Credentials} :
    load path directory accountUrl file = .ok credentials ↔
      ∃ text, file = some text ∧ belongsTo text directory accountUrl = .ok () ∧
        Format.read text = .ok credentials := by
  rw [load.eq_def]
  cases file with
  | none => simp
  | some text =>
    cases hbelongs : belongsTo text directory accountUrl with
    | error wrong => cases wrong <;> simp [hbelongs]
    | ok _ => cases hread : Format.read text <;> simp [hbelongs, hread]

/-- With a file, the account step loads it; it never registers. -/
theorem account_some (acme : Acme) (paths : ServerPaths) (text : String) (answers : Answers) :
    account acme paths (some text) answers =
      signIn (.reuse acme.accountKeyPath acme.accountUrl acme.contact.isNone) acme.directory
        (acme.contact.getD "") (some text) answers := by
  have update : decide (acme.contact ≠ some (acme.contact.getD "")) = acme.contact.isNone := by
    cases acme.contact <;> simp
  rw [account]
  simp [registration, update]

theorem account_none (acme : Acme) (paths : ServerPaths) (answers : Answers) :
    account acme paths none answers =
      signIn (.register acme.accountKeyPath (.keyGone acme.accountKeyPath)) acme.directory
        (acme.contact.getD "") none answers := by
  rw [account]
  simp [registration]

/-- All an account step can come to. -/
inductive Took (acme : Acme) (file : Option String) (answers : Answers) :
    Except AcmeError SignedIn × List Call → Prop
  | failed {e : AcmeError} :
    (∀ new, file = none → answers.client = .ok () → answers.registered ≠ .ok new) →
    Took acme file answers (.error e, [])
  | reused {text contact : String} {credentials : Credentials} : file = some text →
    belongsTo text acme.directory acme.accountUrl = .ok () →
    Format.read text = .ok credentials → acme.contact = some contact → answers.client = .ok () →
    answers.signedIn = .ok () → Took acme file answers (.ok ⟨credentials.id, none⟩, [])
  | told {text : String} {credentials : Credentials} : file = some text →
    belongsTo text acme.directory acme.accountUrl = .ok () →
    Format.read text = .ok credentials → acme.contact = none → answers.client = .ok () →
    answers.signedIn = .ok () → Took acme file answers (.ok ⟨credentials.id, none⟩,
      [.contactUpdated acme.directory credentials.id (contactUri "")])
  | registered {url key : String} : file = none → answers.client = .ok () →
    answers.registered = .ok (url, key) →
    Took acme file answers (.ok ⟨url, some (Format.write ⟨url, key, some acme.directory⟩)⟩,
      [.registered acme.directory url (contactUri (acme.contact.getD ""))])

theorem account_took (acme : Acme) (paths : ServerPaths) (file : Option String)
    (answers : Answers) : Took acme file answers (account acme paths file answers) := by
  cases file with
  | none =>
    rw [account_none, signIn]
    cases hclient : answers.client with
    | error detail => exact .failed fun _ _ h => by cases hclient.symm.trans h
    | ok =>
      simp only
      cases hregistered : answers.registered with
      | error detail => exact .failed fun _ _ _ h => by cases hregistered.symm.trans h
      | ok new => exact .registered rfl hclient hregistered
  | some text =>
    have present : ∀ new, some text = none → answers.client = .ok () →
        answers.registered ≠ .ok new := by
      intro new h
      cases h
    rw [account_some, signIn]
    split
    · exact .failed present
    next stored hload =>
    obtain ⟨_, htext, hbelongs, hread⟩ := load_eq_ok.mp hload
    cases htext
    split
    · exact .failed present
    next hclient =>
    split
    · exact .failed present
    next hsigned =>
    cases hcontact : acme.contact with
    | some contact => exact .reused rfl hbelongs hread hcontact hclient hsigned
    | none =>
      simp only [Option.isNone_none, if_true]
      split
      · exact .failed present
      · exact .told rfl hbelongs hread hcontact hclient hsigned

/-- A file that is refused is the only way the step fails over it. -/
theorem account_error {acme : Acme} {paths : ServerPaths} {text : String} {answers : Answers}
    {credentials : Credentials} (read : Format.read text = .ok credentials)
    (belongs : belongsTo text acme.directory acme.accountUrl = .ok ()) {e : AcmeError}
    (h : (account acme paths (some text) answers).1 = .error e) : e.ownFile = false := by
  have loaded : load acme.accountKeyPath acme.directory acme.accountUrl (some text) =
      .ok credentials := load_eq_ok.mpr ⟨text, rfl, belongs, read⟩
  rw [account_some, signIn, loaded] at h
  simp only at h
  split at h
  · cases h
    rfl
  · split at h
    · cases h
      rfl
    · split at h
      · split at h
        · cases h
          rfl
        · cases h
      · cases h

/-- With a file no account is registered, whatever the file holds. -/
theorem account_keeps (acme : Acme) (paths : ServerPaths) (text : String) (answers : Answers)
    (directory url contact : String) :
    .registered directory url contact ∉ (account acme paths (some text) answers).2 := by
  have took := account_took acme paths (some text) answers
  generalize account acme paths (some text) answers = out at *
  cases took with
  | failed _ => exact List.not_mem_nil
  | reused _ _ _ _ _ _ => exact List.not_mem_nil
  | told _ _ _ _ _ _ => simp
  | registered absent _ _ => cases absent

theorem account_signs_in {acme : Acme} {text : String} {credentials : Credentials}
    (read : Format.read text = .ok credentials)
    (belongs : belongsTo text acme.directory acme.accountUrl = .ok ()) (paths : ServerPaths)
    {answers : Answers} (client : answers.client = .ok ()) (signedIn : answers.signedIn = .ok ())
    (updated : answers.contactUpdated = .ok ()) :
    (account acme paths (some text) answers).1 = .ok ⟨credentials.id, none⟩ := by
  have loaded : load acme.accountKeyPath acme.directory acme.accountUrl (some text) =
      .ok credentials := load_eq_ok.mpr ⟨text, rfl, belongs, read⟩
  rw [account_some, signIn, loaded]
  simp only [client, signedIn, updated]
  split <;> rfl

/-- The account step as asked: never stopped by the hub's own file, a new account when
the CA is another one, and the account of the file when it is not. -/
structure SignsIn (recorded wanted : Acme) (paths : ServerPaths) (text : String) : Prop where
  accepted : ∀ answers e, (account wanted paths (some text) answers).1 = .error e →
    e.ownFile = false
  registers : (∃ answers url contact, .registered wanted.directory url contact ∈
    (account wanted paths (some text) answers).2) ↔ wanted.directory ≠ recorded.directory
  path : wanted.accountKeyPath = recorded.accountKeyPath
  reuses : wanted.directory = recorded.directory → ∀ answers : Answers,
    answers.client = .ok () → answers.signedIn = .ok () → answers.contactUpdated = .ok () →
      (account wanted paths (some text) answers).1 = .ok ⟨recorded.accountUrl, none⟩

end AcmeClient

namespace Renew

theorem directory_named (ca : Ca) : AcmeClient.directory (ca = .staging) = ca.named.1 := by
  cases ca <;> rfl

/-- The edit moves the hub exactly when a CA flag names another CA. -/
theorem applyAcme_directory (acme : Acme) (asked : ServerRenew) :
    (applyAcme acme asked).directory = acme.directory ↔ changesCa acme asked.ca = none := by
  rw [applyAcme, changesCa]
  cases asked.ca with
  | none => simp
  | some ca =>
    simp only [directory_named, Option.bind_some]
    by_cases h : acme.directory = ca.named.1
    · simp [h]
    · simp [h, Ne.symm h]

variable [Format] [Unicode]

/-- The edit comes first and both the recorded and the wanted CA are read from its
result. So the account step signs in as asked when no flag moves the hub, and is refused
over the hub's own account file when one does. -/
theorem switch_signs_in (state : ServerState) (acme : Acme) (ours : state.tls.source = .acme acme)
    (text : String) (credentials : Credentials) (read : Format.read text = .ok credentials)
    (issuedBy : credentials.directory = some acme.directory)
    (account : credentials.id = acme.accountUrl) (asked : ServerRenew) (paths : ServerPaths)
    (keeping : Keeping) :
    (∃ wanted, (apply state asked paths keeping).tls.renewable = some wanted ∧
      SignsIn acme wanted paths text) ↔ changesCa acme asked.ca = none := by
  have edited : (apply state asked paths keeping).tls.renewable = some (applyAcme acme asked) := by
    rw [apply, applyTls, ours]
    rfl
  rw [edited, ← applyAcme_directory]
  have belongs : belongsTo text (applyAcme acme asked).directory (applyAcme acme asked).accountUrl =
      .ok () ↔ (applyAcme acme asked).directory = acme.directory := by
    rw [belongsTo_of_read read, issuedBy]
    constructor
    · rintro ⟨h, _⟩
      exact (Option.some.inj h).symm
    · intro h
      exact ⟨congrArg some h.symm, Or.inr account⟩
  constructor
  · rintro ⟨wanted, h, signsIn⟩
    cases h
    refine Decidable.byContradiction fun other => ?_
    obtain ⟨answers, url, contact, told⟩ := signsIn.registers.mpr other
    exact account_keeps _ _ _ _ _ _ _ told
  · intro same
    have accepted := belongs.mpr same
    refine ⟨_, rfl, ?_⟩
    exact {
      accepted := fun _ _ => account_error read accepted
      registers := by
        constructor
        · rintro ⟨answers, url, contact, told⟩
          exact absurd told (account_keeps _ _ _ _ _ _ _)
        · exact fun other => absurd same other
      path := rfl
      reuses := fun _ _ client signedIn updated => by
        rw [account_signs_in read accepted paths client signedIn updated, account] }

omit [Format] [Unicode] in
theorem switch_signs_in_sample :
    letI := asciiTables
    letI := jsonFormat
    let acme : Acme := ⟨staging, some "jo@example.com", "/acme/account.json", "url", .http01, 0, 0⟩
    let state := { Init.sampleHub with tls := ⟨"/c.pem", "/k.pem", none, .acme acme⟩ }
    let paths : ServerPaths := ⟨"/c.pem", "/k.pem", "/acme/account.json"⟩
    ∃ wanted,
      (apply state { ServerRenew.plain with force := true } paths .unchanged).tls.renewable =
      some wanted ∧ SignsIn acme wanted paths (Format.write ⟨"url", "...", some staging⟩) := by
  let := asciiTables
  let := jsonFormat
  intro acme state paths
  exact (switch_signs_in state acme rfl (Format.write ⟨"url", "...", some staging⟩)
    ⟨"url", "...", some staging⟩ (Format.read_write _) rfl rfl _ paths .unchanged).mpr rfl

omit [Format] [Unicode] in
/-- Moving a staging hub to production is refused over the account file it has. -/
theorem switch_signs_in_refused :
    letI := asciiTables
    letI := jsonFormat
    ¬∀ (state : ServerState) (acme : Acme) (text : String) (credentials : Credentials)
      (asked : ServerRenew) (paths : ServerPaths) (now : Int64) (why : Why),
      state.tls.source = .acme acme → Format.read text = .ok credentials →
        credentials.directory = some acme.directory → credentials.id = acme.accountUrl →
        asked.dnsOnly = false → plan state asked now = .ok (.reissue why) → ∀ answers e,
          (account (applyAcme acme asked) paths (some text) answers).1 = .error e →
            e.ownFile = false := by
  let := asciiTables
  let := jsonFormat
  intro claim
  let acme : Acme := ⟨staging, some "jo@example.com", "/acme/account.json", "url", .http01, 0, 0⟩
  let state := { Init.sampleHub with tls := ⟨"/c.pem", "/k.pem", none, .acme acme⟩ }
  let asked : ServerRenew := { ServerRenew.plain with ca := some .production }
  let paths : ServerPaths := ⟨"/c.pem", "/k.pem", "/acme/account.json"⟩
  let stored : Credentials := ⟨"url", "...", some staging⟩
  let answers : Answers := ⟨.ok (), .ok (), .ok (), .ok ("url", "..."), .error "",
    "", .ok (), .ok ()⟩
  have refused : (account (applyAcme acme asked) paths (some (Format.write stored)) answers).1 =
      .error (.wrongAccount "/acme/account.json" (.ca (some staging)) production) := by
    have fields := Format.fields_of_read _ stored (Format.read_write stored)
    rw [account_some, signIn, load, belongsTo, fields]
    rfl
  have := claim state acme (Format.write stored) stored asked paths 0
    (.different "--acme-production")
    rfl (Format.read_write stored) rfl rfl rfl rfl answers _ refused
  cases this

end Renew
