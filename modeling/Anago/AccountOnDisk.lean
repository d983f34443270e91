import Anago.RenewRuns

/-!
# The account file and the state file

Two files name the account, and they are written at different moments. They agree when
the next renewal would accept the one for the other. A failed renewal of the command
leaves them agreeing; a failed renewal of the daemon may not.
-/

open StdText AcmeClient Handlers RenewalLoop

namespace AcmeClient

variable [Format] [Unicode]

/-- What a renewal does once it has an account: order, write the account, write the pair. -/
def save (acme : Acme) (paths : ServerPaths) (disk : Disk) (answers : Answers) (signed : SignedIn)
    (calls : List Call) : Attempt :=
  match answers.issued with
  | .error detail => ⟨.error (.order detail), disk, calls⟩
  | .ok issued =>
    match commit acme.accountKeyPath signed.fresh answers.accountWritten disk with
    | .error e => ⟨.error e, disk, calls⟩
    | .ok disk =>
      match answers.pairWritten with
      | .error detail =>
        ⟨.error (.write (paths.privateKey ++ " and " ++ paths.certificate) detail), disk, calls⟩
      | .ok () =>
        ⟨.ok {
          certificatePath := paths.certificate
          keyPath := paths.privateKey
          zoneId := match acme.challenge with
            | .http01 => none
            | .dns01 => some answers.zoneId
          accountUrl := signed.url
          notAfter := issued.notAfter
          warnings := issued.warnings },
          { disk with certificate := some issued.certificate, key := some issued.privateKey },
          calls⟩

theorem renew_eq {state : ServerState} {acme : Acme} (ours : state.tls.renewable = some acme)
    (paths : ServerPaths) (disk : Disk) (answers : Answers) :
    renew state paths disk answers =
      match account acme paths disk.account answers with
      | (.error e, calls) => ⟨.error e, disk, calls⟩
      | (.ok signed, calls) => save acme paths disk answers signed calls := by
  rw [renew, ours]
  rfl

/-- New credentials get as far as the account file. -/
def Answers.writesAccount (answers : Answers) : Prop :=
  (∃ issued, answers.issued = .ok issued) ∧ answers.accountWritten = .ok ()

/-- With the account on disk, nothing goes wrong up to the certificate pair. -/
structure Answers.Reuses (answers : Answers) : Prop where
  client : answers.client = .ok ()
  signedIn : answers.signedIn = .ok ()
  issued : ∃ issued, answers.issued = .ok issued
  pair : answers.pairWritten = .ok ()

/-- What becomes of the files once there is an account. -/
inductive Saved (disk : Disk) (answers : Answers) (signed : SignedIn) (calls : List Call) :
    Attempt → Prop
  | failed {e : AcmeError} : signed.fresh = none ∨ ¬answers.writesAccount →
    Saved disk answers signed calls ⟨.error e, disk, calls⟩
  | stopped {text : String} {e : AcmeError} {after : Disk} : signed.fresh = some text →
    answers.writesAccount → answers.pairWritten ≠ .ok () → after.account = some text →
    Saved disk answers signed calls ⟨.error e, after, calls⟩
  | done {renewed : Renewed} {after : Disk} : signed.fresh = none ∨ answers.writesAccount →
    (∃ issued, answers.issued = .ok issued) → answers.pairWritten = .ok () →
    renewed.accountUrl = signed.url →
    after.account = signed.fresh.or disk.account →
    Saved disk answers signed calls ⟨.ok renewed, after, calls⟩

omit [Format] [Unicode] in
theorem save_saved (acme : Acme) (paths : ServerPaths) (disk : Disk) (answers : Answers)
    (signed : SignedIn) (calls : List Call) :
    Saved disk answers signed calls (save acme paths disk answers signed calls) := by
  rw [save]
  cases hissued : answers.issued with
  | error detail =>
    refine .failed (Or.inr ?_)
    rintro ⟨⟨issued, h⟩, _⟩
    cases hissued.symm.trans h
  | ok issued =>
    simp only
    cases hfresh : signed.fresh with
    | none =>
      rw [commit]
      simp only
      cases hpair : answers.pairWritten with
      | error detail => exact .failed (Or.inl hfresh)
      | ok => exact .done (Or.inl hfresh) ⟨issued, hissued⟩ hpair rfl (by rw [hfresh]; rfl)
    | some text =>
      rw [commit.eq_def]
      simp only
      cases hwritten : answers.accountWritten with
      | error detail =>
        refine .failed (Or.inr ?_)
        rintro ⟨_, h⟩
        cases hwritten.symm.trans h
      | ok =>
        have writes : answers.writesAccount := ⟨⟨issued, hissued⟩, hwritten⟩
        cases hpair : answers.pairWritten with
        | error detail => exact .stopped hfresh writes (by simp [hpair]) rfl
        | ok => exact .done (Or.inr writes) ⟨issued, hissued⟩ hpair rfl (by rw [hfresh]; rfl)

/-- A renewal gets as far as writing an account it registered. -/
structure Writes (disk : Disk) (answers : Answers) (url key : String) : Prop where
  absent : disk.account = none
  client : answers.client = .ok ()
  registered : answers.registered = .ok (url, key)
  written : answers.writesAccount

/-- The one call that registers the account of these settings. -/
def registering (acme : Acme) (url : String) : List Call :=
  [.registered acme.directory url (contactUri (acme.contact.getD ""))]

/-- What a renewal leaves of the account file, the account it names when it succeeds, and
what the CA was told on the way. -/
inductive Leaves (acme : Acme) (disk : Disk) (answers : Answers) : Attempt → Prop
  | failed {e : AcmeError} {calls : List Call} : (∀ url key, ¬Writes disk answers url key) →
    disk.account = none ∨ acme.contact = none ∨ calls = [] →
    Leaves acme disk answers ⟨.error e, disk, calls⟩
  | reused {text : String} {credentials : Credentials} {renewed : Renewed} {after : Disk}
    {calls : List Call} : disk.account = some text →
    belongsTo text acme.directory acme.accountUrl = .ok () →
    Format.read text = .ok credentials → renewed.accountUrl = credentials.id →
    after.account = some text → acme.contact = none ∨ calls = [] → answers.Reuses →
    Leaves acme disk answers ⟨.ok renewed, after, calls⟩
  | stopped {url key : String} {e : AcmeError} {after : Disk} :
    Writes disk answers url key → answers.pairWritten ≠ .ok () →
    after.account = some (Format.write ⟨url, key, some acme.directory⟩) →
    Leaves acme disk answers ⟨.error e, after, registering acme url⟩
  | fresh {url key : String} {renewed : Renewed} {after : Disk} :
    Writes disk answers url key → answers.pairWritten = .ok () → renewed.accountUrl = url →
    after.account = some (Format.write ⟨url, key, some acme.directory⟩) →
    Leaves acme disk answers ⟨.ok renewed, after, registering acme url⟩

theorem renew_leaves {state : ServerState} {acme : Acme} (ours : state.tls.renewable = some acme)
    (paths : ServerPaths) (disk : Disk) (answers : Answers) :
    Leaves acme disk answers (renew state paths disk answers) := by
  rw [renew_eq ours]
  have took := account_took acme paths disk.account answers
  generalize account acme paths disk.account answers = out at *
  -- the account of the file goes through to the end or changes nothing
  have reuse : ∀ {text credentials calls}, disk.account = some text →
      belongsTo text acme.directory acme.accountUrl = .ok () → Format.read text = .ok credentials →
      acme.contact = none ∨ calls = [] → answers.client = .ok () → answers.signedIn = .ok () →
      Leaves acme disk answers (save acme paths disk answers ⟨credentials.id, none⟩ calls) := by
    intro text credentials calls hfile belongs read quiet client signedIn
    have saved := save_saved acme paths disk answers ⟨credentials.id, none⟩ calls
    generalize save acme paths disk answers ⟨credentials.id, none⟩ calls = attempt at *
    cases saved with
    | failed _ =>
      refine .failed (fun url key writes => ?_) (Or.inr quiet)
      cases hfile.symm.trans writes.absent
    | stopped fresh _ _ _ => cases fresh
    | done _ issued hpair hurl hafter =>
      exact .reused hfile belongs read hurl (hafter.trans hfile) quiet
        ⟨client, signedIn, issued, hpair⟩
  cases took with
  | failed unregistered =>
    refine .failed (fun url key writes => ?_) (Or.inr (Or.inr rfl))
    exact unregistered _ writes.absent writes.client writes.registered
  | reused hfile belongs read _ client signedIn =>
    exact reuse hfile belongs read (Or.inr rfl) client signedIn
  | told hfile belongs read nobody client signedIn =>
    exact reuse hfile belongs read (Or.inl nobody) client signedIn
  | @registered url key hfile client registered =>
    have saved := save_saved acme paths disk answers
      ⟨url, some (Format.write ⟨url, key, some acme.directory⟩)⟩ (registering acme url)
    simp only
    rw [registering] at saved
    generalize save acme paths disk answers _ _ = attempt at *
    cases saved with
    | failed unwritten =>
      refine .failed (fun url' key' writes => ?_) (Or.inl hfile)
      exact unwritten.elim (fun h => by cases h) (· writes.written)
    | stopped fresh writes hpair hafter =>
      cases fresh
      exact .stopped ⟨hfile, client, registered, writes⟩ hpair hafter
    | done writes _ hpair hurl hafter =>
      have written := writes.resolve_left (by simp)
      exact .fresh ⟨hfile, client, registered, written⟩ hpair hurl hafter

omit [Format] [Unicode] in
theorem Writes.unique {disk : Disk} {answers : Answers} {url key url' key' : String}
    (h : Writes disk answers url key) (h' : Writes disk answers url' key') :
    url = url' ∧ key = key' := by
  have := h.registered.symm.trans h'.registered
  simpa using this

omit [Unicode] in
theorem Leaves.written {acme : Acme} {disk : Disk} {answers : Answers} {attempt : Attempt}
    (h : Leaves acme disk answers attempt) {url key : String}
    (writes : Writes disk answers url key) :
    attempt.disk.account = some (Format.write ⟨url, key, some acme.directory⟩) := by
  cases h with
  | failed unwritten _ => exact absurd writes (unwritten url key)
  | reused hfile _ _ _ _ _ _ => cases hfile.symm.trans writes.absent
  | stopped writes' _ hafter =>
    obtain ⟨rfl, rfl⟩ := writes.unique writes'
    exact hafter
  | fresh writes' _ _ hafter =>
    obtain ⟨rfl, rfl⟩ := writes.unique writes'
    exact hafter

omit [Unicode] in
theorem Leaves.kept {acme : Acme} {disk : Disk} {answers : Answers} {attempt : Attempt}
    (h : Leaves acme disk answers attempt) (unwritten : ∀ url key, ¬Writes disk answers url key) :
    attempt.disk.account = disk.account := by
  cases h with
  | failed _ _ => rfl
  | reused hfile _ _ _ hafter _ _ => exact hafter.trans hfile.symm
  | stopped writes _ _ => exact absurd writes (unwritten _ _)
  | fresh writes _ _ _ => exact absurd writes (unwritten _ _)

omit [Unicode] in
/-- A renewal that wrote an account fails exactly if it then fails to write the pair. -/
theorem Leaves.pair {acme : Acme} {disk : Disk} {answers : Answers} {attempt : Attempt}
    (h : Leaves acme disk answers attempt) {url key : String}
    (writes : Writes disk answers url key) :
    (∃ e, attempt.result = .error e) ↔ answers.pairWritten ≠ .ok () := by
  cases h with
  | failed unwritten _ => exact absurd writes (unwritten url key)
  | reused hfile _ _ _ _ _ _ => cases hfile.symm.trans writes.absent
  | stopped _ hpair _ => exact iff_of_true ⟨_, rfl⟩ hpair
  | fresh _ hpair _ _ => simp [hpair]

/-- With a file that is accepted and a CA that answers, a renewal goes through. -/
theorem renew_reuses {state : ServerState} {acme : Acme} {disk : Disk} {text contact : String}
    {credentials : Credentials} {answers : Answers} (ours : state.tls.renewable = some acme)
    (file : disk.account = some text)
    (belongs : belongsTo text acme.directory acme.accountUrl = .ok ())
    (read : Format.read text = .ok credentials) (hcontact : acme.contact = some contact)
    (reuses : answers.Reuses) (paths : ServerPaths) :
    ∃ renewed after, renew state paths disk answers = ⟨.ok renewed, after, []⟩ ∧
      renewed.accountUrl = credentials.id := by
  have loaded : load acme.accountKeyPath acme.directory acme.accountUrl (some text) =
      .ok credentials := load_eq_ok.mpr ⟨text, rfl, belongs, read⟩
  have signed : account acme paths disk.account answers = (.ok ⟨credentials.id, none⟩, []) := by
    rw [file, account_some, signIn, loaded, hcontact]
    simp [reuses.client, reuses.signedIn]
  obtain ⟨issued, hissued⟩ := reuses.issued
  rw [renew_eq ours, signed]
  simp only [save, hissued, commit, reuses.pair]
  exact ⟨_, _, rfl, rfl⟩

end AcmeClient

namespace Renew

variable [Format] [Unicode]

/-- The account file is absent, or it would be accepted for the account these settings name. -/
def AgreesWith (account : Option String) (tls : Tls) : Prop :=
  ∀ acme, tls.renewable = some acme → account = none ∨
    ∃ text, account = some text ∧ belongsTo text acme.directory acme.accountUrl = .ok ()

/-- The same for a state file, if it can be read at all. -/
def Agrees (account : Option String) (file : String) : Prop :=
  ∀ state, ServerState.parse file = .ok state → AgreesWith account state.tls

/-- What is written is what is read again. -/
theorem agrees_written {account : Option String} {file : String} {found state : ServerState}
    (read : ServerState.parse file = .ok found) (untouched : Untouched found state)
    (h : AgreesWith account state.tls) : Agrees account state.toJsonString := by
  intro state' hparse
  cases (untouched.parse_back read).symm.trans hparse
  exact h

omit [Unicode] in
/-- After a renewal that succeeded, the file is the account that gets recorded. -/
theorem agrees_of_leaves {acme : Acme} {disk after : Disk} {answers : Answers} {renewed : Renewed}
    {calls : List Call} (h : Leaves acme disk answers ⟨.ok renewed, after, calls⟩) {tls : Tls}
    (named : ∀ acme', tls.renewable = some acme' →
      acme'.directory = acme.directory ∧ acme'.accountUrl = renewed.accountUrl) :
    AgreesWith after.account tls := by
  intro acme' hours
  obtain ⟨hdirectory, hurl⟩ := named acme' hours
  rw [hdirectory, hurl]
  refine Or.inr ?_
  cases h with
  | reused _ belongs read url hafter _ _ =>
    refine ⟨_, hafter, ?_⟩
    rw [belongsTo_of_read read] at belongs ⊢
    exact ⟨belongs.1, Or.inr url.symm⟩
  | fresh _ _ url hafter =>
    refine ⟨_, hafter, ?_⟩
    rw [belongsTo_of_read (Format.read_write _)]
    exact ⟨rfl, Or.inr url.symm⟩

omit [Format] in
theorem record_renewable (state : ServerState) (renewed : Renewed) (now : Int64) {acme : Acme}
    (ours : state.tls.renewable = some acme) :
    (record state renewed now).tls.renewable =
      some ({ acme with accountUrl := renewed.accountUrl }.issued now renewed.notAfter) := by
  rw [Tls.renewable_eq_some] at ours
  rw [record, Tls.modifyAcme, ours]
  rfl

/-- Who renews. -/
inductive Driver where
  | command (asked : ServerRenew)
  | daemon
  deriving DecidableEq, Repr

/-- The hub after one attempt. -/
def attempt (classify : Classify) (driver : Driver) (hub : Hub) (paths : ServerPaths)
    (now : Int64) (luck : Luck) : Hub :=
  match driver with
  | .command asked => (run hub asked paths now luck).2.1
  | .daemon => (renewOnce classify hub paths now luck).2.1

/-- The daemon registers an account, writes its file and then does not get to record it,
while the state file names another account. -/
def Strands (driver : Driver) (hub : Hub) (luck : Luck) : Prop :=
  driver = .daemon ∧ luck.issuing = .ok true ∧ ∃ state acme url key,
    lock luck.readable hub.file = some state ∧ state.tls.renewable = some acme ∧
    Writes hub.disk luck.answers url key ∧
    (luck.answers.pairWritten ≠ .ok () ∨ Unrecorded hub luck state.tls) ∧
    ∃ left acme', ServerState.parse (hub.later luck) = .ok left ∧
      left.tls.renewable = some acme' ∧
      ¬(acme'.directory = acme.directory ∧ (acme'.accountUrl = "" ∨ acme'.accountUrl = url))

omit [Unicode] in
theorem agreesWith_edited {account : Option String} {tls tls' : Tls} (h : AgreesWith account tls)
    (same : ∀ acme', tls'.renewable = some acme' → ∃ acme, tls.renewable = some acme ∧
      acme'.directory = acme.directory ∧ acme'.accountUrl = acme.accountUrl) :
    AgreesWith account tls' := by
  intro acme' hours'
  obtain ⟨acme, hours, hdirectory, hurl⟩ := same acme' hours'
  rw [hdirectory, hurl]
  exact h acme hours

omit [Format] in
theorem plan_settings {state : ServerState} {asked : ServerRenew} {now : Int64}
    (h : plan state asked now = .ok .settings) :
    ∃ acme, state.tls.renewable = some acme ∧ changesCa acme asked.ca = none := by
  rw [plan] at h
  split at h
  · cases h
  split at h
  · cases h
  split at h
  · split at h
    · cases h
    · cases h
  next current hcurrent =>
  split at h
  · cases h
  · next same => exact ⟨current, hcurrent, same⟩

omit [Format] in
theorem apply_renewable (state : ServerState) (asked : ServerRenew) (paths : ServerPaths)
    (keeping : Keeping) :
    ∃ wanted, (apply state asked paths keeping).tls.renewable = some wanted := by
  rw [apply, applyTls]
  cases state.tls.source with
  | manual => exact ⟨_, rfl⟩
  | acme acme => exact ⟨_, rfl⟩

omit [Format] in
theorem apply_renewable_acme {state : ServerState} {acme : Acme}
    (ours : state.tls.renewable = some acme) (asked : ServerRenew) (paths : ServerPaths)
    (keeping : Keeping) :
    (apply state asked paths keeping).tls.renewable = some (applyAcme acme asked) := by
  rw [Tls.renewable_eq_some] at ours
  rw [apply, applyTls, ours]
  rfl

omit [Format] in
theorem reissued_renewable (found : ServerState) (asked : ServerRenew) (paths : ServerPaths)
    (keeping : Keeping) (issued : Renewed) (now : Int64) (notAfter : Option Int64) {wanted : Acme}
    (edited : (apply found asked paths keeping).tls.renewable = some wanted) :
    (reissued found asked paths keeping issued now notAfter).tls.renewable =
      some ({ wanted with accountUrl := issued.accountUrl }.issued now issued.notAfter) :=
  record_renewable (apply found asked paths keeping) issued now edited

/-- Whatever a command comes to, the account file and the state file agree afterwards. -/
theorem run_agrees {hub : Hub} {luck : Luck} (before : Agrees hub.disk.account hub.file)
    (later : Agrees hub.disk.account (hub.later luck)) (asked : ServerRenew) (paths : ServerPaths)
    (now : Int64) :
    let after := (run hub asked paths now luck).2.1
    Agrees after.disk.account after.file := by
  have ran := run_ran hub asked paths now luck
  generalize run hub asked paths now luck = out at *
  cases ran with
  | idle _ => exact before
  | stopped => exact later
  | failed _ => exact later
  | @pushed found pushed hfound =>
    refine agrees_written hfound (remember_untouched found pushed) ?_
    exact later found hfound
  | @settings state found keeping read hplan _ hfound same =>
    refine agrees_written hfound (apply_untouched found asked paths keeping) ?_
    obtain ⟨acme, hours, stays⟩ := plan_settings hplan
    rw [← same] at hours
    refine agreesWith_edited (later found hfound) fun acme' hours' => ⟨acme, hours, ?_⟩
    cases (apply_renewable_acme hours asked paths keeping).symm.trans hours'
    exact ⟨(applyAcme_directory acme asked).mpr stays, rfl⟩
  | @reissued state found why keeping issued after calls notAfter asks _ _ _ hfound same =>
    have untouched : Untouched found (reissued found asked paths keeping issued now notAfter) :=
      ⟨rfl, rfl, rfl, rfl, rfl, rfl, rfl⟩
    refine agrees_written hfound untouched ?_
    obtain ⟨wanted, hwanted⟩ := apply_renewable state asked paths keeping
    have leaves := renew_leaves hwanted paths hub.disk luck.answers
    rw [asks.order] at leaves
    refine agrees_of_leaves leaves fun acme' hours' => ?_
    have hfound' : (apply found asked paths keeping).tls.renewable = some wanted := by
      rw [apply, same]
      exact hwanted
    cases (reissued_renewable _ _ _ _ issued now notAfter hfound').symm.trans hours'
    exact ⟨rfl, rfl⟩

/-- What others left of the state file agrees if they kept to the account file as it was. -/
theorem agrees_later {hub : Hub} {luck : Luck} (before : Agrees hub.disk.account hub.file)
    (others : ∀ text, luck.meanwhile = some text → Agrees hub.disk.account text) :
    Agrees hub.disk.account (hub.later luck) := by
  rw [Hub.later]
  cases hmeanwhile : luck.meanwhile with
  | none => exact before
  | some text => exact others text hmeanwhile

/-- The daemon leaves the two files disagreeing exactly when it strands the hub. -/
theorem renewOnce_agrees (classify : Classify) {hub : Hub} {luck : Luck}
    (before : Agrees hub.disk.account hub.file)
    (later : Agrees hub.disk.account (hub.later luck)) (paths : ServerPaths) (now : Int64) :
    let after := (renewOnce classify hub paths now luck).2.1
    Agrees after.disk.account after.file ↔ ¬Strands .daemon hub luck := by
  have ran := renewOnce_ran classify hub paths now luck
  generalize renewOnce classify hub paths now luck = out at *
  cases ran with
  | idle busy =>
    refine iff_of_true before ?_
    rintro ⟨_, mine, state, _, _, _, read, _⟩
    rcases busy with other | unread
    · exact other mine
    · cases unread.symm.trans read
  | @failed e state mine read stopped =>
    constructor
    · rintro agrees ⟨_, _, state', acme, url, key, read', ours, writes, _, left, acme', hleft,
        ours', differs⟩
      cases read.symm.trans read'
      have account := (renew_leaves ours paths hub.disk luck.answers).written writes
      rcases agrees left hleft acme' ours' with absent | ⟨text, htext, belongs⟩
      · cases account.symm.trans absent
      · cases account.symm.trans htext
        rw [belongsTo_of_read (Format.read_write _)] at belongs
        refine differs ⟨(Option.some.inj belongs.1).symm, belongs.2.imp_right Eq.symm⟩
    · intro unstranded left hleft acme' ours'
      simp only
      cases hours : state.tls.renewable with
      | none =>
        have kept : (renew state paths hub.disk luck.answers).disk = hub.disk := by
          rw [renew, hours]
        rw [kept]
        exact later left hleft acme' ours'
      | some acme =>
        have leaves := renew_leaves hours paths hub.disk luck.answers
        by_cases hwrites : ∃ url key, Writes hub.disk luck.answers url key
        · obtain ⟨url, key, writes⟩ := hwrites
          refine Or.inr ⟨_, leaves.written writes, ?_⟩
          rw [belongsTo_of_read (Format.read_write _)]
          refine Decidable.byContradiction fun differs => unstranded ?_
          refine ⟨rfl, mine, state, acme, url, key, read, hours, writes, ?_, left, acme', hleft,
            ours', ?_⟩
          · exact stopped.imp_left (leaves.pair writes).mp
          · rintro ⟨hdirectory, hurl⟩
            exact differs ⟨congrArg some hdirectory.symm, hurl.imp_right Eq.symm⟩
        · rw [leaves.kept fun url key writes => hwrites ⟨url, key, writes⟩]
          exact later left hleft acme' ours'
  | @renewed state found renewed after calls read order hfound same recorded =>
    constructor
    · rintro _ ⟨_, _, state', acme, url, key, read', ours, writes, stops, _⟩
      cases read.symm.trans read'
      have leaves := renew_leaves ours paths hub.disk luck.answers
      rw [order] at leaves
      rcases stops with unpaired | unrecorded
      · obtain ⟨e, h⟩ := (leaves.pair writes).mpr unpaired
        cases h
      · exact recorded unrecorded
    · intro _
      refine agrees_written (lock_eq_some hfound) (record_untouched found renewed now) ?_
      cases hours : state.tls.renewable with
      | none =>
        rw [renew, hours] at order
        cases order
      | some acme =>
        have leaves := renew_leaves hours paths hub.disk luck.answers
        rw [order] at leaves
        refine agrees_of_leaves leaves fun acme' hours' => ?_
        rw [← same] at hours
        cases (record_renewable found renewed now hours).symm.trans hours'
        exact ⟨rfl, rfl⟩

/-- After one attempt, failed or not, the account file is absent or accepted for the
account of the state file, unless the daemon strands the hub. -/
theorem attempt_agrees (classify : Classify) (driver : Driver) (hub : Hub) (luck : Luck)
    (before : Agrees hub.disk.account hub.file)
    (others : ∀ text, luck.meanwhile = some text → Agrees hub.disk.account text)
    (paths : ServerPaths) (now : Int64) :
    let after := attempt classify driver hub paths now luck
    Agrees after.disk.account after.file ↔ ¬Strands driver hub luck := by
  have later := agrees_later before others
  cases driver with
  | command asked =>
    refine iff_of_true (run_agrees before later asked paths now) ?_
    rintro ⟨h, _⟩
    cases h
  | daemon => exact renewOnce_agrees classify before later paths now

omit [Format] [Unicode] in
theorem attempt_agrees_sample :
    letI := asciiTables
    letI := jsonFormat
    let hub : Hub := ⟨(sampleState "").toJsonString, ⟨none, none, none⟩⟩
    let after := attempt (fun _ => .busy) .daemon hub samplePaths 0 sampleLuck
    Agrees after.disk.account after.file := by
  let := asciiTables
  let := jsonFormat
  intro hub
  refine (attempt_agrees (fun _ => .busy) .daemon hub sampleLuck ?_ ?_ samplePaths 0).mpr ?_
  · exact fun _ _ _ _ => Or.inl rfl
  · intro text h
    cases h
  · rintro ⟨_, _, state, _, _, _, read, _, _, stops, _⟩
    rcases stops with h | ⟨_, h⟩ | h | h
    · exact h rfl
    · cases h
    · have same : hub.later sampleLuck = hub.file := by rw [Hub.later]; exact Option.getD_none
      rw [same] at h
      exact h state read rfl
    · cases h

omit [Format] [Unicode] in
/-- The daemon registers an account, writes its file and fails to write the pair: the
state file still names the old account. -/
theorem attempt_strands :
    letI := asciiTables
    letI := jsonFormat
    ¬∀ (driver : Driver) (hub : Hub) (state : ServerState) (acme : Acme) (luck : Luck)
      (paths : ServerPaths) (now : Int64), ServerState.parse hub.file = .ok state →
      state.tls.source = .acme acme → Agrees hub.disk.account hub.file → luck.meanwhile = none →
        let after := attempt (fun _ => .busy) driver hub paths now luck
        Agrees after.disk.account after.file := by
  let := asciiTables
  let := jsonFormat
  intro claim
  let hub : Hub := ⟨(sampleState "old").toJsonString, ⟨none, none, none⟩⟩
  let luck : Luck := { sampleLuck with
    answers := { sampleAnswers with pairWritten := .error "No space left on device" } }
  have before : Agrees hub.disk.account hub.file := fun _ _ _ _ => Or.inl rfl
  have read : ServerState.parse hub.file = .ok (sampleState "old") :=
    ServerState.parse_toJsonString rfl
  have same : hub.later luck = hub.file := by
    rw [Hub.later]
    exact Option.getD_none
  have stranded : Strands .daemon hub luck := by
    refine ⟨rfl, rfl, sampleState "old", sampleAcme "old", "new", "...", ?_, rfl, ?_, ?_,
      sampleState "old", sampleAcme "old", same.symm ▸ read, rfl, ?_⟩
    · rw [lock, read]
      rfl
    · exact ⟨rfl, rfl, rfl, ⟨_, rfl⟩, rfl⟩
    · exact Or.inl (fun h => by cases h)
    · decide
  have later : Agrees hub.disk.account (hub.later luck) := fun _ _ _ _ => Or.inl rfl
  -- stated for any hub, so that nothing evaluates this one
  have agrees : ∀ (hub : Hub) (luck : Luck), Agrees hub.disk.account hub.file →
      Agrees hub.disk.account (hub.later luck) →
      (let after := attempt (fun _ => .busy) .daemon hub samplePaths 0 luck
      Agrees after.disk.account after.file) → ¬Strands .daemon hub luck :=
    fun hub luck before later h => (renewOnce_agrees _ before later samplePaths 0).mp h
  exact agrees hub luck before later (claim .daemon hub (sampleState "old") (sampleAcme "old") luck
    samplePaths 0 read rfl before rfl) stranded

end Renew
