import Anago.InitRun
import Anago.Runs

/-!
# What the CA knows as the contact

The CA remembers for each account the contact it was registered with or last told. The
hub compares the recorded contact with itself, so a contact that changes while there is
an account to go on with is never told. Otherwise a renewal leaves the CA with the
contact the state records.
-/

open StdText AcmeClient Handlers RenewalLoop Renew

namespace Contacts

/-- The CA's contacts, by directory and account. -/
abbrev Told := String → String → Option String

def Told.note (told : Told) (directory url contact : String) : Told :=
  fun directory' url' =>
    if directory' = directory ∧ url' = url then some contact else told directory' url'

def Told.hear (told : Told) : Call → Told
  | .registered directory url contact => told.note directory url contact
  | .contactUpdated directory url contact => told.note directory url contact

def Told.hears (told : Told) (calls : List Call) : Told := calls.foldl Told.hear told

/-- The state file when there is one, the other files, and what the CA remembers. -/
structure World where
  file : Option String
  disk : Disk
  told : Told

/-- A run of one of the three programs, with everything that is not up to it. -/
inductive Step where
  | init (args : ServerInit) (request : Init.Request) (code : JoinCode) (now : Int64)
      (luck : Init.Luck)
  | command (asked : ServerRenew) (now : Int64) (luck : Luck)
  | daemon (now : Int64) (luck : Luck)

/-- Nobody else writes the state file in the middle of a run. -/
abbrev alone (luck : Luck) : Luck := { luck with meanwhile := none }

variable [Unicode] [Format]

/-- Whether a renewal has just succeeded, and the world afterwards. -/
def act (classify : Classify) (paths : ServerPaths) (world : World) : Step → Bool × World
  | .init args request code now luck =>
    let (result, file, disk, calls) :=
      Init.run world.file world.disk args request paths code now luck
    (result.isOk, ⟨file, disk, world.told.hears calls⟩)
  | .command asked now luck =>
    match world.file with
    | none => (false, world)
    | some file =>
      let (result, hub, calls) := Renew.run ⟨file, world.disk⟩ asked paths now (alone luck)
      let renewed := match result with
        | .ok (.reissue _) => true
        | _ => false
      (renewed, ⟨some hub.file, hub.disk, world.told.hears calls⟩)
  | .daemon now luck =>
    match world.file with
    | none => (false, world)
    | some file =>
      let (result, hub, calls) := renewOnce classify ⟨file, world.disk⟩ paths now (alone luck)
      (result.isOk, ⟨some hub.file, hub.disk, world.told.hears calls⟩)

def step (classify : Classify) (paths : ServerPaths) (world : World) (s : Step) : World :=
  (act classify paths world s).2

abbrev run (classify : Classify) (paths : ServerPaths) (world : World)
    (steps : List Step) : World :=
  Runs.run (step classify paths) world steps

/-- The CA's contact for the recorded account is the recorded contact. -/
def UpToDate (told : Told) (tls : Tls) : Prop :=
  ∀ acme contact, tls.renewable = some acme → acme.contact = some contact →
    told acme.directory acme.accountUrl = some (contactUri contact)

/-- The CA's contact for the account on disk, if these settings would sign in with it. -/
def Knows (told : Told) (account : Option String) (acme : Acme) : Prop :=
  ∀ text credentials contact, account = some text →
    belongsTo text acme.directory acme.accountUrl = .ok () → Format.read text = .ok credentials →
    acme.contact = some contact → told acme.directory credentials.id = some (contactUri contact)

/-- The account on disk is one of the recorded directory, and the CA's contact for it is
the recorded one if it is the recorded account. -/
structure Heard (told : Told) (account : Option String) (acme : Acme) : Prop where
  here : ∀ text, account = some text →
    ∃ credentials, Format.read text = .ok credentials ∧ credentials.directory = some acme.directory
  knows : Knows told account acme

/-- The settings a takeover or a new hub starts from meet an account file that the CA
knows under another contact. -/
def Leftover (told : Told) (account : Option String) (directory contact : String) : Prop :=
  ∃ text credentials, account = some text ∧ belongsTo text directory "" = .ok () ∧
    Format.read text = .ok credentials ∧
    told directory credentials.id ≠ some (contactUri contact)

/-- A command would write down another contact for these settings. -/
def Moves (told : Told) (account : Option String) (tls : Tls) (asked : ServerRenew) : Prop :=
  ∃ email, asked.acmeEmail = some email ∧
    match tls.renewable with
    | some acme =>
      (∃ text, account = some text ∧ belongsTo text acme.directory acme.accountUrl = .ok ()) ∧
        acme.contact.map contactUri ≠ some (contactUri email)
    | none => Leftover told account (AcmeClient.directory (asked.ca = some .staging)) email

/-- Nothing between the plan of a reissue and its commit goes wrong. -/
def Reissues (luck : Luck) : Prop :=
  luck.watched = .ok () ∧ luck.answers.Reuses ∧ ∃ notAfter, luck.loaded = .ok notAfter

/-- The step writes down a contact that the CA does not have for the account on disk. -/
def Overlooks (world : World) : Step → Prop
  | .init _ request _ _ luck =>
    ∃ directory challenge contact staging cloudflare keys, world.file = none ∧
      Init.prepare request luck = .ok (.acme directory challenge contact staging,
        cloudflare, keys) ∧
      luck.answers.Reuses ∧ (∃ notAfter, luck.loaded = .ok notAfter) ∧ luck.published = .ok () ∧
      Leftover world.told world.disk.account directory contact
  | .command asked now luck =>
    ∃ file state keeping, world.file = some file ∧
      Commits ⟨file, world.disk⟩ asked (alone luck) state keeping ∧
      (plan state asked now = .ok .settings ∨
        (∃ why, plan state asked now = .ok (.reissue why)) ∧ Reissues luck) ∧
      Moves world.told world.disk.account state.tls asked
  | .daemon _ _ => False

omit [Unicode] [Format] in
theorem hears_registering (told : Told) (acme : Acme) (url : String) :
    told.hears (registering acme url) acme.directory url =
      some (contactUri (acme.contact.getD "")) := by
  simp [Told.hears, registering, Told.hear, Told.note]

omit [Unicode] in
/-- A renewal that succeeds leaves the CA with the contact of the settings it ran under,
if the CA had that contact for the account it found. -/
theorem leaves_done {told : Told} {wanted acme : Acme} {disk after : Disk} {answers : Answers}
    {renewed : Renewed} {calls : List Call}
    (leaves : Leaves wanted disk answers ⟨.ok renewed, after, calls⟩)
    (knows : answers.Reuses → Knows told disk.account wanted)
    (directory : acme.directory = wanted.directory) (contact : acme.contact = wanted.contact)
    (account : acme.accountUrl = renewed.accountUrl) :
    Heard (told.hears calls) after.account acme ∧
      ∀ c, acme.contact = some c →
        told.hears calls acme.directory acme.accountUrl = some (contactUri c) := by
  rw [directory, contact, account]
  cases leaves with
  | @reused text credentials _ _ _ hfile belongs read url hafter quiet reuses =>
    have same : ∀ c, wanted.contact = some c →
        told.hears calls wanted.directory credentials.id = some (contactUri c) := by
      intro c hc
      obtain rfl := quiet.resolve_left (by simp [hc])
      exact knows reuses text credentials c hfile belongs read hc
    refine ⟨⟨?_, ?_⟩, ?_⟩
    · intro text' hfile'
      cases hafter.symm.trans hfile'
      refine ⟨credentials, read, ?_⟩
      rw [directory]
      exact ((belongsTo_of_read read _ _).mp belongs).1
    · intro text' credentials' c hfile' _ read' hc
      cases hafter.symm.trans hfile'
      cases read.symm.trans read'
      rw [directory]
      exact same c (contact.symm.trans hc)
    · rw [url]
      exact same
  | @fresh url key _ _ writes _ hurl hafter =>
    have told' := hears_registering told wanted url
    refine ⟨⟨?_, ?_⟩, ?_⟩
    · intro text hfile
      cases hafter.symm.trans hfile
      exact ⟨_, Format.read_write _, congrArg some directory.symm⟩
    · intro text credentials c hfile _ read hc
      cases hafter.symm.trans hfile
      cases (Format.read_write _).symm.trans read
      rw [directory, told', contact.symm.trans hc]
      rfl
    · intro c hc
      rw [hurl, told', hc]
      rfl

omit [Unicode] in
/-- Calls that are not about an account on disk, or of a hub without a contact. -/
theorem Heard.quiet {told : Told} {account : Option String} {acme : Acme} {calls : List Call}
    (h : Heard told account acme) (quiet : account = none ∨ acme.contact = none ∨ calls = []) :
    Heard (told.hears calls) account acme := by
  rcases quiet with absent | nobody | rfl
  · subst absent
    refine ⟨fun _ h => ?_, fun _ _ _ h => ?_⟩
    · cases h
    · cases h
  · refine ⟨h.here, fun _ _ contact _ _ _ hcontact => ?_⟩
    cases nobody.symm.trans hcontact
  · exact h

omit [Unicode] in
/-- What a renewal tells the CA is about no account on disk, unless it has no contact. -/
theorem leaves_quiet {wanted : Acme} {disk : Disk} {answers : Answers}
    {attempt : AcmeClient.Attempt} (leaves : Leaves wanted disk answers attempt) :
    disk.account = none ∨ wanted.contact = none ∨ attempt.calls = [] := by
  cases leaves with
  | failed _ quiet => exact quiet
  | reused _ _ _ _ _ quiet _ => exact Or.inr quiet
  | stopped writes _ _ => exact Or.inl writes.absent
  | fresh writes _ _ _ => exact Or.inl writes.absent

omit [Unicode] in
/-- A renewal that is not recorded leaves the CA as well informed as it was, also when
its files stay. -/
theorem leaves_kept {told : Told} {acme : Acme} {disk : Disk} {answers : Answers}
    {attempt : AcmeClient.Attempt} (leaves : Leaves acme disk answers attempt)
    (heard : Heard told disk.account acme) :
    Heard (told.hears attempt.calls) attempt.disk.account acme := by
  have fresh : ∀ {url key after}, after = some (Format.write ⟨url, key, some acme.directory⟩) →
      Heard (told.hears (registering acme url)) after acme := by
    rintro url key after rfl
    refine ⟨?_, ?_⟩
    · intro text hfile
      cases hfile
      exact ⟨_, Format.read_write _, rfl⟩
    · intro text credentials c hfile _ read hc
      cases hfile
      cases (Format.read_write _).symm.trans read
      rw [hears_registering, hc]
      rfl
  cases leaves with
  | failed _ quiet => exact heard.quiet quiet
  | reused hfile _ _ _ hafter quiet _ =>
    simp only
    rw [hafter, ← hfile]
    exact heard.quiet (Or.inr quiet)
  | stopped _ _ hafter => exact fresh hafter
  | fresh _ _ _ hafter => exact fresh hafter

/-- What holds of a world between steps: an ACME hub's account is one it can go on with. -/
def Sound (world : World) : Prop :=
  ∀ file state acme, world.file = some file → ServerState.parse file = .ok state →
    state.tls.renewable = some acme → Heard world.told world.disk.account acme

/-- What the CA has been told by the time a renewal has succeeded. -/
def Told.reaches (told : Told) (file : Option String) : Prop :=
  ∀ text state, file = some text → ServerState.parse text = .ok state → UpToDate told state.tls

theorem sound_of_parse {text : String} {state : ServerState} {disk : Disk} {told : Told}
    (read : ServerState.parse text = .ok state)
    (h : ∀ acme, state.tls.renewable = some acme → Heard told disk.account acme) :
    Sound ⟨some text, disk, told⟩ := by
  intro text' state' acme htext hparse hours
  cases htext
  cases read.symm.trans hparse
  exact h acme hours

/-- A renewal that succeeded and is recorded: the CA and the state file agree. -/
theorem recorded_sound {told : Told} {wanted acme : Acme} {disk after : Disk} {answers : Answers}
    {renewed : Renewed} {calls : List Call}
    (leaves : Leaves wanted disk answers ⟨.ok renewed, after, calls⟩)
    (knows : answers.Reuses → Knows told disk.account wanted) {text : String} {state : ServerState}
    (read : ServerState.parse text = .ok state) (ours : state.tls.renewable = some acme)
    (directory : acme.directory = wanted.directory) (contact : acme.contact = wanted.contact)
    (account : acme.accountUrl = renewed.accountUrl) :
    Sound ⟨some text, after, told.hears calls⟩ ∧ (told.hears calls).reaches (some text) := by
  obtain ⟨heard, reached⟩ := leaves_done leaves knows directory contact account
  constructor
  · refine sound_of_parse read fun acme' ours' => ?_
    cases ours.symm.trans ours'
    exact heard
  · intro text' state' htext hparse acme' c ours' hc
    cases htext
    cases read.symm.trans hparse
    cases ours.symm.trans ours'
    exact reached c hc

theorem init_sound {world : World} (args : ServerInit) {request : Init.Request} (code : JoinCode)
    (paths : ServerPaths) (now : Int64) {luck : Init.Luck} (sound : Sound world)
    (straight : ¬Overlooks world (.init args request code now luck)) :
    let (result, file, disk, calls) :=
      Init.run world.file world.disk args request paths code now luck
    Sound ⟨file, disk, world.told.hears calls⟩ ∧
      (result.isOk = true → (world.told.hears calls).reaches file) := by
  have ran := Init.run_ran world.file world.disk args request paths code now luck
  generalize Init.run world.file world.disk args request paths code now luck = out at *
  cases ran with
  | refused =>
    refine ⟨sound, fun h => ?_⟩
    cases h
  | failed _ =>
    refine ⟨fun _ _ _ h => ?_, fun h => ?_⟩
    · cases h
    · cases h
  | @manual text state read manual =>
    constructor
    · refine sound_of_parse read fun acme hours => ?_
      cases manual.symm.trans hours
    · intro _ text' state' htext hparse acme contact hours
      cases htext
      cases read.symm.trans hparse
      cases manual.symm.trans hours
  | @issued text directory contact challenge staging cloudflare keys issued after
    calls notAfter state
      absent prepared leaves loaded published read hours =>
    have knows : luck.answers.Reuses → Knows world.told world.disk.account
        (Init.wanted paths directory contact challenge) := by
      intro reuses text credentials contact' hfile belongs hread hcontact
      cases hcontact
      refine Decidable.byContradiction fun other => straight ?_
      exact ⟨directory, challenge, contact, staging, cloudflare, keys, absent, prepared, reuses,
        ⟨notAfter, loaded⟩, published, text, credentials, hfile, belongs, hread, other⟩
    obtain ⟨after, reached⟩ := recorded_sound leaves knows read hours rfl rfl rfl
    exact ⟨after, fun _ => reached⟩

theorem daemon_sound (classify : Classify) {file : String} {disk : Disk} {told : Told}
    (paths : ServerPaths) (now : Int64) (luck : Luck) (sound : Sound ⟨some file, disk, told⟩) :
    let (result, hub, calls) := renewOnce classify ⟨file, disk⟩ paths now (alone luck)
    Sound ⟨some hub.file, hub.disk, told.hears calls⟩ ∧
      (result.isOk = true → (told.hears calls).reaches (some hub.file)) := by
  have ran := renewOnce_ran classify ⟨file, disk⟩ paths now (alone luck)
  generalize renewOnce classify ⟨file, disk⟩ paths now (alone luck) = out at *
  cases ran with
  | idle _ =>
    refine ⟨sound, fun h => ?_⟩
    cases h
  | @failed e state _ read _ =>
    refine ⟨?_, fun h => ?_⟩
    · refine sound_of_parse (lock_eq_some read) fun acme hours => ?_
      exact leaves_kept (renew_leaves hours paths disk (alone luck).answers)
        (sound file state acme rfl (lock_eq_some read) hours)
    · cases h
  | @renewed state found renewed after calls read order hfound same _ =>
    have hparse := lock_eq_some hfound
    cases (lock_eq_some read).symm.trans hparse
    cases hours : state.tls.renewable with
    | none =>
      rw [AcmeClient.renew, hours] at order
      cases order
    | some acme =>
      have leaves := renew_leaves hours paths disk (alone luck).answers
      rw [order] at leaves
      obtain ⟨after, reached⟩ := recorded_sound leaves
        (fun _ => (sound file state acme rfl (lock_eq_some read) hours).knows)
        ((record_untouched state renewed now).parse_back (lock_eq_some read))
        (record_renewable state renewed now hours) rfl rfl rfl
      exact ⟨after, fun _ => reached⟩

omit [Unicode] in
/-- With the account file a command finds, the CA already has the contact it records. -/
theorem knows_applied {told : Told} {account : Option String} {tls : Tls} {asked : ServerRenew}
    {paths : ServerPaths} {wanted : Acme} (sound : ∀ acme, tls.renewable = some acme →
      Heard told account acme) (straight : ¬Moves told account tls asked)
    (ours : (applyTls tls asked paths).renewable = some wanted) : Knows told account wanted := by
  intro text credentials contact hfile belongs read hcontact
  cases hsource : tls.source with
  | manual =>
    have manual : tls.renewable = none := by rw [Tls.renewable, hsource]
    rw [applyTls, hsource] at ours
    cases ours
    refine Decidable.byContradiction fun other => straight ⟨contact, hcontact, ?_⟩
    rw [manual]
    exact ⟨text, credentials, hfile, belongs, read, other⟩
  | acme acme =>
    have hours : tls.renewable = some acme := Tls.renewable_eq_some.mpr hsource
    rw [applyTls, hsource] at ours
    cases ours
    obtain ⟨here, knows⟩ := sound acme hours
    -- an account file of the recorded directory is accepted for no other one
    have stays : (applyAcme acme asked).directory = acme.directory := by
      obtain ⟨_, read', hdirectory⟩ := here text hfile
      cases read.symm.trans read'
      have issuedBy := ((belongsTo_of_read read _ _).mp belongs).1
      exact Option.some.inj (issuedBy.symm.trans hdirectory)
    rw [stays] at belongs ⊢
    cases hemail : asked.acmeEmail with
    | none =>
      refine knows text credentials contact hfile belongs read ?_
      rw [applyAcme, hemail] at hcontact
      exact hcontact
    | some email =>
      have hcontact : email = contact := by
        rw [applyAcme, hemail] at hcontact
        exact Option.some.inj hcontact
      subst hcontact
      have same : acme.contact.map contactUri = some (contactUri email) := by
        refine Decidable.byContradiction fun other => straight ⟨email, hemail, ?_⟩
        rw [hours]
        exact ⟨⟨text, hfile, belongs⟩, other⟩
      obtain ⟨recorded, hrecorded, huri⟩ := Option.map_eq_some_iff.mp same
      rw [← huri]
      exact knows text credentials recorded hfile belongs read hrecorded

theorem command_sound {file : String} {disk : Disk} {told : Told} {asked : ServerRenew}
    (paths : ServerPaths) {now : Int64} {luck : Luck} (sound : Sound ⟨some file, disk, told⟩)
    (straight : ¬Overlooks ⟨some file, disk, told⟩ (.command asked now luck)) :
    let (result, hub, calls) := Renew.run ⟨file, disk⟩ asked paths now (alone luck)
    Sound ⟨some hub.file, hub.disk, told.hears calls⟩ ∧
      ((∃ why, result = .ok (.reissue why)) → (told.hears calls).reaches (some hub.file)) := by
  have ran := run_ran ⟨file, disk⟩ asked paths now (alone luck)
  generalize Renew.run ⟨file, disk⟩ asked paths now (alone luck) = out at *
  cases ran with
  | idle unrenewed => exact ⟨sound, fun ⟨why, h⟩ => absurd h (unrenewed why)⟩
  | stopped =>
    refine ⟨sound, fun ⟨why, h⟩ => ?_⟩
    cases h
  | @failed e state why keeping attempt asks =>
    refine ⟨?_, fun ⟨why, h⟩ => ?_⟩
    · refine sound_of_parse asks.read fun acme hours => ?_
      have leaves := renew_leaves (apply_renewable_acme hours asked paths keeping) paths disk
        (alone luck).answers
      rw [asks.order] at leaves
      refine (sound file state acme rfl asks.read hours).quiet ?_
      refine (leaves_quiet leaves).imp_right (Or.imp_left fun nobody => ?_)
      exact (Option.or_eq_none_iff.mp nobody).2
    · cases h
  | @pushed found pushed read =>
    refine ⟨?_, fun ⟨why, h⟩ => ?_⟩
    · exact sound_of_parse ((remember_untouched found pushed).parse_back read)
        fun acme hours => sound file found acme rfl read hours
    · cases h
  | @settings state found keeping read hplan commits hfound same =>
    refine ⟨?_, fun ⟨why, h⟩ => ?_⟩
    · have kept := (apply_untouched found asked paths keeping).parse_back hfound
      refine sound_of_parse kept fun acme' hours' => ?_
      obtain ⟨acme, hours, stays⟩ := plan_settings hplan
      rw [apply, same] at hours'
      have unmoved : ¬Moves told disk.account state.tls asked := fun moves =>
        straight ⟨file, state, keeping, rfl, commits, Or.inl hplan, moves⟩
      have sound := fun acme => sound file state acme rfl read
      refine ⟨?_, knows_applied sound unmoved hours'⟩
      have edited := (apply_renewable_acme hours asked paths keeping).symm.trans hours'
      cases edited
      rw [(applyAcme_directory acme asked).mpr stays]
      exact (sound acme hours).here
    · cases h
  | @reissued state found why keeping issued after calls notAfter asks commits watched loaded
      hfound same =>
    obtain ⟨wanted, hwanted⟩ := apply_renewable state asked paths keeping
    have leaves := renew_leaves hwanted paths disk (alone luck).answers
    rw [asks.order] at leaves
    have knows : (alone luck).answers.Reuses → Knows told disk.account wanted := by
      intro reuses
      have unmoved : ¬Moves told disk.account state.tls asked := fun moves =>
        straight ⟨file, state, keeping, rfl, commits,
          Or.inr ⟨⟨why, asks.plan⟩, watched, reuses, notAfter, loaded⟩, moves⟩
      exact knows_applied (fun acme => sound file state acme rfl asks.read) unmoved hwanted
    have edited : (apply found asked paths keeping).tls.renewable = some wanted := by
      rw [apply, same]
      exact hwanted
    have untouched : Untouched found (reissued found asked paths keeping issued now notAfter) :=
      ⟨rfl, rfl, rfl, rfl, rfl, rfl, rfl⟩
    obtain ⟨after, reached⟩ := recorded_sound leaves knows (untouched.parse_back hfound)
      (reissued_renewable _ _ _ _ issued now notAfter edited) rfl rfl rfl
    exact ⟨after, fun _ => reached⟩

theorem step_sound (classify : Classify) (paths : ServerPaths) {world : World} {s : Step}
    (sound : Sound world) (straight : ¬Overlooks world s) :
    Sound (step classify paths world s) ∧ ((act classify paths world s).1 = true →
      (step classify paths world s).told.reaches (step classify paths world s).file) := by
  obtain ⟨file, disk, told⟩ := world
  rw [step]
  cases s with
  | init args request code now luck => exact init_sound args code paths now sound straight
  | command asked now luck =>
    cases file with
    | none =>
      refine ⟨sound, fun h => ?_⟩
      cases h
    | some file =>
      obtain ⟨after, reached⟩ := command_sound paths sound straight
      refine ⟨after, fun renewed => reached ?_⟩
      rw [act] at renewed
      simp only at renewed
      split at renewed
      · exact ⟨_, by assumption⟩
      · cases renewed
  | daemon now luck =>
    cases file with
    | none =>
      refine ⟨sound, fun h => ?_⟩
      cases h
    | some file => exact daemon_sound classify paths now luck sound

/-- In a run none of whose steps writes down a contact the CA does not have for the
account on disk, every renewal that succeeds leaves the CA with the recorded contact. -/
theorem contact_reaches_ca (classify : Classify) (paths : ServerPaths) (world : World)
    (fresh : world.file = none) (steps : List Step)
    (straight : ∀ before s after, steps = before ++ s :: after →
      ¬Overlooks (run classify paths world before) s) :
    ∀ before s after, steps = before ++ s :: after →
      (act classify paths (run classify paths world before) s).1 = true →
        let later := run classify paths world (before ++ [s])
        later.told.reaches later.file := by
  rintro before s after rfl renewed
  have start : Sound world := by
    intro _ _ _ h
    rw [fresh] at h
    cases h
  have keep : ∀ world s, ¬Overlooks world s → Sound world → Sound (step classify paths world s) :=
    fun _ _ kind h => (step_sound classify paths h kind).1
  have sound : Sound (run classify paths world before) := by
    refine Runs.run_keeps_of keep start before ?_
    rintro sooner s' later rfl
    exact straight sooner s' (later ++ s :: after) (by simp)
  rw [run, Runs.run_append]
  exact (step_sound classify paths sound (straight before s after rfl)).2 renewed

/-- A daemon renewal that signs in with the account on disk tells the CA nothing. -/
theorem daemon_silent (classify : Classify) (paths : ServerPaths) {file text contact : String}
    {disk : Disk} {told : Told} {state : ServerState} {acme : Acme} {credentials : Credentials}
    (read : ServerState.parse file = .ok state) (ours : state.tls.renewable = some acme)
    (hfile : disk.account = some text)
    (belongs : belongsTo text acme.directory acme.accountUrl = .ok ())
    (hread : Format.read text = .ok credentials) (hcontact : acme.contact = some contact)
    (now : Int64) :
    let after := act classify paths ⟨some file, disk, told⟩ (.daemon now sampleLuck)
    after.1 = true ∧ (after.2.told.reaches after.2.file →
      told acme.directory credentials.id = some (contactUri contact)) := by
  have reuses : sampleAnswers.Reuses := ⟨rfl, rfl, ⟨_, rfl⟩, rfl⟩
  obtain ⟨renewed, after, order, hurl⟩ :=
    renew_reuses ours hfile belongs hread hcontact reuses paths
  have locked : lock true file = some state := by
    rw [lock, read]
    rfl
  have ran : renewOnce classify ⟨file, disk⟩ paths now (alone sampleLuck) =
      (.ok (), ⟨(record state renewed now).toJsonString, after⟩, []) := by
    rw [renewOnce]
    simp only [sampleLuck, locked, orderOnce, order, commitOnce, Option.getD_none, ne_eq,
      not_true_eq_false, if_false, if_true]
  simp only [act, ran]
  refine ⟨rfl, fun reached => ?_⟩
  have recorded := record_renewable state renewed now ours
  have written := (record_untouched state renewed now).parse_back read
  rw [← hurl]
  exact reached _ _ rfl written _ contact recorded hcontact

/-- A run that only records settings tells the CA nothing either. -/
theorem command_settles (classify : Classify) (paths : ServerPaths) {file : String} {disk : Disk}
    {told : Told} {state : ServerState} {asked : ServerRenew} {now : Int64}
    (read : ServerState.parse file = .ok state) (hplan : plan state asked now = .ok .settings)
    (keep : disposition state.tls asked = .unchanged) :
    step classify paths ⟨some file, disk, told⟩ (.command asked now sampleLuck) =
      ⟨some (apply state asked paths .unchanged).toJsonString, disk, told⟩ := by
  have locked : lock true file = some state := by
    rw [lock, read]
    rfl
  have ran : Renew.run ⟨file, disk⟩ asked paths now (alone sampleLuck) =
      (.ok .settings, ⟨(apply state asked paths .unchanged).toJsonString, disk⟩, []) := by
    rw [Renew.run]
    simp only [sampleLuck, locked, hplan, order, keep, settle, Renew.commit,
      conclude, Option.getD_none, ne_eq, not_true_eq_false, if_false, if_true, reduceCtorEq]
    rfl
  rw [step, act.eq_def]
  simp only [ran]
  rfl

/-- Where the CA has another contact than the state, the next renewal leaves it so. -/
theorem stale_stays (classify : Classify) (paths : ServerPaths) {world : World} {steps : List Step}
    {file text contact : String} {disk : Disk} {told : Told} {state : ServerState} {acme : Acme}
    {credentials : Credentials} (reached : run classify paths world steps = ⟨some file, disk, told⟩)
    (read : ServerState.parse file = .ok state) (ours : state.tls.renewable = some acme)
    (hfile : disk.account = some text)
    (belongs : belongsTo text acme.directory acme.accountUrl = .ok ())
    (hread : Format.read text = .ok credentials) (hcontact : acme.contact = some contact)
    (stale : told acme.directory credentials.id ≠ some (contactUri contact)) (now : Int64) :
    (act classify paths (run classify paths world steps) (.daemon now sampleLuck)).1 = true ∧
      let later := run classify paths world (steps ++ [.daemon now sampleLuck])
      ¬later.told.reaches later.file := by
  have silent := @daemon_silent _ _ classify paths file text contact disk told
    state acme credentials
    read ours hfile belongs hread hcontact now
  simp only at silent
  simp only [Runs.run_append, reached, Runs.run_cons, Runs.run_nil, step]
  exact ⟨silent.1, fun h => stale (silent.2 h)⟩

/-- A machine with nothing on it. -/
def bare : World := ⟨none, ⟨none, none, none⟩, fun _ _ => none⟩

omit [Unicode] [Format] in
theorem sampleInit_network : (⟨10, 100, 0, 0⟩ : Ipv4Addr).d = 0 := rfl

/-- `server init --acme-email old@example.com`. -/
def sampleInit : Step :=
  .init ⟨"net.example.com", ⟨⟨10, 100, 0, 0⟩, sampleInit_network⟩, 51820, 443⟩
    ⟨none, none, some "old@example.com", false, none, false⟩ Init.sampleCode 0
    ⟨.ok (), .ok (), .ok none, .ok (⟨"a="⟩, "b="), sampleAnswers, .ok (some 7776000), .ok ()⟩

/-- `server renew --acme-email new@example.com`. -/
def sampleMove : Step :=
  .command { ServerRenew.plain with acmeEmail := some "new@example.com" } 1 sampleLuck

/-- `server init --tls-cert /c.pem --tls-key /k.pem`. -/
def sampleOwn : Step :=
  .init ⟨"net.example.com", ⟨⟨10, 100, 0, 0⟩, sampleInit_network⟩, 51820, 443⟩
    ⟨some "/c.pem", some "/k.pem", none, false, none, false⟩ Init.sampleCode 0
    ⟨.ok (), .ok (), .ok none, .ok (⟨"a="⟩, "b="), sampleAnswers, .ok none, .ok ()⟩

/-- A run that orders tells the CA what its order does, and is recorded. -/
theorem command_reissues (classify : Classify) (paths : ServerPaths) {file : String}
    {disk after : Disk} (told : Told) {state : ServerState} {asked : ServerRenew}
    {now : Int64} {why : Why} {issued : Renewed} {calls : List Call}
    (read : ServerState.parse file = .ok state) (hplan : plan state asked now = .ok (.reissue why))
    (keep : disposition state.tls asked = .unchanged)
    (order : AcmeClient.renew (apply state asked paths .unchanged) paths disk sampleAnswers =
      ⟨.ok issued, after, calls⟩) :
    step classify paths ⟨some file, disk, told⟩ (.command asked now sampleLuck) =
      ⟨some (reissued state asked paths .unchanged issued now (some 7776000)).toJsonString, after,
        told.hears calls⟩ := by
  have locked : lock true file = some state := by
    rw [lock, read]
    rfl
  have ran : Renew.run ⟨file, disk⟩ asked paths now (alone sampleLuck) =
      (.ok (.reissue why),
        ⟨(reissued state asked paths .unchanged issued now (some 7776000)).toJsonString, after⟩,
        calls) := by
    rw [Renew.run]
    simp only [sampleLuck, locked, hplan, Renew.order, keep, settle, order, Renew.commit, conclude,
      Option.getD_none, ne_eq, not_true_eq_false, if_false, if_true, reduceCtorEq]
    rfl
  rw [step, act.eq_def]
  simp only [ran]

omit [Unicode] [Format] in
/-- A hub with a certificate of its own goes over to the CA with a contact, and its daemon renews.
-/
theorem contact_reaches_ca_sample :
    letI := asciiTables
    letI := jsonFormat
    let takeover : Step :=
      .command { ServerRenew.plain with acmeEmail := some "new@example.com" } 1 sampleLuck
    let before := run (fun _ => .busy) samplePaths bare [sampleOwn, takeover]
    (∃ file state, before.file = some file ∧ ServerState.parse file = .ok state ∧
        state.tls.renewable.bind Acme.contact = some "new@example.com") ∧
      (act (fun _ => .busy) samplePaths before (.daemon 2 sampleLuck)).1 = true ∧
      let later := run (fun _ => .busy) samplePaths bare
        ([sampleOwn, takeover] ++ [.daemon 2 sampleLuck])
      later.told.reaches later.file := by
  have planned : letI := asciiTables
      plan Init.sampleHub { ServerRenew.plain with acmeEmail := some "new@example.com" } 1 =
        .ok (.reissue (.different "--acme-email")) := by
    decide +kernel
  let := asciiTables
  let := jsonFormat
  intro takeover before
  let asked : ServerRenew := { ServerRenew.plain with acmeEmail := some "new@example.com" }
  let renewed : Renewed := ⟨samplePaths.certificate, samplePaths.privateKey, none,
    "new", some 7776000, []⟩
  let stored : Credentials := ⟨"new", "...", some production⟩
  let disk : Disk := ⟨some (Format.write stored), some "certificate", some "key"⟩
  let state := reissued Init.sampleHub asked samplePaths .unchanged renewed 1 (some 7776000)
  let told := bare.told.hears [.registered production "new" (contactUri "new@example.com")]
  have started : step (fun _ => .busy) samplePaths bare sampleOwn =
      ⟨some (@ServerState.toJsonString _ Init.sampleHub), bare.disk, bare.told⟩ := rfl
  have read : ServerState.parse (@ServerState.toJsonString _ Init.sampleHub) = .ok Init.sampleHub :=
    ServerState.parse_toJsonString rfl
  have read' : ServerState.parse state.toJsonString = .ok state :=
    ServerState.parse_toJsonString rfl
  have order : AcmeClient.renew (apply Init.sampleHub asked samplePaths .unchanged)
      samplePaths bare.disk
      sampleAnswers =
        ⟨.ok renewed, disk, [.registered production "new" (contactUri "new@example.com")]⟩ := rfl
  have moved := command_reissues (fun _ => .busy) samplePaths bare.told read planned rfl order
  have reached : before = ⟨some state.toJsonString, disk, told⟩ := by
    show run (fun _ => .busy) samplePaths bare [sampleOwn, takeover] = _
    rw [run, Runs.run_cons, Runs.run_cons, Runs.run_nil, started]
    exact moved
  have ours : state.tls.renewable = some { sampleAcme "new" with
      contact := some "new@example.com"
      issuedAt := 1
      renewAfter := Schedule.renewAfter 1 (some 7776000) } := rfl
  have belongs : belongsTo (Format.write stored) production "new" = .ok () :=
    (belongsTo_of_read (Format.read_write stored) _ _).mpr ⟨rfl, Or.inr rfl⟩
  have renews := (@daemon_silent _ _ (fun _ => .busy) samplePaths state.toJsonString
    (Format.write stored) "new@example.com" disk told state _ stored read' ours rfl belongs
    (Format.read_write stored) rfl 2).1
  have straight : ∀ sooner s after, [sampleOwn, takeover] ++ [.daemon 2 sampleLuck] =
      sooner ++ s :: after →
      ¬Overlooks (run (fun _ => .busy) samplePaths bare sooner) s := by
    intro sooner s after h
    rcases sooner with _ | ⟨first, _ | ⟨second, _ | ⟨third, rest⟩⟩⟩
    · cases h
      rintro ⟨_, _, _, _, _, _, _, _, _, _, _, _, _, absent, _⟩
      cases absent
    · cases h
      rw [run, Runs.run_cons, Runs.run_nil, started]
      rintro ⟨file, found, _, hfile, commits, _, email, _, moves⟩
      cases hfile
      cases read.symm.trans (lock_eq_some commits.read)
      obtain ⟨_, _, absent, _⟩ := moves
      cases absent
    · cases h
      exact id
    · simp at h
  rw [← reached] at renews
  have written : before.file = some state.toJsonString := by rw [reached]
  have known : state.tls.renewable.bind Acme.contact = some "new@example.com" := by
    rw [ours]
    rfl
  have reaches := contact_reaches_ca (fun _ => .busy) samplePaths bare rfl _ straight
    [sampleOwn, takeover] (.daemon 2 sampleLuck) [] rfl renews
  exact ⟨⟨_, state, written, read', known⟩, renews, reaches⟩

/-- The hub after `sampleInit`, with its contact. -/
def sampleMovedAcme (contact : String) : Acme :=
  { sampleAcme "new" with
    contact := some contact
    renewAfter := Schedule.renewAfter 0 (some 7776000) }

def sampleMoved (contact : String) : @ServerState asciiTables :=
  letI := asciiTables
  { Init.sampleHub with
    tls := ⟨samplePaths.certificate, samplePaths.privateKey, some 7776000,
      .acme (sampleMovedAcme contact)⟩ }

omit [Unicode] [Format] in
/-- A new contact is recorded by a run that orders nothing, and the next renewal signs in
with the account that is there and does not tell the CA. -/
theorem contact_goes_stale :
    letI := asciiTables
    letI := jsonFormat
    ¬∀ (paths : ServerPaths) (world : World) (steps : List Step), world.file = none →
      ∀ before s after, steps = before ++ s :: after →
        (act (fun _ => .busy) paths (run (fun _ => .busy) paths world before) s).1 = true →
          let later := run (fun _ => .busy) paths world (before ++ [s])
          later.told.reaches later.file := by
  let := asciiTables
  let := jsonFormat
  intro claim
  let stored : Credentials := ⟨"new", "...", some production⟩
  let disk : Disk := ⟨some (Format.write stored), some "certificate", some "key"⟩
  let told : Told := bare.told.hears [.registered production "new" (contactUri "old@example.com")]
  have first : step (fun _ => .busy) samplePaths bare sampleInit =
      ⟨some (sampleMoved "old@example.com").toJsonString, disk, told⟩ := rfl
  have read : ∀ contact, ServerState.parse (sampleMoved contact).toJsonString =
      .ok (sampleMoved contact) := fun contact => ServerState.parse_toJsonString rfl
  let asked : ServerRenew := { ServerRenew.plain with acmeEmail := some "new@example.com" }
  have planned : plan (sampleMoved "old@example.com") asked 1 = .ok .settings := by decide +kernel
  have edited : apply (sampleMoved "old@example.com") asked samplePaths .unchanged =
      sampleMoved "new@example.com" := rfl
  have second := @command_settles _ _ (fun _ => .busy) samplePaths _ disk told _ asked 1
    (read "old@example.com") planned rfl
  rw [edited] at second
  have moved : run (fun _ => .busy) samplePaths bare [sampleInit, sampleMove] =
      ⟨some (sampleMoved "new@example.com").toJsonString, disk, told⟩ := by
    rw [run, Runs.run_cons, Runs.run_cons, Runs.run_nil, first]
    exact second
  let acme := sampleMovedAcme "new@example.com"
  have belongs : belongsTo (Format.write stored) acme.directory acme.accountUrl = .ok () :=
    (belongsTo_of_read (Format.read_write stored) _ _).mpr ⟨rfl, Or.inr rfl⟩
  have ours : (sampleMoved "new@example.com").tls.renewable = some acme := rfl
  have hfile : disk.account = some (Format.write stored) := rfl
  have hcontact : acme.contact = some "new@example.com" := rfl
  have stale : told acme.directory stored.id ≠ some (contactUri "new@example.com") := by decide
  have silent := stale_stays (fun _ => .busy) samplePaths moved (read _) ours hfile belongs
    (Format.read_write stored) hcontact stale 2
  exact silent.2 (claim samplePaths bare _ rfl [sampleInit, sampleMove]
    (.daemon 2 sampleLuck) [] rfl
    silent.1)

end Contacts
