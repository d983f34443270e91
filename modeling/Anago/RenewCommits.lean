import Anago.RenewProcesses

/-!
# Renewals and registrations never overwrite each other

A commit is its edit applied to the state found under the lock of the state file, however
old the snapshot is that the edit was worked out from. The history says which snapshot
that was, and the commits refuse when the TLS settings have moved since.
-/

open StdText AcmeClient Handlers RenewalLoop Interleaving Renew

namespace RenewProcesses

section
variable [Unicode]

def Note.who {ι : Type} : Note ι → ι
  | .read i _ => i
  | .ordered i _ _ => i
  | .committed i _ => i

/-- The snapshots a process took, in order. -/
def reads {ι : Type} [DecidableEq ι] (i : ι) (past : List (Note ι)) : List ServerState :=
  past.filterMap fun
    | .read j snapshot => if j = i then some snapshot else none
    | _ => none

/-- The orders a process tried, with their snapshots and what they brought. -/
def orders {ι : Type} [DecidableEq ι] (i : ι) (past : List (Note ι)) :
    List (ServerState × Option Renewed) :=
  past.filterMap fun
    | .ordered j snapshot renewed => if j = i then some (snapshot, renewed) else none
    | _ => none

/-- The edit was made only because `tls` was as in the snapshot. `--dns` does not ask. -/
def Edit.compares : Edit → Bool
  | .concluded _ _ _ _ => true
  | .recorded _ _ => true
  | _ => false

/-- Where a process starts: it has read nothing and holds nothing. -/
def Phase.Fresh (phase : Phase) : Prop :=
  (∃ writing, phase = .writing writing) ∨ (∃ asked, phase = .typed asked) ∨
    ∃ loop, phase = .watching loop

/-- The snapshot a phase works from. -/
def Phase.snapshot : Phase → Option ServerState
  | .planned _ _ state _ => some state
  | .asking _ _ state _ => some state
  | .answered _ _ state _ _ _ => some state
  | .renewing _ _ _ state => some state
  | .renewed _ _ _ state _ => some state
  | _ => none

/-- The certificate a phase is about to record. -/
def Phase.issued : Phase → Option Renewed
  | .answered _ _ _ _ ordered _ => ordered.issued
  | .renewed _ _ _ _ cert => some cert
  | _ => none

theorem Phase.Fresh.snapshot {phase : Phase} (h : phase.Fresh) : phase.snapshot = none := by
  rcases h with ⟨writing, rfl⟩ | ⟨asked, rfl⟩ | ⟨loop, rfl⟩ <;> rfl

theorem Phase.Rests.snapshot {phase : Phase} (h : phase.Rests) : phase.snapshot = none := by
  rcases h with rfl | ⟨loop, rfl⟩ <;> rfl

theorem Writing.edit_sameHub {hashToken : DeviceToken → TokenHash} {state left : ServerState}
    {now : Int64} {writing : Writing} (h : writing.edit hashToken state now = some left) :
    Registry.SameHub state left := by
  cases writing with
  | request request =>
    rw [Writing.edit] at h
    have same := answer_sameHub hashToken state now request
    split at h
    · next heq =>
      cases h
      rwa [heq] at same
    · cases h
  | code draw =>
    rw [Writing.edit] at h
    split at h
    · cases h
      rfl
    · cases h
  | remove name =>
    rw [Writing.edit] at h
    have same := (Registry.step_effect state (.drop name)).sameHub
    rw [Registry.step] at same
    split at h
    · next heq =>
      cases h
      rwa [heq] at same
    · cases h

end

section
variable [Unicode] {hashToken : DeviceToken → TokenHash} {paths : ServerPaths}
  {prior next : ServerState}

theorem conclude_untouched {found state : ServerState} {witness : Tls} {asked : ServerRenew}
    {now : Int64} {ordered : Ordered} {loaded : Except String (Option Int64)}
    (h : conclude found witness asked paths now ordered loaded = .ok state) :
    Untouched found state := by
  have applied := apply_untouched found asked paths ordered.keeping
  obtain ⟨_, ⟨_, rfl⟩ | ⟨issued, notAfter, _, _, rfl⟩⟩ := conclude_cases h
  · exact applied
  · exact applied.trans ⟨rfl, rfl, rfl, rfl, rfl, rfl, rfl⟩

/-- No edit of a renewal touches what the tunnel is made of. -/
theorem Edit.apply_untouched {edit : Edit} (renewal : edit.renewal = true)
    (h : edit.apply hashToken paths prior = some next) : Untouched prior next := by
  cases edit with
  | wrote writing now => cases renewal
  | pushed push =>
    cases h
    exact remember_untouched prior push
  | concluded asked now ordered loaded =>
    rw [Edit.apply] at h
    cases hconclude : conclude prior prior.tls asked paths now ordered loaded with
    | error e =>
      rw [hconclude] at h
      cases h
    | ok state =>
      rw [hconclude] at h
      cases h
      exact conclude_untouched hconclude
  | recorded cert now =>
    cases h
    exact record_untouched prior cert now

theorem untouched_serverConfig (h : Untouched prior next) :
    WgConf.serverConfig next = WgConf.serverConfig prior := by
  rw [WgConf.serverConfig, WgConf.serverConfig, h.server, h.listenPort, h.peers]

/-- What an edit leaves is read back as it is. -/
theorem Edit.parse_applied {edit : Edit} {file : String} (read : ServerState.parse file = .ok prior)
    (h : edit.apply hashToken paths prior = some next) :
    ServerState.parse next.toJsonString = .ok next := by
  cases hrenewal : edit.renewal with
  | true => exact (Edit.apply_untouched hrenewal h).parse_back read
  | false =>
    cases edit with
    | wrote writing now =>
      have same := Writing.edit_sameHub h
      refine ServerState.parse_toJsonString ?_
      rw [same.server, same.subnet]
      exact ServerState.home_of_parse read
    | _ => cases hrenewal

end

section
variable {ι : Type} [Unicode] {hashToken : DeviceToken → TokenHash} {paths : ServerPaths} {i : ι}
  {phase : Phase} {machine : Machine ι} {noted : Option (Note ι)} {out : Machine ι × Phase}

/-- A note is of the process whose step it is. -/
theorem Took.who (took : Took hashToken paths i phase machine noted out) {n : Note ι}
    (h : noted = some n) : n.who = i := by
  cases took with
  | released _ _ hnoted =>
    rcases hnoted with rfl | ⟨snapshot, _, rfl⟩
    · cases h
    · cases h
      rfl
  | _ =>
    cases h
    try rfl

/-- A step that commits nothing leaves the state file as it is. -/
theorem Took.file (took : Took hashToken paths i phase machine noted out)
    (h : ∀ edit, noted ≠ some (.committed i edit)) : out.1.hub.file = machine.hub.file := by
  cases took with
  | wrote _ _ _ => exact absurd rfl (h _)
  | pushed _ _ => exact absurd rfl (h _)
  | concluded _ _ _ => exact absurd rfl (h _)
  | recorded _ _ _ _ => exact absurd rfl (h _)
  | _ => rfl

/-- A commit applies its edit to the state in the file. An edit that compares was worked
out from a snapshot with the same `tls`. -/
theorem Took.committed (took : Took hashToken paths i phase machine noted out) {edit : Edit}
    (h : noted = some (.committed i edit)) :
    ∃ prior next, ServerState.parse machine.hub.file = .ok prior ∧
      edit.apply hashToken paths prior = some next ∧ out.1.hub.file = next.toJsonString ∧
      (edit.compares = true → ∃ snapshot, phase.snapshot = some snapshot ∧
        prior.tls = snapshot.tls ∧ phase.issued = edit.issued) := by
  cases took with
  | wrote _ hparse hedit =>
    cases h
    exact ⟨_, _, hparse, hedit, rfl, fun h => by cases h⟩
  | @released _ _ _ _ _ hnoted =>
    rcases hnoted with rfl | ⟨snapshot, _, rfl⟩ <;> cases h
  | pushed _ hparse =>
    cases h
    exact ⟨_, _, hparse, rfl, rfl, fun h => by cases h⟩
  | concluded hphase hparse hleft =>
    cases h
    subst hphase
    have same := (conclude_cases hleft).1
    rw [← same] at hleft
    exact ⟨_, _, hparse, by rw [Edit.apply, hleft]; rfl, rfl, fun _ => ⟨_, rfl, same, rfl⟩⟩
  | recorded hphase hparse same _ =>
    cases h
    subst hphase
    exact ⟨_, _, hparse, rfl, rfl, fun _ => ⟨_, rfl, same, rfl⟩⟩
  | _ => cases h

end

variable {ι : Type} [DecidableEq ι] [Unicode] {hashToken : DeviceToken → TokenHash}
  {paths : ServerPaths}

omit [DecidableEq ι] in
@[simp] theorem edits_append (past past' : List (Note ι)) :
    edits (past ++ past') = edits past ++ edits past' := List.filterMap_append

@[simp] theorem reads_append (i : ι) (past past' : List (Note ι)) :
    reads i (past ++ past') = reads i past ++ reads i past' := List.filterMap_append

@[simp] theorem orders_append (i : ι) (past past' : List (Note ι)) :
    orders i (past ++ past') = orders i past ++ orders i past' := List.filterMap_append

/-- What a process brings to its commit is what it read and ordered last. -/
structure Backed (past : List (Note ι)) (i : ι) (phase : Phase) : Prop where
  snapshot : ∀ state, phase.snapshot = some state → (reads i past).getLast? = some state
  issued : ∀ state cert, phase.snapshot = some state → phase.issued = some cert →
    (orders i past).getLast? = some (state, some cert)

theorem Backed.of_none {past : List (Note ι)} {i : ι} {phase : Phase}
    (h : phase.snapshot = none) : Backed past i phase where
  snapshot := by simp [h]
  issued := by simp [h]

theorem reads_other {i j : ι} {n : Note ι} (h : n.who = i) (other : j ≠ i)
    (past : List (Note ι)) : reads j (past ++ [n]) = reads j past := by
  subst h
  rw [reads_append]
  cases n with
  | read who snapshot => simp [reads, show who ≠ j from other.symm]
  | _ => simp [reads]

theorem orders_other {i j : ι} {n : Note ι} (h : n.who = i) (other : j ≠ i)
    (past : List (Note ι)) : orders j (past ++ [n]) = orders j past := by
  subst h
  rw [orders_append]
  cases n with
  | ordered who snapshot renewed => simp [orders, show who ≠ j from other.symm]
  | _ => simp [orders]

theorem Backed.other {past : List (Note ι)} {i j : ι} {phase : Phase} (h : Backed past j phase)
    {noted : Option (Note ι)} (who : ∀ n, noted = some n → n.who = i) (other : j ≠ i) :
    Backed (past ++ noted.toList) j phase := by
  cases noted with
  | none => simpa using h
  | some n =>
    rw [Option.toList_some]
    constructor
    · rw [reads_other (who n rfl) other]
      exact h.snapshot
    · rw [orders_other (who n rfl) other]
      exact h.issued

/-- A process that has just taken this snapshot. -/
theorem Backed.read (past : List (Note ι)) (i : ι) {phase : Phase} {state : ServerState}
    (hsnapshot : phase.snapshot = some state) (hissued : phase.issued = none) :
    Backed (past ++ [.read i state]) i phase where
  snapshot := by
    intro state' h
    rw [← h, hsnapshot]
    simp [reads]
  issued := by simp [hissued]

/-- A process that has just ordered for the snapshot it took. -/
theorem Backed.ordered {past : List (Note ι)} {i : ι} {phase next : Phase} {state : ServerState}
    {cert : Renewed} (h : Backed past i phase) (hsnapshot : phase.snapshot = some state)
    (hnext : next.snapshot = some state) (hissued : next.issued = some cert) :
    Backed (past ++ [.ordered i state (some cert)]) i next where
  snapshot := by
    intro state' h'
    rw [← h', hnext]
    simpa [reads] using h.snapshot state hsnapshot
  issued := by
    intro state' cert' h' h''
    cases hnext.symm.trans h'
    cases hissued.symm.trans h''
    simp [orders]

theorem Backed.act {past : List (Note ι)} {i : ι} {phase : Phase} (h : Backed past i phase)
    {machine : Machine ι} {noted : Option (Note ι)} {out : Machine ι × Phase}
    (took : Took hashToken paths i phase machine noted out) :
    Backed (past ++ noted.toList) i out.2 := by
  cases took with
  | rests _ rests => exact .of_none rests.snapshot
  | wrote _ _ _ => exact .of_none rfl
  | planned _ _ _ => exact .read past i rfl rfl
  | looked _ _ _ => exact .of_none rfl
  | acquired enters _ =>
    rw [Option.toList_none, List.append_nil]
    rcases enters with ⟨_, _, _, _, rfl, rfl⟩ | ⟨_, _, rfl, rfl⟩
    · exact ⟨h.snapshot, h.issued⟩
    · exact .of_none rfl
  | read _ _ => exact .read past i rfl rfl
  | released _ rests _ => exact .of_none rests.snapshot
  | pushing _ => exact .of_none rfl
  | settled hphase hissued _ _ =>
    subst hphase
    rw [Option.toList_none, List.append_nil]
    exact ⟨h.snapshot, by simp [Phase.issued, hissued]⟩
  | ordered hphase hissued =>
    subst hphase
    exact h.ordered rfl rfl hissued
  | renewed hphase =>
    subst hphase
    exact h.ordered rfl rfl rfl
  | pushed _ _ => exact .of_none rfl
  | concluded _ _ _ => exact .of_none rfl
  | recorded _ _ _ rests => exact .of_none rests.snapshot

omit [DecidableEq ι] in
theorem replay_concat {start state next : ServerState} {past : List (Note ι)} {i : ι} {edit : Edit}
    (h : replay hashToken paths start (edits past) = some state)
    (hedit : edit.apply hashToken paths state = some next) :
    replay hashToken paths start (edits (past ++ [.committed i edit])) = some next := by
  rw [edits_append, replay, List.foldlM_append]
  rw [replay] at h
  rw [h]
  simpa [edits] using hedit

/-- The state file holds the edits committed so far, one after the other. -/
def Serial (hashToken : DeviceToken → TokenHash) (paths : ServerPaths) (start : ServerState)
    (past : List (Note ι)) (machine : Machine ι) : Prop :=
  ∃ state, ServerState.parse machine.hub.file = .ok state ∧
    replay hashToken paths start (edits past) = some state

omit [DecidableEq ι] in
theorem Serial.act {start : ServerState} {past : List (Note ι)} {i : ι} {phase : Phase}
    {machine : Machine ι} (h : Serial hashToken paths start past machine)
    {noted : Option (Note ι)} {out : Machine ι × Phase}
    (took : Took hashToken paths i phase machine noted out) :
    Serial hashToken paths start (past ++ noted.toList) out.1 := by
  obtain ⟨state, hparse, hreplay⟩ := h
  by_cases committed : ∃ edit, noted = some (.committed i edit)
  · obtain ⟨edit, rfl⟩ := committed
    obtain ⟨prior, next, hprior, hedit, hfile, _⟩ := took.committed rfl
    cases hparse.symm.trans hprior
    refine ⟨next, ?_, replay_concat hreplay hedit⟩
    rw [hfile]
    exact Edit.parse_applied hparse hedit
  · have quiet : ∀ edit, noted ≠ some (.committed i edit) := by simpa using committed
    refine ⟨state, ?_, ?_⟩
    · rw [took.file quiet]
      exact hparse
    · rw [edits_append]
      suffices edits noted.toList = [] by simpa [this] using hreplay
      cases noted with
      | none => rfl
      | some n =>
        cases n with
        | committed who edit =>
          cases took.who rfl
          exact absurd rfl (quiet edit)
        | _ => rfl

variable [Format] (classify : Classify) (hashToken paths)

/-- What holds along every run: the file is serial, and each process is backed. -/
theorem run_backed {machine : Machine ι} {start : ServerState}
    (read : ServerState.parse machine.hub.file = .ok start) {phases : ι → Phase}
    (fresh : ∀ i, (phases i).Fresh) (events : List (ι × Turn)) :
    let world : World (Machine ι) ι Phase := ⟨machine, phases⟩
    let past := log (act classify hashToken paths) (note classify hashToken paths) world events
    let final := Interleaving.run (act classify hashToken paths) world events
    Serial hashToken paths start past final.shared ∧ ∀ i, Backed past i (final.locals i) := by
  have took := fun (machine : Machine ι) i phase turn =>
    act_took classify hashToken paths i phase turn machine
  have first : Serial hashToken paths start [] machine := ⟨start, read, rfl⟩
  have backed : ∀ i, Backed [] i (phases i) := fun i => .of_none (fresh i).snapshot
  refine @run_keeps _ _ _ _ _ _ (act classify hashToken paths) (note classify hashToken paths)
    (Serial hashToken paths start) (fun past _ i phase => Backed past i phase) ?_ ?_
    ⟨machine, phases⟩ first backed events
  · intro past machine i phase turn hserial h
    have advanced : Serial hashToken paths start past (machine.advance turn) := hserial
    exact ⟨advanced.act (took machine i phase turn), h.act (took machine i phase turn)⟩
  · intro past machine i phase turn j other hne _ _ h
    exact h.other (fun n => (took machine i phase turn).who) hne

/-- However renewals, typed or timed, and the writers of the registry interleave: the file
holds the committed edits one after the other, a commit of a renewal leaves everything
but the TLS and Cloudflare settings as it was just before, and what a renewal records
lands on the very `tls` it was computed from. -/
theorem commits_compose (machine : Machine ι) (start : ServerState)
    (read : ServerState.parse machine.hub.file = .ok start) (phases : ι → Phase)
    (fresh : ∀ i, (phases i).Fresh) (events : List (ι × Turn)) :
    let world : World (Machine ι) ι Phase := ⟨machine, phases⟩
    let past := log (act classify hashToken paths) (note classify hashToken paths) world
    let after := Interleaving.run (act classify hashToken paths) world
    (∃ state, ServerState.parse (after events).shared.hub.file = .ok state ∧
      replay hashToken paths start (edits (past events)) = some state) ∧
    ∀ sooner i turn later edit, events = sooner ++ (i, turn) :: later →
      noted (note classify hashToken paths) (after sooner) (i, turn) = some (.committed i edit) →
      ∃ prior next, ServerState.parse (after sooner).shared.hub.file = .ok prior ∧
        ServerState.parse (after (sooner ++ [(i, turn)])).shared.hub.file = .ok next ∧
        edit.apply hashToken paths prior = some next ∧
        (edit.renewal = true → Untouched prior next ∧
          WgConf.serverConfig next = WgConf.serverConfig prior) ∧
        (edit.compares = true → ∃ snapshot, (reads i (past sooner)).getLast? = some snapshot ∧
          prior.tls = snapshot.tls ∧ ∀ cert, edit.issued = some cert →
            (orders i (past sooner)).getLast? = some (snapshot, some cert)) := by
  intro world past after
  refine ⟨(run_backed hashToken paths classify read fresh events).1, ?_⟩
  intro sooner i turn later edit _ hnoted
  have hbacked := (run_backed hashToken paths classify read fresh sooner).2
  have took := act_took classify hashToken paths i ((after sooner).locals i) turn
    (after sooner).shared
  obtain ⟨prior, next, hprior, hedit, hfile, hcompares⟩ := took.committed hnoted
  refine ⟨prior, next, hprior, ?_, hedit, fun renewal => ?_, fun compares => ?_⟩
  · have hlast : (after (sooner ++ [(i, turn)])).shared =
        (act classify hashToken paths i ((after sooner).locals i) turn
          (after sooner).shared).1 := by
      simp only [after, Interleaving.run, Runs.run_append, Runs.run_cons, Runs.run_nil, step_shared]
    rw [hlast, hfile]
    exact Edit.parse_applied hprior hedit
  · have untouched := Edit.apply_untouched renewal hedit
    exact ⟨untouched, untouched_serverConfig untouched⟩
  · obtain ⟨snapshot, hsnapshot, htls, hissued⟩ := hcompares compares
    refine ⟨snapshot, (hbacked i).snapshot snapshot hsnapshot, htls, fun cert hcert => ?_⟩
    exact (hbacked i).issued snapshot cert hsnapshot (hissued.trans hcert)

/-- A turn at the start of the clock, with nothing in the way. -/
def sampleTurn : Turn := ⟨0, sampleLuck⟩

section
variable {hub : Renew.Hub} {state : ServerState} {issuing : Option Bool}

omit [Format] in
theorem lock_read {file : String} (read : ServerState.parse file = .ok state) :
    lock true file = some state := by
  rw [lock, read]
  rfl

omit [Unicode] [Format] in
theorem advance_sample : (⟨hub, 0, issuing⟩ : Machine Bool).advance sampleTurn =
    ⟨hub, 0, issuing⟩ := rfl

theorem command_plans {asked : ServerRenew} {why : Why}
    (read : ServerState.parse hub.file = .ok state)
    (hplan : Renew.plan state asked 0 = .ok (.reissue why)) :
    let phase : Phase := .typed asked
    let machine : Machine Bool := ⟨hub, 0, issuing⟩
    act classify hashToken paths false phase sampleTurn machine =
        (machine, .planned asked 0 state (.reissue why)) ∧
      note classify hashToken paths false phase sampleTurn machine = some (.read false state) := by
  intro phase machine
  rw [act.eq_def, note.eq_def]
  simp only [phase, machine, advance_sample]
  simp only [sampleTurn, sampleLuck, lock_read read, hplan, and_self]

theorem command_locks {asked : ServerRenew} {plan : Plan} :
    let phase : Phase := .planned asked 0 state plan
    let machine : Machine Bool := ⟨hub, 0, none⟩
    act classify hashToken paths false phase sampleTurn machine =
        (⟨hub, 0, some false⟩, .asking asked 0 state plan) ∧
      note classify hashToken paths false phase sampleTurn machine = none := ⟨rfl, rfl⟩

theorem command_orders {asked : ServerRenew} {why : Why} {renewed : Renewed} {after : Disk}
    {calls : List Call} (keep : disposition state.tls asked = .unchanged)
    (order : AcmeClient.renew (Renew.apply state asked paths .unchanged) paths
      hub.disk sampleAnswers =
      ⟨.ok renewed, after, calls⟩) :
    let phase : Phase := .asking asked 0 state (.reissue why)
    let machine : Machine Bool := ⟨hub, 0, issuing⟩
    act classify hashToken paths false phase sampleTurn machine =
        (⟨{ hub with disk := after }, 0, issuing⟩,
          .answered asked 0 state (.reissue why) ⟨.unchanged, some renewed⟩ hub.disk) ∧
      note classify hashToken paths false phase sampleTurn machine =
        some (.ordered false state (some renewed)) := by
  intro phase machine
  rw [act.eq_def, note.eq_def]
  simp only [phase, machine, advance_sample]
  simp only [sampleTurn, sampleLuck, Renew.order, keep, settle, order,
    reduceCtorEq, if_false, and_self]

theorem command_commits {asked : ServerRenew} {why : Why} {renewed : Renewed} {before : Disk}
    {found : ServerState} (read : ServerState.parse hub.file = .ok found)
    (same : found.tls = state.tls) :
    let ordered : Ordered := ⟨.unchanged, some renewed⟩
    let phase : Phase := .answered asked 0 state (.reissue why) ordered before
    let machine : Machine Bool := ⟨hub, 0, issuing⟩
    let left := reissued found asked paths .unchanged renewed 0 (some 7776000)
    act classify hashToken paths false phase sampleTurn machine =
        (⟨{ hub with file := left.toJsonString }, 0, none⟩, .ended) ∧
      note classify hashToken paths false phase sampleTurn machine =
        some (.committed false (.concluded asked 0 ordered (.ok (some 7776000)))) := by
  intro ordered phase machine left
  have committed : Renew.commit hub before state.tls asked paths 0 ordered sampleLuck =
      (.ok (), { hub with file := left.toJsonString }) := by
    rw [Renew.commit]
    simp only [sampleLuck, lock_read read, conclude, ordered, same, ne_eq,
      not_true_eq_false, if_false, if_true]
    rfl
  rw [act.eq_def, note.eq_def]
  simp only [phase, machine, advance_sample]
  rw [show sampleTurn.luck = sampleLuck from rfl, committed]
  exact ⟨rfl, rfl⟩

theorem writer_writes {writing : Writing} {left : ServerState}
    (read : ServerState.parse hub.file = .ok state)
    (edit : writing.edit hashToken state 0 = some left) :
    let phase : Phase := .writing writing
    let machine : Machine Bool := ⟨hub, 0, issuing⟩
    act classify hashToken paths true phase sampleTurn machine =
        (⟨{ hub with file := left.toJsonString }, 0, issuing⟩, .ended) ∧
      note classify hashToken paths true phase sampleTurn machine =
        some (.committed true (.wrote writing 0)) := by
  intro phase machine
  rw [act.eq_def, note.eq_def]
  simp only [phase, machine, advance_sample]
  simp only [sampleTurn, sampleLuck, lock_read read, edit, if_true,
    Option.isSome_some, Bool.and_self, and_self]

end

section
variable {machine machine' : Machine Bool} {first second next : Phase}

theorem step_first
    (h : act classify hashToken paths true first sampleTurn machine = (machine', next)) :
    Interleaving.step (act classify hashToken paths) ⟨machine, both first second⟩
      (true, sampleTurn) =
      ⟨machine', both next second⟩ := by
  rw [step_both_true, h]

theorem step_second
    (h : act classify hashToken paths false second sampleTurn machine = (machine', next)) :
    Interleaving.step (act classify hashToken paths) ⟨machine, both first second⟩
      (false, sampleTurn) =
      ⟨machine', both first next⟩ := by
  rw [step_both_false, h]

theorem noted_first (second : Phase) {n : Option (Note Bool)}
    (h : note classify hashToken paths true first sampleTurn machine = n) :
    noted (note classify hashToken paths) ⟨machine, both first second⟩ (true, sampleTurn) = n := h

theorem noted_second (first : Phase) {n : Option (Note Bool)}
    (h : note classify hashToken paths false second sampleTurn machine = n) :
    noted (note classify hashToken paths) ⟨machine, both first second⟩ (false, sampleTurn) = n := h

end

omit [Unicode] [Format] [DecidableEq ι] in
/-- A device joins while a command asks the CA, and both are in the file. -/
theorem commits_compose_sample :
    letI := asciiTables
    letI := jsonFormat
    let key := String.ofList (List.replicate 43 'A' ++ ['='])
    let join : Writing := .request (.join ⟨Init.sampleCode.asStr, "studio", key⟩ (.sample '3' rfl))
    let machine : Machine Bool := ⟨⟨(sampleState "").toJsonString, ⟨none, none, none⟩⟩, 0, none⟩
    let hashToken : DeviceToken → TokenHash := fun _ => .sample 'b' rfl
    let world : World (Machine Bool) Bool Phase := ⟨machine, both (.writing join) (.typed .plain)⟩
    let events := [(false, sampleTurn), (false, sampleTurn), (true, sampleTurn),
      (false, sampleTurn)]
    let last := (false, sampleTurn)
    let past := log (act (fun _ => .busy) hashToken samplePaths)
      (note (fun _ => .busy) hashToken samplePaths) world (events ++ [last])
    let after := Interleaving.run (act (fun _ => .busy) hashToken samplePaths) world
    (edits past).map Edit.renewal = [false, true] ∧
      (∃ state, ServerState.parse (after (events ++ [last])).shared.hub.file = .ok state ∧
        replay hashToken samplePaths (sampleState "") (edits past) = some state ∧
        state.peers.map (fun peer => peer.name.asStr) = ["studio"] ∧
        state.tls.notAfter = some 7776000) ∧
      ∃ prior next, ServerState.parse (after events).shared.hub.file = .ok prior ∧
        ServerState.parse (after (events ++ [last])).shared.hub.file = .ok next ∧
        prior ≠ sampleState "" ∧ Untouched prior next := by
  have due : letI := asciiTables; Renew.plan (sampleState "") .plain 0 = .ok (.reissue .due) := by
    decide +kernel
  have names : letI := asciiTables
      (Writing.edit (fun _ => .sample 'b' rfl) (sampleState "") 0
        (.request (.join ⟨Init.sampleCode.asStr, "studio",
          String.ofList (List.replicate 43 'A' ++ ['='])⟩
          (.sample '3' rfl)))).map (fun state => state.peers.map fun peer => peer.name.asStr) =
        some ["studio"] := by
    decide +kernel
  let := asciiTables
  let := jsonFormat
  intro key join machine hashToken world events last past after
  let state := sampleState ""
  let classify : Classify := fun _ => .busy
  let renewed : Renewed := ⟨"/acme/c.pem", "/acme/k.pem", none, "new", some 7776000, []⟩
  let disk : Disk :=
    ⟨some (Format.write ⟨"new", "...", some production⟩), some "certificate", some "key"⟩
  obtain ⟨left, joined, named⟩ := Option.map_eq_some_iff.mp names
  have read : ServerState.parse machine.hub.file = .ok state := ServerState.parse_toJsonString rfl
  have applied : (Edit.wrote join 0).apply hashToken samplePaths state = some left := joined
  have read' : ServerState.parse left.toJsonString = .ok left := Edit.parse_applied read applied
  have order : AcmeClient.renew (Renew.apply state .plain samplePaths .unchanged) samplePaths
      machine.hub.disk sampleAnswers =
        ⟨.ok renewed, disk, [.registered production "new" (contactUri "jo@example.com")]⟩ := rfl
  let concluded : Edit := .concluded .plain 0 ⟨.unchanged, some renewed⟩ (.ok (some 7776000))
  have planned := @command_plans _ hashToken samplePaths _ classify machine.hub state none .plain _
    read due
  have locked := @command_locks _ hashToken samplePaths _ classify machine.hub state .plain
    (.reissue .due)
  have wrote := @writer_writes _ hashToken samplePaths _ classify machine.hub
    state (some false) join left read joined
  have ordered := @command_orders _ hashToken samplePaths _ classify
    ⟨left.toJsonString, machine.hub.disk⟩ state (some false) .plain .due _ _ _ rfl order
  have committed := @command_commits _ hashToken samplePaths _ classify ⟨left.toJsonString, disk⟩
    state (some false) .plain .due renewed machine.hub.disk left read'
      (Writing.edit_sameHub joined).tls
  have s0 := @step_second _ hashToken samplePaths _ classify _ _ (.writing join) _ _ planned.1
  have s1 := @step_second _ hashToken samplePaths _ classify _ _ (.writing join) _ _ locked.1
  have s2 := @step_first _ hashToken samplePaths _ classify _ _ _
    (.asking .plain 0 state (.reissue .due)) _ wrote.1
  have s3 := @step_second _ hashToken samplePaths _ classify _ _ .ended _ _ ordered.1
  have n0 := noted_second hashToken samplePaths classify (.writing join) planned.2
  have n1 := noted_second hashToken samplePaths classify (.writing join) locked.2
  have n2 := noted_first hashToken samplePaths classify
    (.asking .plain 0 state (.reissue .due)) wrote.2
  have n3 := noted_second hashToken samplePaths classify .ended ordered.2
  have n4 := noted_second hashToken samplePaths classify .ended committed.2
  have reached : after events = ⟨⟨⟨left.toJsonString, disk⟩, 0, some false⟩,
      both .ended
        (.answered .plain 0 state (.reissue .due) ⟨.unchanged, some renewed⟩
          machine.hub.disk)⟩ := by
    simp only [after, events, Runs.run_cons, Runs.run_nil]
    rw [s0, s1, s2, s3]
  have commits : edits past = [.wrote join 0, concluded] := by
    simp only [past, events, last, log, List.cons_append, List.nil_append,
      Runs.log_cons, Runs.log_nil]
    rw [s0, s1, s2, s3]
    rw [n0, n1, n2, n3, n4]
    rfl
  have concludes : noted (note classify hashToken samplePaths) (after events) last =
      some (.committed false concluded) := by
    rw [reached]
    exact committed.2
  have fresh : ∀ i, (world.locals i).Fresh := by
    intro i
    cases i with
    | true => exact Or.inl ⟨_, rfl⟩
    | false => exact Or.inr (Or.inl ⟨_, rfl⟩)
  obtain ⟨serial, each⟩ := commits_compose hashToken samplePaths classify machine state read
    world.locals fresh (events ++ [last])
  obtain ⟨prior, next, hprior, hnext, applied, untouched, _⟩ :=
    each events false sampleTurn [] concluded rfl concludes
  have hleft : ServerState.parse (after events).shared.hub.file = .ok left := by
    rw [reached]
    exact read'
  cases hleft.symm.trans hprior
  have final : concluded.apply hashToken samplePaths left =
      some (reissued left .plain samplePaths .unchanged renewed 0 (some 7776000)) := by
    simp only [concluded, Edit.apply, conclude, ne_eq, not_true_eq_false, if_false]
    rfl
  have issued : next.tls.notAfter = some 7776000 := by
    cases final.symm.trans applied
    rfl
  have studio : next.peers.map (fun peer => peer.name.asStr) = ["studio"] := by
    rw [(untouched rfl).1.peers]
    exact named
  have joins : left ≠ sampleState "" := by
    rintro rfl
    cases named
  refine ⟨by rw [commits]; rfl, ?_, left, next, hprior, hnext, joins, (untouched rfl).1⟩
  obtain ⟨found, hfound, replayed⟩ := serial
  cases hnext.symm.trans hfound
  exact ⟨next, hnext, replayed, studio, issued⟩

end RenewProcesses
