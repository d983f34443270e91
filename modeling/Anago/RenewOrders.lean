import Anago.AccountOnDisk
import Anago.RenewCommits

/-!
# One due window, one order

The daemon and the command find a certificate due before they have the issuance lock. An
order is for a due certificate as long as nobody renewed between that look and the lock:
while the lock is held nobody else changes when the next renewal is due.
-/

open StdText AcmeClient Schedule Handlers RenewalLoop Interleaving Renew

/-- The CA a certificate is renewed at. -/
def Tls.directory (tls : Tls) : Option String := tls.renewable.map Acme.directory

namespace RenewProcesses

/-- A run that orders only because the certificate is due: no `--force`, and no flag that
takes the hub to another CA. -/
def Plain (tls : Tls) (asked : ServerRenew) : Prop :=
  asked.force = false ∧ match tls.renewable with
    | some acme => changesCa acme asked.ca = none
    | none => asked.acmeEmail = none

theorem Plain.of_directory {tls tls' : Tls} {asked : ServerRenew} (plain : Plain tls asked)
    (same : tls'.directory = tls.directory) : Plain tls' asked := by
  obtain ⟨force, plain⟩ := plain
  refine ⟨force, ?_⟩
  rw [Tls.directory, Tls.directory] at same
  cases hours : tls.renewable with
  | none =>
    rw [hours] at same plain
    rw [Option.map_eq_none_iff.mp same]
    exact plain
  | some acme =>
    rw [hours] at same plain
    obtain ⟨acme', hours', hdirectory⟩ := Option.map_eq_some_iff.mp same
    rw [hours']
    simpa [changesCa, hdirectory] using plain

section
variable [Unicode]

/-- What a plain run plans: it orders only what is due, and edits only a hub of its own. -/
theorem Plain.plan {state : ServerState} {asked : ServerRenew} {now : Int64} {plan : Plan}
    (plain : Plain state.tls asked) (h : Renew.plan state asked now = .ok plan) :
    (∀ why, plan = .reissue why → state.tls.needsRenewal now renewalLeadSecs = true) ∧
      (plan ≠ .pushRecord → state.tls.renewable.isSome = true) := by
  obtain ⟨force, plain⟩ := plain
  rw [Renew.plan] at h
  split at h
  · cases h
    exact ⟨fun why h => (by cases h), fun h => absurd rfl h⟩
  split at h
  · cases h
  split at h
  · next manual =>
    rw [manual] at plain
    simp only at plain
    rw [plain] at h
    cases h
  next current hcurrent =>
  rw [hcurrent] at plain ⊢
  simp only at plain
  rw [plain, force] at h
  refine ⟨?_, fun _ => rfl⟩
  rintro why rfl
  simp only [Bool.false_eq_true, if_false] at h
  split at h
  · assumption
  · split at h <;> cases h

/-- The TLS settings a process found due, until it has the lock. -/
def Phase.decided : Phase → Option Tls
  | .planned _ _ state (.reissue _) => some state.tls
  | .due _ tls => some tls
  | _ => none

/-- The phase holds the lock and its order is still to come. -/
def Phase.ordering : Phase → Bool
  | .asking _ _ _ (.reissue _) => true
  | .holding _ _ => true
  | .renewing _ _ _ _ => true
  | _ => false

/-- The flags of a command that is not over. -/
def Phase.asked : Phase → Option ServerRenew
  | .typed asked => some asked
  | .planned asked _ _ _ => some asked
  | .asking asked _ _ _ => some asked
  | .answered asked _ _ _ _ _ => some asked
  | _ => none

/-- The command is about to change the TLS settings. -/
def Phase.settling : Phase → Prop
  | .planned _ _ _ plan => plan ≠ .pushRecord
  | .asking _ _ _ plan => plan ≠ .pushRecord
  | .answered _ _ _ _ _ _ => True
  | _ => False

/-- The file names a certificate that is due. -/
def DueOnDisk (file : String) (now : Int64) : Prop :=
  ∃ found, ServerState.parse file = .ok found ∧ found.tls.needsRenewal now renewalLeadSecs = true

end

theorem needsRenewal_mono {tls : Tls} {now later lead : Int64} (h : now ≤ later)
    (due : tls.needsRenewal now lead = true) : tls.needsRenewal later lead = true := by
  rw [Tls.needsRenewal] at due ⊢
  split at due
  · cases due
  · next at' _ =>
    have before := of_decide_eq_true due
    rw [Int64.le_iff_toInt_le] at before h
    exact decide_eq_true (Int64.le_iff_toInt_le.mpr (by omega))

theorem needsRenewal_congr {tls tls' : Tls} {now lead : Int64}
    (same : tls'.renewalDue lead = tls.renewalDue lead) :
    tls'.needsRenewal now lead = tls.needsRenewal now lead := by
  rw [Tls.needsRenewal, Tls.needsRenewal, same]

section
variable [Unicode] {state : ServerState}

theorem directory_applied {asked : ServerRenew} (plain : Plain state.tls asked)
    (ours : state.tls.renewable.isSome = true) (paths : ServerPaths) (keeping : Keeping) :
    (Renew.apply state asked paths keeping).tls.directory = state.tls.directory := by
  obtain ⟨acme, hours⟩ := Option.isSome_iff_exists.mp ours
  have unmoved := plain.2
  rw [hours] at unmoved
  rw [Tls.directory, Tls.directory, apply_renewable_acme hours, hours]
  exact congrArg some ((applyAcme_directory acme asked).mpr unmoved)

theorem directory_recorded (renewed : Renewed) (now : Int64) :
    (record state renewed now).tls.directory = state.tls.directory := by
  rw [Tls.directory, Tls.directory]
  cases hours : state.tls.renewable with
  | some acme =>
    rw [record_renewable state renewed now hours]
    rfl
  | none =>
    have manual : state.tls.source = .manual := by
      rw [Tls.renewable] at hours
      split at hours
      · assumption
      · cases hours
    rw [record, Tls.modifyAcme, manual, Tls.renewable, manual]

theorem directory_concluded {found left : ServerState} {witness : Tls} {asked : ServerRenew}
    {paths : ServerPaths} {now : Int64} {ordered : Ordered} {loaded : Except String (Option Int64)}
    (h : conclude found witness asked paths now ordered loaded = .ok left)
    (plain : Plain found.tls asked) (ours : found.tls.renewable.isSome = true) :
    left.tls.directory = found.tls.directory := by
  have applied := directory_applied plain ours paths ordered.keeping
  obtain ⟨_, ⟨_, rfl⟩ | ⟨issued, notAfter, _, _, rfl⟩⟩ := conclude_cases h
  · exact applied
  · exact (directory_recorded issued now).trans applied

end

section
variable {ι : Type} [Unicode] {hashToken : DeviceToken → TokenHash} {paths : ServerPaths} {i : ι}
  {phase : Phase} {machine : Machine ι} {noted : Option (Note ι)} {out : Machine ι × Phase}

/-- No step moves the clock by itself. -/
theorem Took.clock (took : Took hashToken paths i phase machine noted out) :
    out.1.clock = machine.clock := by
  cases took <;> rfl

/-- An order is tried by the phase that is about to. -/
theorem Took.orders (took : Took hashToken paths i phase machine noted out) {who : ι}
    {snapshot : ServerState} {renewed : Option Renewed}
    (h : noted = some (.ordered who snapshot renewed)) : phase.ordering = true := by
  cases took with
  | released _ _ hnoted =>
    rcases hnoted with rfl | ⟨_, ⟨_, _, _, rfl⟩ | ⟨_, _, _, rfl⟩, _⟩
    · cases h
    · rfl
    · rfl
  | ordered hphase _ =>
    subst hphase
    rfl
  | renewed hphase =>
    subst hphase
    rfl
  | _ => cases h

/-- Whoever is without the issuance lock leaves the TLS settings as they are. -/
theorem Took.tls_kept (took : Took hashToken paths i phase machine noted out)
    (free : phase.holds = false) {found : ServerState}
    (read : ServerState.parse machine.hub.file = .ok found) :
    ∃ found', ServerState.parse out.1.hub.file = .ok found' ∧ found'.tls = found.tls := by
  by_cases committed : ∃ edit, noted = some (.committed i edit)
  · obtain ⟨edit, rfl⟩ := committed
    obtain ⟨prior, next, hprior, hedit, hfile, _⟩ := took.committed rfl
    cases read.symm.trans hprior
    refine ⟨next, by rw [hfile]; exact Edit.parse_applied read hedit, ?_⟩
    cases took with
    | wrote _ _ _ => exact (Writing.edit_sameHub hedit).tls
    | pushed hphase _ => rw [hphase] at free; cases free
    | concluded hphase _ _ => rw [hphase] at free; cases free
    | recorded hphase _ _ _ => rw [hphase] at free; cases free
    | released held _ _ => rw [held] at free; cases free
  · have quiet : ∀ edit, noted ≠ some (.committed i edit) := by simpa using committed
    exact ⟨found, by rw [took.file quiet]; exact read, rfl⟩

/-- Only the holder lets the lock go, and only a free lock is taken. -/
theorem Took.issuing (took : Took hashToken paths i phase machine noted out) :
    out.1.issuing = machine.issuing ∨ phase.holds = true ∨ machine.issuing = none := by
  cases took with
  | acquired _ free => exact Or.inr (Or.inr free)
  | released held _ _ => exact Or.inr (Or.inl held)
  | pushed hphase _ => exact Or.inr (Or.inl (by rw [hphase]; rfl))
  | concluded hphase _ _ => exact Or.inr (Or.inl (by rw [hphase]; rfl))
  | recorded hphase _ _ _ => exact Or.inr (Or.inl (by rw [hphase]; rfl))
  | _ => exact Or.inl rfl

end

variable {ι : Type} [Unicode] {hashToken : DeviceToken → TokenHash} {paths : ServerPaths}

/-- The state file is read, and names the CA it named at the start. -/
def Named (start : ServerState) (machine : Machine ι) : Prop :=
  ∃ found, ServerState.parse machine.hub.file = .ok found ∧
    found.tls.directory = start.tls.directory

/-- What a process knows on its way to an order. -/
structure Steady (start : ServerState) (machine : Machine ι) (i : ι) (phase : Phase) : Prop where
  plain : ∀ asked, phase.asked = some asked → Plain start.tls asked
  ours : phase.settling → start.tls.renewable.isSome = true
  decided : ∀ tls, phase.decided = some tls →
    tls.needsRenewal machine.clock renewalLeadSecs = true
  holds : phase.holds = true → machine.issuing = some i
  due : phase.ordering = true → DueOnDisk machine.hub.file machine.clock

/-- A phase with nothing behind it is steady. -/
theorem Steady.idle {start : ServerState} {machine : Machine ι} {i : ι} {phase : Phase}
    (plain : ∀ asked, phase.asked = some asked → Plain start.tls asked)
    (settling : ¬phase.settling) (decided : phase.decided = none) (holds : phase.holds = false)
    (ordering : phase.ordering = false) : Steady start machine i phase where
  plain := plain
  ours h := absurd h settling
  decided tls h := by
    rw [decided] at h
    cases h
  holds h := by
    rw [holds] at h
    cases h
  due h := by
    rw [ordering] at h
    cases h

theorem Steady.rests {start : ServerState} {machine : Machine ι} {i : ι} {phase : Phase}
    (rests : phase.Rests) : Steady start machine i phase := by
  rcases rests with rfl | ⟨loop, rfl⟩
  · exact .idle (fun asked h => by cases h) id rfl rfl rfl
  · exact .idle (fun asked h => by cases h) id rfl rfl rfl

theorem DueOnDisk.mono {file : String} {now later : Int64} (due : DueOnDisk file now)
    (h : now ≤ later) : DueOnDisk file later := by
  obtain ⟨found, read, due⟩ := due
  exact ⟨found, read, needsRenewal_mono h due⟩

omit [Unicode] in
theorem le_advance (machine : Machine ι) (turn : Turn) :
    machine.clock ≤ (machine.advance turn).clock := by
  have hmax : (machine.advance turn).clock =
      if machine.clock ≤ turn.clock then turn.clock else machine.clock := rfl
  rw [hmax]
  split
  · assumption
  · exact Int64.le_refl _

theorem Steady.advance {start : ServerState} {machine : Machine ι} {i : ι} {phase : Phase}
    (h : Steady start machine i phase) (turn : Turn) :
    Steady start (machine.advance turn) i phase where
  plain := h.plain
  ours := h.ours
  decided tls htls := needsRenewal_mono (le_advance machine turn) (h.decided tls htls)
  holds := h.holds
  due ordering := (h.due ordering).mono (le_advance machine turn)

section
variable {start : ServerState} {machine : Machine ι} {i : ι} {phase : Phase}
  {noted : Option (Note ι)} {out : Machine ι × Phase}

theorem Named.act (named : Named start machine) (h : Steady start machine i phase)
    (took : Took hashToken paths i phase machine noted out) : Named start out.1 := by
  obtain ⟨found, read, same⟩ := named
  by_cases held : phase.holds = true
  · by_cases committed : ∃ edit, noted = some (.committed i edit)
    · obtain ⟨edit, rfl⟩ := committed
      obtain ⟨prior, next, hprior, hedit, hfile, _⟩ := took.committed rfl
      cases read.symm.trans hprior
      refine ⟨next, by rw [hfile]; exact Edit.parse_applied read hedit, ?_⟩
      cases took with
      | wrote hphase _ _ => rw [hphase] at held; cases held
      | released _ _ hnoted => rcases hnoted with h | ⟨_, _, h⟩ <;> cases h
      | pushed _ _ =>
        cases hedit
        exact same
      | concluded hphase hfound hleft =>
        subst hphase
        cases read.symm.trans hfound
        have tls := (conclude_cases hleft).1
        rw [Edit.apply, tls, hleft] at hedit
        cases hedit
        have plain := (h.plain _ rfl).of_directory same
        have ours : found.tls.renewable.isSome = true := by
          have started := h.ours trivial
          rw [Tls.directory, Tls.directory] at same
          rw [← Option.isSome_map (f := Acme.directory)] at started ⊢
          rwa [same]
        exact (directory_concluded hleft plain ours).trans same
      | recorded _ _ _ _ =>
        cases hedit
        exact (directory_recorded _ _).trans same
    · have quiet : ∀ edit, noted ≠ some (.committed i edit) := by simpa using committed
      exact ⟨found, by rw [took.file quiet]; exact read, same⟩
  · obtain ⟨found', read', tls⟩ := took.tls_kept (by simpa using held) read
    exact ⟨found', read', by rw [tls]; exact same⟩

/-- The steps of others disturb nothing a process knows. -/
theorem Steady.other {j : ι} {mine : Phase} (h : Steady start machine j mine) (ne : j ≠ i)
    (theirs : Steady start machine i phase)
    (took : Took hashToken paths i phase machine noted out) : Steady start out.1 j mine where
  plain := h.plain
  ours := h.ours
  decided tls htls := by
    rw [took.clock]
    exact h.decided tls htls
  holds held := by
    rcases took.issuing with same | held' | free
    · rw [same]
      exact h.holds held
    · exact absurd (Option.some.inj ((h.holds held).symm.trans (theirs.holds held'))) ne
    · cases free.symm.trans (h.holds held)
  due ordering := by
    obtain ⟨found, read, due⟩ := h.due ordering
    have held : mine.holds = true := by
      revert ordering
      rw [Phase.ordering.eq_def]
      split <;> simp [Phase.holds]
    have free : phase.holds = false := by
      refine Bool.eq_false_iff.mpr fun held' => ne ?_
      exact Option.some.inj ((h.holds held).symm.trans (theirs.holds held'))
    obtain ⟨found', read', tls⟩ := took.tls_kept free read
    rw [took.clock]
    exact ⟨found', read', by rw [tls]; exact due⟩

/-- What a process knows it keeps, when nobody renewed between its look and its lock. -/
theorem Steady.act (named : Named start machine) (h : Steady start machine i phase)
    (took : Took hashToken paths i phase machine noted out)
    (current : phase.Enters out.2 → ∀ tls, phase.decided = some tls →
      ∀ found, ServerState.parse machine.hub.file = .ok found →
        found.tls.renewalDue renewalLeadSecs = tls.renewalDue renewalLeadSecs) :
    Steady start out.1 i out.2 := by
  obtain ⟨found, read, same⟩ := named
  cases took with
  | rests _ rests => exact .rests rests
  | wrote _ _ _ => exact .rests (Or.inl rfl)
  | @planned asked state plan hphase hparse hplan =>
    subst hphase
    cases read.symm.trans hparse
    have plain := h.plain asked rfl
    obtain ⟨hdue, hours⟩ := (plain.of_directory same).plan hplan
    refine ⟨h.plain, fun settling => ?_, fun tls htls => ?_, ?_, ?_⟩
    · have ours := hours settling
      rw [Tls.directory, Tls.directory] at same
      rw [← Option.isSome_map (f := Acme.directory)] at ours ⊢
      rwa [← same]
    · cases plan with
      | reissue why =>
        cases htls
        exact hdue why rfl
      | _ => cases htls
    · intro held
      cases held
    · intro ordering
      cases ordering
  | looked _ _ hdue =>
    refine ⟨fun asked h => ?_, fun h => ?_, fun tls htls => ?_, fun h => ?_, fun h => ?_⟩
    · cases h
    · cases h
    · cases htls
      exact hdue
    · cases h
    · cases h
  | @acquired next enters free =>
    have due : ∀ tls, phase.decided = some tls → DueOnDisk machine.hub.file machine.clock := by
      intro tls htls
      refine ⟨found, read, ?_⟩
      rw [needsRenewal_congr (current enters tls htls found read)]
      exact h.decided tls htls
    rcases enters with ⟨asked, now, state, plan, rfl, rfl⟩ | ⟨loop, tls, rfl, rfl⟩
    · refine ⟨h.plain, h.ours, fun tls h => ?_, fun _ => rfl, fun ordering => ?_⟩
      · cases h
      · cases plan with
        | reissue why => exact due state.tls rfl
        | _ => cases ordering
    · refine ⟨fun asked h => ?_, fun h => ?_, fun tls h => ?_, fun _ => rfl, fun _ => due tls rfl⟩
      · cases h
      · cases h
      · cases h
  | read hphase _ =>
    subst hphase
    exact ⟨fun asked h => (by cases h), fun h => (by cases h), fun tls h => (by cases h),
      fun _ => h.holds rfl, fun _ => h.due rfl⟩
  | released _ rests _ => exact .rests rests
  | pushing hphase =>
    subst hphase
    exact ⟨fun asked h => (by cases h), fun h => (by cases h), fun tls h => (by cases h),
      fun _ => h.holds rfl, fun h => (by cases h)⟩
  | settled hphase _ push _ =>
    subst hphase
    exact ⟨h.plain, fun _ => h.ours push, fun tls h => (by cases h), fun _ => h.holds rfl,
      fun h => (by cases h)⟩
  | ordered hphase _ =>
    subst hphase
    exact ⟨h.plain, fun _ => h.ours (by simp [Phase.settling]), fun tls h => (by cases h),
      fun _ => h.holds rfl, fun h => (by cases h)⟩
  | renewed hphase =>
    subst hphase
    exact ⟨fun asked h => (by cases h), fun h => (by cases h), fun tls h => (by cases h),
      fun _ => h.holds rfl, fun h => (by cases h)⟩
  | pushed _ _ => exact .rests (Or.inl rfl)
  | concluded _ _ _ => exact .rests (Or.inl rfl)
  | recorded _ _ _ rests => exact .rests rests

end

variable [DecidableEq ι] [Format] (hashToken paths) (classify : Classify)

/-- A step that takes the issuance lock finds the due date on disk its process decided on:
nobody has renewed in between. -/
def Unrenewed (world : World (Machine ι) ι Phase) (event : ι × Turn) : Prop :=
  let phase := world.locals event.1
  phase.Enters (act classify hashToken paths event.1 phase event.2 world.shared).2 →
    ∀ tls, phase.decided = some tls → ∀ found,
      ServerState.parse world.shared.hub.file = .ok found →
        found.tls.renewalDue renewalLeadSecs = tls.renewalDue renewalLeadSecs

theorem run_steady {machine : Machine ι} {start : ServerState}
    (read : ServerState.parse machine.hub.file = .ok start) {phases : ι → Phase}
    (fresh : ∀ i, (phases i).Fresh)
    (plain : ∀ i asked, phases i = .typed asked → Plain start.tls asked) {events : List (ι × Turn)}
    (unrenewed : Runs.Along (Interleaving.step (act classify hashToken paths))
      (Unrenewed hashToken paths classify) ⟨machine, phases⟩ events) :
    let world : World (Machine ι) ι Phase := ⟨machine, phases⟩
    let final := Interleaving.run (act classify hashToken paths) world events
    ∀ i, Steady start final.shared i (final.locals i) := by
  intro world final
  have named : Named start machine := ⟨start, read, rfl⟩
  have steady : ∀ i, Steady start machine i (phases i) := by
    intro i
    rcases fresh i with ⟨writing, h⟩ | ⟨asked, h⟩ | ⟨loop, h⟩
    · rw [h]
      exact .idle (fun asked h => by cases h) id rfl rfl rfl
    · rw [h]
      refine .idle (fun asked' h' => ?_) id rfl rfl rfl
      cases h'
      exact plain i asked h
    · rw [h]
      exact .idle (fun asked h => by cases h) id rfl rfl rfl
  have took := fun (machine : Machine ι) i phase turn =>
    act_took classify hashToken paths i phase turn machine
  refine (@along_keeps _ _ _ _ _ (act classify hashToken paths) (Unrenewed hashToken paths classify)
    (Named start) (Steady start) ?_ ?_ ⟨machine, phases⟩ named steady events unrenewed).2
  · intro world i turn suits hnamed h
    have advanced : Named start (world.shared.advance turn) := hnamed
    have took := took world.shared i (world.locals i) turn
    exact ⟨advanced.act (h.advance turn) took, (h.advance turn).act advanced took suits⟩
  · intro machine i phase turn j mine ne _ theirs h
    exact (h.advance turn).other ne (theirs.advance turn) (took machine i phase turn)

/-- However the daemon and plain commands interleave: each order is tried while the file
names a certificate that is due, as long as whoever takes the issuance lock finds the due
date it decided on. -/
theorem orders_while_due (machine : Machine ι) (start : ServerState)
    (read : ServerState.parse machine.hub.file = .ok start) (phases : ι → Phase)
    (fresh : ∀ i, (phases i).Fresh)
    (plain : ∀ i asked, phases i = .typed asked → Plain start.tls asked) (events : List (ι × Turn))
    (unrenewed : Runs.Along (Interleaving.step (act classify hashToken paths))
      (Unrenewed hashToken paths classify) ⟨machine, phases⟩ events) :
    let before := Interleaving.run (act classify hashToken paths) ⟨machine, phases⟩
    ∀ sooner i turn later snapshot renewed, events = sooner ++ (i, turn) :: later →
      noted (note classify hashToken paths) (before sooner) (i, turn) =
        some (.ordered i snapshot renewed) →
      DueOnDisk (before sooner).shared.hub.file (max (before sooner).shared.clock turn.clock) := by
  rintro before sooner i turn later snapshot renewed rfl hnoted
  have steady := run_steady hashToken paths classify read fresh plain unrenewed.before i
  have took := act_took classify hashToken paths i ((before sooner).locals i) turn
    (before sooner).shared
  exact (steady.advance turn).due (took.orders hnoted)

/-- An order succeeds, and a certificate is not due once it is recorded. -/
def FruitfulNote (after : Machine ι) : Option (Note ι) → Prop
  | some (.ordered _ _ renewed) => renewed.isSome = true
  | some (.committed _ edit) => edit.issued.isSome = true → ¬DueOnDisk after.hub.file after.clock
  | _ => True

def Fruitful (world : World (Machine ι) ι Phase) (event : ι × Turn) : Prop :=
  FruitfulNote (Interleaving.step (act classify hashToken paths) world event).shared
    (noted (note classify hashToken paths) world event)

section
variable {hub : Renew.Hub} {state : ServerState} {issuing : Option Bool}

theorem daemon_looks (read : ServerState.parse hub.file = .ok state)
    (due : state.tls.needsRenewal 0 renewalLeadSecs = true) :
    let phase : Phase := .watching .new
    let machine : Machine Bool := ⟨hub, 0, issuing⟩
    act classify hashToken paths true phase sampleTurn machine =
        (machine, .due (look .new 0 (.ok state.tls)).2 state.tls) ∧
      note classify hashToken paths true phase sampleTurn machine = none := by
  intro phase machine
  have renew : (look .new 0 (.ok state.tls)).1 = .renew :=
    (look_fresh .new 0 state.tls).mpr ⟨due, by decide⟩
  rw [act.eq_def, note.eq_def]
  simp only [phase, machine, advance_sample]
  simp only [sampleTurn, sampleLuck, lock_read read, renew, if_true, and_self]

theorem daemon_locks {loop : Loop} {tls : Tls} :
    let phase : Phase := .due loop tls
    let machine : Machine Bool := ⟨hub, 0, none⟩
    act classify hashToken paths true phase sampleTurn machine =
        (⟨hub, 0, some true⟩, .holding loop tls) ∧
      note classify hashToken paths true phase sampleTurn machine = none := ⟨rfl, rfl⟩

theorem daemon_reads {loop : Loop} {tls : Tls} (read : ServerState.parse hub.file = .ok state) :
    let phase : Phase := .holding loop tls
    let machine : Machine Bool := ⟨hub, 0, issuing⟩
    act classify hashToken paths true phase sampleTurn machine =
        (machine, .renewing loop tls 0 state) ∧
      note classify hashToken paths true phase sampleTurn machine = some (.read true state) := by
  intro phase machine
  rw [act.eq_def, note.eq_def]
  simp only [phase, machine, advance_sample]
  simp only [sampleTurn, sampleLuck, lock_read read]
  exact ⟨trivial, rfl⟩

theorem daemon_orders {loop : Loop} {tls : Tls} {renewed : Renewed} {after : Disk}
    {calls : List Call}
    (order : AcmeClient.renew state paths hub.disk sampleAnswers = ⟨.ok renewed, after, calls⟩) :
    note classify hashToken paths true (.renewing loop tls 0 state) sampleTurn
      (⟨hub, 0, issuing⟩ : Machine Bool) = some (.ordered true state (some renewed)) := by
  rw [note.eq_def]
  simp only [advance_sample]
  simp only [sampleTurn, sampleLuck, orderOnce, order]

theorem command_refused {asked : ServerRenew} {plan : Plan} :
    let phase : Phase := .planned asked 0 state plan
    let machine : Machine Bool := ⟨hub, 0, some true⟩
    act classify hashToken paths false phase sampleTurn machine = (machine, .ended) ∧
      note classify hashToken paths false phase sampleTurn machine = none := ⟨rfl, rfl⟩

end

theorem Fruitful.of_noted {world : World (Machine ι) ι Phase} {event : ι × Turn}
    {n : Option (Note ι)} (h : noted (note classify hashToken paths) world event = n)
    (fruitful : FruitfulNote (Interleaving.step (act classify hashToken paths) world
      event).shared n) :
    Fruitful hashToken paths classify world event := by
  rw [Fruitful, h]
  exact fruitful

omit [Unicode] [Format] in
/-- The daemon and a command both find the certificate due, the daemon takes the lock, the command
is turned away and the daemon orders. -/
theorem orders_while_due_sample :
    letI := asciiTables
    letI := jsonFormat
    let hashToken : DeviceToken → TokenHash := fun _ => .sample 'b' rfl
    let machine : Machine Bool := ⟨⟨(sampleState "").toJsonString, ⟨none, none, none⟩⟩, 0, none⟩
    let daemon : Bool × Turn := (true, sampleTurn)
    let command : Bool × Turn := (false, sampleTurn)
    let before := Interleaving.run (act (fun _ => .busy) hashToken samplePaths)
      ⟨machine, both (.watching .new) (.typed .plain)⟩ [command, daemon, daemon, command, daemon]
    before.locals false = .ended ∧
      (∃ renewed, noted (note (fun _ => .busy) hashToken samplePaths) before daemon =
        some (.ordered true (sampleState "") (some renewed))) ∧
      DueOnDisk before.shared.hub.file (max before.shared.clock 0) := by
  have due : letI := asciiTables; (sampleState "").tls.needsRenewal 0 renewalLeadSecs = true := by
    decide +kernel
  have hplan : letI := asciiTables; Renew.plan (sampleState "") .plain 0 = .ok (.reissue .due) := by
    decide +kernel
  let := asciiTables
  let := jsonFormat
  intro hashToken machine daemon command before
  let state := sampleState ""
  let classify : Classify := fun _ => .busy
  let phases : Bool → Phase := both (.watching .new) (.typed .plain)
  let loop := (look .new 0 (.ok state.tls)).2
  let idle : Phase := .planned .plain 0 state (.reissue .due)
  have read : ServerState.parse machine.hub.file = .ok state := ServerState.parse_toJsonString rfl
  have order : AcmeClient.renew state samplePaths machine.hub.disk sampleAnswers =
      ⟨.ok ⟨"/acme/c.pem", "/acme/k.pem", none, "new", some 7776000, []⟩,
        ⟨some (Format.write ⟨"new", "...", some production⟩), some "certificate", some "key"⟩,
        [.registered production "new" (contactUri "jo@example.com")]⟩ := rfl
  have planned := @command_plans _ hashToken samplePaths _ classify machine.hub state none .plain _
    read hplan
  have looked := @daemon_looks _ hashToken samplePaths _ classify machine.hub state none read due
  have taken := @daemon_locks _ hashToken samplePaths _ classify machine.hub loop state.tls
  have refused := @command_refused _ hashToken samplePaths _ classify machine.hub state .plain
    (.reissue .due)
  have reread := @daemon_reads _ hashToken samplePaths _ classify machine.hub state (some true) loop
    state.tls read
  have orders := @daemon_orders _ hashToken samplePaths _ classify machine.hub
    state (some true) loop
    state.tls _ _ _ order
  have s0 := @step_second _ hashToken samplePaths _ classify _ _ (.watching .new) _ _ planned.1
  have s1 := @step_first _ hashToken samplePaths _ classify _ _ _ idle _ looked.1
  have s2 := @step_first _ hashToken samplePaths _ classify _ _ _ idle _ taken.1
  have s3 := @step_second _ hashToken samplePaths _ classify _ _
    (.holding loop state.tls) _ _ refused.1
  have s4 := @step_first _ hashToken samplePaths _ classify _ _ _ .ended _ reread.1
  have reached : before = ⟨⟨machine.hub, 0, some true⟩,
      both (.renewing loop state.tls 0 state) .ended⟩ := by
    simp only [before, Runs.run_cons, Runs.run_nil]
    rw [s0, s1, s2, s3, s4]
  have fresh : ∀ i, (phases i).Fresh := by
    intro i
    cases i with
    | true => exact Or.inr (Or.inr ⟨_, rfl⟩)
    | false => exact Or.inr (Or.inl ⟨_, rfl⟩)
  have plain : ∀ i asked, phases i = .typed asked → Plain state.tls asked := by
    intro i asked h
    cases i with
    | true => cases h
    | false =>
      cases h
      exact ⟨rfl, rfl⟩
  -- whoever comes for the lock finds the settings it decided on
  have dated : ∀ found, ServerState.parse machine.hub.file = .ok found →
      found.tls.renewalDue renewalLeadSecs = state.tls.renewalDue renewalLeadSecs := by
    intro found hfound
    cases read.symm.trans hfound
    rfl
  have unrenewed : Runs.Along (Interleaving.step (act classify hashToken samplePaths))
      (Unrenewed hashToken samplePaths classify) ⟨machine, phases⟩
      ([command, daemon, daemon, command, daemon] ++ [daemon]) := by
    refine ⟨fun _ tls h => (by cases h), ?_⟩
    rw [s0]
    refine ⟨fun _ tls h => (by cases h), ?_⟩
    rw [s1]
    refine ⟨fun _ tls h => (by cases h; exact dated), ?_⟩
    rw [s2]
    refine ⟨fun _ tls h => (by cases h; exact dated), ?_⟩
    rw [s3]
    refine ⟨fun _ tls h => (by cases h), ?_⟩
    rw [s4]
    exact ⟨fun _ tls h => (by cases h), trivial⟩
  have tried : noted (note classify hashToken samplePaths) before daemon =
      some
        (.ordered true state (some ⟨"/acme/c.pem", "/acme/k.pem", none, "new",
          some 7776000, []⟩)) := by
    rw [reached]
    exact orders
  refine ⟨by rw [reached]; rfl, ⟨_, tried⟩, ?_⟩
  exact orders_while_due hashToken samplePaths classify machine state read phases fresh plain _
    unrenewed [command, daemon, daemon, command, daemon] true sampleTurn [] state _ rfl tried

omit [Unicode] [Format] in
/-- The daemon finds the certificate due, a command renews it and lets the lock go, and the
daemon takes the lock and orders another one. -/
theorem orders_renewed_again :
    letI := asciiTables
    letI := jsonFormat
    let hashToken : DeviceToken → TokenHash := fun _ => .sample 'b' rfl
    let classify : Classify := fun _ => .busy
    ¬∀ (machine : Machine Bool) (start : ServerState),
      ServerState.parse machine.hub.file = .ok start → ∀ phases : Bool → Phase,
        (∀ i, (phases i).Fresh) → (∀ i asked, phases i = .typed asked → Plain start.tls asked) →
          ∀ events : List (Bool × Turn),
            Runs.Along (Interleaving.step (act classify hashToken samplePaths))
              (Fruitful hashToken samplePaths classify) ⟨machine, phases⟩ events →
            let before := Interleaving.run (act classify hashToken samplePaths) ⟨machine, phases⟩
            ∀ sooner i turn later snapshot renewed, events = sooner ++ (i, turn) :: later →
              noted (note classify hashToken samplePaths) (before sooner) (i, turn) =
                some (.ordered i snapshot renewed) →
              DueOnDisk (before sooner).shared.hub.file
                (max (before sooner).shared.clock turn.clock) := by
  let := asciiTables
  let := jsonFormat
  intro hashToken classify claim
  let state := sampleState ""
  let asked := ServerRenew.plain
  let empty : Disk := ⟨none, none, none⟩
  let stored : Credentials := ⟨"new", "...", some production⟩
  let renewed : Renewed := ⟨"/acme/c.pem", "/acme/k.pem", none, "new", some 7776000, []⟩
  let disk : Disk := ⟨some (Format.write stored), some "certificate", some "key"⟩
  let left := reissued state asked samplePaths .unchanged renewed 0 (some 7776000)
  obtain ⟨file, read⟩ : ∃ file, ServerState.parse file = .ok state :=
    ⟨state.toJsonString, ServerState.parse_toJsonString rfl⟩
  obtain ⟨file', hfile', read'⟩ : ∃ file', file' = left.toJsonString ∧
    ServerState.parse file' = .ok left :=
    ⟨left.toJsonString, rfl, ServerState.parse_toJsonString rfl⟩
  have due : state.tls.needsRenewal 0 renewalLeadSecs = true := by decide +kernel
  have fresh : left.tls.needsRenewal 0 renewalLeadSecs = false := by decide +kernel
  have first : AcmeClient.renew (Renew.apply state asked samplePaths .unchanged) samplePaths empty
      sampleAnswers = ⟨.ok renewed, disk,
        [.registered production "new" (contactUri "jo@example.com")]⟩ :=
    rfl
  have belongs : belongsTo (Format.write stored) production "new" = .ok () :=
    (belongsTo_of_read (Format.read_write stored) _ _).mpr ⟨rfl, Or.inr rfl⟩
  have ours : left.tls.renewable =
      some ({ sampleAcme "new" with renewAfter := renewAfter 0 (some 7776000) }) := rfl
  obtain ⟨again, disk', second, _⟩ := @renew_reuses _ _ left _ disk _ "jo@example.com" stored
    sampleAnswers ours rfl belongs (Format.read_write stored) rfl ⟨rfl, rfl,
      ⟨_, rfl⟩, rfl⟩ samplePaths
  have hplan : Renew.plan state asked 0 = .ok (.reissue .due) := by decide +kernel
  -- the daemon looks, the command runs from its look to its commit, the daemon goes on
  have looked := @daemon_looks _ hashToken samplePaths _ classify ⟨file, empty⟩ state none read due
  have planned := @command_plans _ hashToken samplePaths _ classify ⟨file, empty⟩ state none asked _
    read hplan
  have locked := @command_locks _ hashToken samplePaths _ classify
    ⟨file, empty⟩ state asked (.reissue .due)
  have ordered := @command_orders _ hashToken samplePaths _ classify
    ⟨file, empty⟩ state (some false)
    asked .due renewed disk _ rfl first
  have committed := @command_commits _ hashToken samplePaths _ classify
    ⟨file, disk⟩ state (some false)
    asked .due renewed empty state read rfl
  simp only at committed
  rw [← hfile'] at committed
  let loop := (look .new 0 (.ok state.tls)).2
  have taken := @daemon_locks _ hashToken samplePaths _ classify ⟨file', disk⟩ loop state.tls
  have reread := @daemon_reads _ hashToken samplePaths _ classify
    ⟨file', disk⟩ left (some true) loop
    state.tls read'
  have orders := @daemon_orders _ hashToken samplePaths _ classify
    ⟨file', disk⟩ left (some true) loop
    state.tls again disk' [] second
  have s0 := @step_first _ hashToken samplePaths _ classify _ _ _ (.typed asked) _ looked.1
  have s1 := @step_second _ hashToken samplePaths _ classify _ _ (.due loop state.tls) _ _ planned.1
  have s2 := @step_second _ hashToken samplePaths _ classify _ _ (.due loop state.tls) _ _ locked.1
  have s3 := @step_second _ hashToken samplePaths _ classify _ _ (.due loop state.tls) _ _ ordered.1
  have s4 := @step_second _ hashToken samplePaths _ classify _ _
    (.due loop state.tls) _ _ committed.1
  have s5 := @step_first _ hashToken samplePaths _ classify _ _ _ .ended _ taken.1
  have s6 := @step_first _ hashToken samplePaths _ classify _ _ _ .ended _ reread.1
  let daemon : Bool × Turn := (true, sampleTurn)
  let command : Bool × Turn := (false, sampleTurn)
  let machine : Machine Bool := ⟨⟨file, empty⟩, 0, none⟩
  let phases : Bool → Phase := both (.watching .new) (.typed asked)
  let sooner := [daemon, command, command, command, command, daemon, daemon]
  have reached : Interleaving.run (act classify hashToken samplePaths) ⟨machine, phases⟩ sooner =
      ⟨⟨⟨file', disk⟩, 0, some true⟩, both (.renewing loop state.tls 0 left) .ended⟩ := by
    simp only [Interleaving.run, sooner, Runs.run_cons, Runs.run_nil]
    rw [s0, s1, s2, s3, s4, s5, s6]
  have fruitful : Runs.Along (Interleaving.step (act classify hashToken samplePaths))
      (Fruitful hashToken samplePaths classify) ⟨machine, phases⟩ (sooner ++ [daemon]) := by
    refine ⟨.of_noted _ _ _ looked.2 trivial, ?_⟩
    rw [s0]
    refine ⟨.of_noted _ _ _ planned.2 trivial, ?_⟩
    rw [s1]
    refine ⟨.of_noted _ _ _ locked.2 trivial, ?_⟩
    rw [s2]
    refine ⟨.of_noted _ _ _ ordered.2 rfl, ?_⟩
    rw [s3]
    refine ⟨.of_noted _ _ _ committed.2 ?_, ?_⟩
    · rw [s4]
      rintro _ ⟨found, hfound, hdue⟩
      cases read'.symm.trans hfound
      cases fresh.symm.trans hdue
    rw [s4]
    refine ⟨.of_noted _ _ _ taken.2 trivial, ?_⟩
    rw [s5]
    refine ⟨.of_noted _ _ _ reread.2 trivial, ?_⟩
    rw [s6]
    exact ⟨.of_noted _ _ _ orders rfl, trivial⟩
  have plain : ∀ i asked, phases i = .typed asked → Plain state.tls asked := by
    intro i asked h
    cases i with
    | true => cases h
    | false =>
      cases h
      exact ⟨rfl, rfl⟩
  have started : ∀ i, (phases i).Fresh := by
    intro i
    cases i with
    | true => exact Or.inr (Or.inr ⟨_, rfl⟩)
    | false => exact Or.inr (Or.inl ⟨_, rfl⟩)
  obtain ⟨found, hfound, hdue⟩ := claim machine state read phases started plain (sooner ++ [daemon])
    fruitful sooner true sampleTurn [] left (some again) rfl (by rewrite [reached]; exact orders)
  rw [reached] at hfound
  cases read'.symm.trans hfound
  rw [reached] at hdue
  cases fresh.symm.trans hdue

end RenewProcesses
