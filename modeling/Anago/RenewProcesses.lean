import Anago.RenewRuns

/-!
# Renewals beside everything else that writes the state file

Commands, the daemon's loop and the writers of the registry, one atomic step at a time.
Two locks are involved: the issuance lock is held from before the CA to after the commit
and is part of the machine, the lock of the state file is held within one step. What a
step cannot know beforehand comes with its turn.
-/

open StdText AcmeClient Handlers RenewalLoop Interleaving Renew

namespace RenewProcesses

/-- The files, a clock that does not run backwards, and who holds the issuance lock. -/
structure Machine (ι : Type) where
  hub : Renew.Hub
  clock : Int64
  issuing : Option ι

/-- A step's clock and luck. Whether the issuance lock is free is not luck. -/
structure Turn where
  clock : Int64
  luck : Luck

section
variable [Unicode]

/-- A writer of the registry: a request, `anago code`, `anago rm` on the hub. -/
inductive Writing where
  | request (request : Request)
  | code (draw : Nat → Except String JoinCode)
  | remove (name : DeviceName)

/-- The state a writer would commit. -/
def Writing.edit (hashToken : DeviceToken → TokenHash) (state : ServerState) (now : Int64) :
    Writing → Option ServerState
  | .request r =>
    match answer hashToken state now r with
    | (.ok _, left) => some left
    | (.error _, _) => none
  | .code draw =>
    match Code.chooseUnused state draw Code.maxDraws with
    | .ok fresh => some (Code.issue state fresh now JoinCode.defaultTtlSecs).2
    | .error _ => none
  | .remove name =>
    match state.removePeer name with
    | (some _, left) => some left
    | (none, _) => none

/-- How far a process is. -/
inductive Phase where
  | writing (writing : Writing)
  | typed (asked : ServerRenew)
  | planned (asked : ServerRenew) (now : Int64) (state : ServerState) (plan : Plan)
  /-- From here on the command holds the issuance lock. -/
  | asking (asked : ServerRenew) (now : Int64) (state : ServerState) (plan : Plan)
  | answered (asked : ServerRenew) (now : Int64) (state : ServerState) (plan : Plan)
      (ordered : Ordered) (before : Disk)
  | pushed (pushed : Pushed)
  | watching (loop : Loop)
  | due (loop : Loop) (tls : Tls)
  /-- From here on the daemon holds the issuance lock. -/
  | holding (loop : Loop) (tls : Tls)
  | renewing (loop : Loop) (tls : Tls) (now : Int64) (state : ServerState)
  | renewed (loop : Loop) (tls : Tls) (now : Int64) (state : ServerState) (renewed : Renewed)
  | ended

/-- A change to the state file, without the state it was made to. -/
inductive Edit where
  | wrote (writing : Writing) (now : Int64)
  | pushed (pushed : Pushed)
  | concluded (asked : ServerRenew) (now : Int64) (ordered : Ordered)
      (loaded : Except String (Option Int64))
  | recorded (renewed : Renewed) (now : Int64)

/-- What is worth remembering of a step. -/
inductive Note (ι : Type) where
  /-- The snapshot of the state that everything up to the commit works from. -/
  | read (who : ι) (snapshot : ServerState)
  /-- An order was tried for this snapshot; the certificate it brought, if it can be used. -/
  | ordered (who : ι) (snapshot : ServerState) (renewed : Option Renewed)
  | committed (who : ι) (edit : Edit)

/-- The edit, in a state. -/
def Edit.apply (hashToken : DeviceToken → TokenHash) (paths : ServerPaths) (state : ServerState) :
    Edit → Option ServerState
  | .wrote w now => w.edit hashToken state now
  | .pushed push => some (remember state push)
  | .concluded asked now ordered loaded =>
    (conclude state state.tls asked paths now ordered loaded).toOption
  | .recorded cert now => some (record state cert now)

/-- The edit is made by a renewal. -/
def Edit.renewal : Edit → Bool
  | .wrote _ _ => false
  | _ => true

/-- The certificate an edit records. -/
def Edit.issued : Edit → Option Renewed
  | .concluded _ _ ordered _ => ordered.issued
  | .recorded cert _ => some cert
  | _ => none

/-- Committed edits one after the other. -/
def replay (hashToken : DeviceToken → TokenHash) (paths : ServerPaths) (start : ServerState)
    (edits : List Edit) : Option ServerState :=
  edits.foldlM (fun state edit => edit.apply hashToken paths state) start

/-- The committed edits, in the order of the commits. -/
def edits {ι : Type} (past : List (Note ι)) : List Edit :=
  past.filterMap fun
    | .committed _ edit => some edit
    | _ => none

/-- The loop after a failed renewal: what it remembers of it. -/
def missed (loop : Loop) (now : Int64) (tls : Tls) (failure : RenewalFailure) : Phase :=
  .watching { loop with
    renewals := (loop.renewals.failed now failure.kind failure.retryAfter (some tls)).2 }

/-- The phase holds the issuance lock. -/
def Phase.holds : Phase → Bool
  | .asking _ _ _ _ => true
  | .answered _ _ _ _ _ _ => true
  | .pushed _ => true
  | .holding _ _ => true
  | .renewing _ _ _ _ => true
  | .renewed _ _ _ _ _ => true
  | _ => false

end

variable {ι : Type}

/-- The clock of a step. -/
def Machine.advance (machine : Machine ι) (turn : Turn) : Machine ι :=
  { machine with clock := max machine.clock turn.clock }

def Machine.release (machine : Machine ι) (hub : Renew.Hub) : Machine ι :=
  { machine with hub := hub, issuing := none }

/-- `FileLock::try_acquire` on the issuance lock. -/
def Machine.tryAcquire (machine : Machine ι) (i : ι) (luck : Luck) :
    Except String (Option (Machine ι)) :=
  match luck.issuing with
  | .error detail => .error detail
  | .ok _ =>
    if machine.issuing.isSome then .ok none else .ok (some { machine with issuing := some i })

variable [Unicode] [Format] (classify : Classify) (hashToken : DeviceToken → TokenHash)
  (paths : ServerPaths)

/-- One step of a process. -/
def act (i : ι) (phase : Phase) (turn : Turn) (machine : Machine ι) : Machine ι × Phase :=
  let machine := machine.advance turn
  let luck := turn.luck
  match phase with
  | .writing writing =>
    match lock luck.locked machine.hub.file with
    | none => (machine, .ended)
    | some found =>
      match writing.edit hashToken found machine.clock with
      | none => (machine, .ended)
      | some left =>
        if luck.written then
          ({ machine with hub := { machine.hub with file := left.toJsonString } }, .ended)
        else (machine, .ended)
  | .typed asked =>
    match lock luck.readable machine.hub.file with
    | none => (machine, .ended)
    | some state =>
      match plan state asked machine.clock with
      | .error _ => (machine, .ended)
      | .ok (.notDue _) => (machine, .ended)
      | .ok plan => (machine, .planned asked machine.clock state plan)
  | .planned asked now state plan =>
    match machine.tryAcquire i luck with
    | .error _ => (machine, .ended)
    | .ok none => (machine, .ended)
    | .ok (some machine) => (machine, .asking asked now state plan)
  | .asking asked now state plan =>
    if plan = .pushRecord then
      match luck.pushed with
      | .error _ => (machine.release machine.hub, .ended)
      | .ok pushed => (machine, .pushed pushed)
    else
      match order state plan asked paths now machine.hub.disk luck with
      | (.error _, disk, _) => (machine.release { machine.hub with disk := disk }, .ended)
      | (.ok ordered, disk, _) =>
        ({ machine with hub := { machine.hub with disk := disk } },
          .answered asked now state plan ordered machine.hub.disk)
  | .pushed pushed =>
    match lock luck.locked machine.hub.file with
    | none => (machine.release machine.hub, .ended)
    | some found =>
      if luck.written then
        (machine.release { machine.hub with file := (remember found pushed).toJsonString }, .ended)
      else (machine.release machine.hub, .ended)
  | .answered asked now state _ ordered before =>
    let (_, hub) := Renew.commit machine.hub before state.tls asked paths now ordered luck
    (machine.release hub, .ended)
  | .watching loop =>
    match lock luck.readable machine.hub.file with
    | none => (machine, .watching (look loop machine.clock (.error "state")).2)
    | some state =>
      let (step, loop) := look loop machine.clock (.ok state.tls)
      if step = .renew then (machine, .due loop state.tls) else (machine, .watching loop)
  | .due loop tls =>
    match machine.tryAcquire i luck with
    | .error detail => (machine, missed loop machine.clock tls (.localTo detail))
    | .ok none => (machine, missed loop machine.clock tls .busy)
    | .ok (some machine) => (machine, .holding loop tls)
  | .holding loop tls =>
    match lock luck.readable machine.hub.file with
    | none => (machine.release machine.hub, missed loop machine.clock tls (.localTo "state"))
    | some state => (machine, .renewing loop tls machine.clock state)
  | .renewing loop tls now state =>
    match orderOnce classify state paths machine.hub.disk luck with
    | (.error e, disk, _) =>
      (machine.release { machine.hub with disk := disk }, missed loop machine.clock tls e)
    | (.ok renewed, disk, _) =>
      ({ machine with hub := { machine.hub with disk := disk } },
        .renewed loop tls now state renewed)
  | .renewed loop tls now state renewed =>
    match commitOnce machine.hub state.tls now renewed luck with
    | (.error e, hub) => (machine.release hub, missed loop machine.clock tls e)
    | (.ok (), hub) => (machine.release hub, .watching { loop with renewals := .new })
  | .ended => (machine, .ended)

/-- What is noted of a step. -/
def note (i : ι) (phase : Phase) (turn : Turn) (machine : Machine ι) : Option (Note ι) :=
  let machine := machine.advance turn
  let luck := turn.luck
  match phase with
  | .writing writing =>
    match lock luck.locked machine.hub.file with
    | none => none
    | some found =>
      if (writing.edit hashToken found machine.clock).isSome && luck.written then
        some (.committed i (.wrote writing machine.clock))
      else none
  | .typed asked =>
    match lock luck.readable machine.hub.file with
    | none => none
    | some state =>
      match plan state asked machine.clock with
      | .error _ => none
      | .ok (.notDue _) => none
      | .ok _ => some (.read i state)
  | .asking asked now state plan =>
    match plan with
    | .reissue _ =>
      match order state plan asked paths now machine.hub.disk luck with
      | (.error _, _, _) => some (.ordered i state none)
      | (.ok ordered, _, _) => some (.ordered i state ordered.issued)
    | _ => none
  | .pushed pushed =>
    if (lock luck.locked machine.hub.file).isSome && luck.written then
      some (.committed i (.pushed pushed))
    else none
  | .answered asked now state _ ordered before =>
    match Renew.commit machine.hub before state.tls asked paths now ordered luck with
    | (.ok (), _) => some (.committed i (.concluded asked now ordered luck.loaded))
    | (.error _, _) => none
  | .holding _ _ => (lock luck.readable machine.hub.file).map (.read i)
  | .renewing _ _ _ state =>
    match orderOnce classify state paths machine.hub.disk luck with
    | (.error _, _, _) => some (.ordered i state none)
    | (.ok renewed, _, _) => some (.ordered i state (some renewed))
  | .renewed _ _ now state renewed =>
    match commitOnce machine.hub state.tls now renewed luck with
    | (.ok (), _) => some (.committed i (.recorded renewed now))
    | (.error _, _) => none
  | _ => none

/-- The phase is about to place an order for this snapshot. -/
def Phase.Orders (phase : Phase) (snapshot : ServerState) : Prop :=
  (∃ asked now why, phase = .asking asked now snapshot (.reissue why)) ∨
    ∃ loop tls now, phase = .renewing loop tls now snapshot

/-- A phase between two attempts, or after the last one. -/
def Phase.Rests (phase : Phase) : Prop := phase = .ended ∨ ∃ loop, phase = .watching loop

/-- A phase before the issuance lock, and the one that holds it. -/
def Phase.Enters (phase next : Phase) : Prop :=
  (∃ asked now state plan, phase = .planned asked now state plan ∧
    next = .asking asked now state plan) ∨
    ∃ loop tls, phase = .due loop tls ∧ next = .holding loop tls

def Machine.files (machine : Machine ι) (hub : Renew.Hub) : Machine ι := { machine with hub := hub }

/-- All a step can come to, from the machine with its clock advanced. -/
inductive Took (i : ι) (phase : Phase) (machine : Machine ι) :
    Option (Note ι) → Machine ι × Phase → Prop
  | rests {next : Phase} : phase.holds = false → next.Rests →
    Took i phase machine none (machine, next)
  | wrote {writing : Writing} {found left : ServerState} : phase = .writing writing →
    ServerState.parse machine.hub.file = .ok found →
    writing.edit hashToken found machine.clock = some left →
    Took i phase machine (some (.committed i (.wrote writing machine.clock)))
      (machine.files { machine.hub with file := left.toJsonString }, .ended)
  | planned {asked : ServerRenew} {state : ServerState} {plan : Plan} : phase = .typed asked →
    ServerState.parse machine.hub.file = .ok state →
    Renew.plan state asked machine.clock = .ok plan →
    Took i phase machine (some (.read i state)) (machine, .planned asked machine.clock state plan)
  | looked {loop loop' : Loop} {state : ServerState} : phase = .watching loop →
    ServerState.parse machine.hub.file = .ok state →
    state.tls.needsRenewal machine.clock Schedule.renewalLeadSecs = true →
    Took i phase machine none (machine, .due loop' state.tls)
  | acquired {next : Phase} : phase.Enters next → machine.issuing = none →
    Took i phase machine none ({ machine with issuing := some i }, next)
  | read {loop : Loop} {tls : Tls} {state : ServerState} : phase = .holding loop tls →
    ServerState.parse machine.hub.file = .ok state →
    Took i phase machine (some (.read i state)) (machine, .renewing loop tls machine.clock state)
  | released {next : Phase} {disk : Disk} {noted : Option (Note ι)} : phase.holds = true →
    next.Rests →
    noted = none ∨ (∃ snapshot, phase.Orders snapshot ∧ noted = some (.ordered i snapshot none)) →
    Took i phase machine noted (machine.release { machine.hub with disk := disk }, next)
  | pushing {asked : ServerRenew} {now : Int64} {state : ServerState} {pushed : Pushed} :
    phase = .asking asked now state .pushRecord →
    Took i phase machine none (machine, .pushed pushed)
  | settled {asked : ServerRenew} {now : Int64} {state : ServerState} {plan : Plan}
    {ordered : Ordered} : phase = .asking asked now state plan → ordered.issued = none →
    plan ≠ .pushRecord → (∀ why, plan ≠ .reissue why) → Took i phase machine none
      (machine, .answered asked now state plan ordered machine.hub.disk)
  | ordered {asked : ServerRenew} {now : Int64} {state : ServerState} {why : Why}
    {ordered : Ordered} {renewed : Renewed} {disk : Disk} :
    phase = .asking asked now state (.reissue why) → ordered.issued = some renewed →
    Took i phase machine (some (.ordered i state (some renewed)))
      (machine.files { machine.hub with disk := disk },
        .answered asked now state (.reissue why) ordered machine.hub.disk)
  | renewed {loop : Loop} {tls : Tls} {now : Int64} {state : ServerState} {renewed : Renewed}
    {disk : Disk} : phase = .renewing loop tls now state →
    Took i phase machine (some (.ordered i state (some renewed)))
      (machine.files { machine.hub with disk := disk }, .renewed loop tls now state renewed)
  | pushed {push : Pushed} {found : ServerState} : phase = .pushed push →
    ServerState.parse machine.hub.file = .ok found →
    Took i phase machine (some (.committed i (.pushed push)))
      (machine.release { machine.hub with file := (remember found push).toJsonString }, .ended)
  | concluded {asked : ServerRenew} {now : Int64} {state found left : ServerState} {plan : Plan}
    {ordered : Ordered} {before : Disk} {loaded : Except String (Option Int64)} :
    phase = .answered asked now state plan ordered before →
    ServerState.parse machine.hub.file = .ok found →
    conclude found state.tls asked paths now ordered loaded = .ok left →
    Took i phase machine (some (.committed i (.concluded asked now ordered loaded)))
      (machine.release { machine.hub with file := left.toJsonString }, .ended)
  | recorded {loop : Loop} {tls : Tls} {now : Int64} {state found : ServerState} {renewed : Renewed}
    {next : Phase} : phase = .renewed loop tls now state renewed →
    ServerState.parse machine.hub.file = .ok found → found.tls = state.tls → next.Rests →
    Took i phase machine (some (.committed i (.recorded renewed now)))
      (machine.release { machine.hub with file := (record found renewed now).toJsonString }, next)

omit [Unicode] [Format] in
theorem tryAcquire_cases (machine : Machine ι) (i : ι) (luck : Luck) :
    (∃ detail, machine.tryAcquire i luck = .error detail) ∨ machine.tryAcquire i luck = .ok none ∨
      machine.issuing = none ∧
        machine.tryAcquire i luck = .ok (some { machine with issuing := some i }) := by
  rw [Machine.tryAcquire]
  split
  · exact Or.inl ⟨_, rfl⟩
  · cases hissuing : machine.issuing with
    | none => exact Or.inr (Or.inr ⟨rfl, by simp⟩)
    | some j => exact Or.inr (Or.inl (by simp))

omit [Format] in
theorem missed_rests (loop : Loop) (now : Int64) (tls : Tls) (failure : RenewalFailure) :
    (missed loop now tls failure).Rests := Or.inr ⟨_, rfl⟩

omit [Unicode] [Format] in
theorem look_renew {loop : Loop} {now : Int64} {tls : Tls}
    (h : (look loop now (.ok tls)).1 = .renew) :
    tls.needsRenewal now Schedule.renewalLeadSecs = true := by
  rw [look] at h
  exact (tick_eq_renew.mp h).1

theorem act_took (i : ι) (phase : Phase) (turn : Turn) (machine : Machine ι) :
    Took hashToken paths i phase (machine.advance turn)
      (note classify hashToken paths i phase turn machine)
      (act classify hashToken paths i phase turn machine) := by
  rw [note.eq_def, act.eq_def]
  generalize machine.advance turn = machine
  have ended : Phase.ended.Rests := Or.inl rfl
  cases phase with
  | writing writing =>
    have rests : Took hashToken paths i (.writing writing) machine none (machine, .ended) :=
      .rests rfl ended
    simp only
    cases hlock : lock turn.luck.locked machine.hub.file with
    | none => exact rests
    | some found =>
      cases hedit : writing.edit hashToken found machine.clock with
      | none =>
        simp only [hedit]
        exact rests
      | some left =>
        simp only [hedit]
        cases turn.luck.written with
        | false => exact rests
        | true => exact .wrote rfl (lock_eq_some hlock) hedit
  | typed asked =>
    simp only
    cases hlock : lock turn.luck.readable machine.hub.file with
    | none => exact .rests rfl ended
    | some state =>
      simp only
      split
      · exact .rests rfl ended
      · exact .rests rfl ended
      · next plan _ hplan => exact .planned rfl (lock_eq_some hlock) hplan
  | planned asked now state plan =>
    simp only
    rcases tryAcquire_cases machine i turn.luck with ⟨_, h⟩ | h | ⟨free, h⟩
    · rw [h]
      exact .rests rfl ended
    · rw [h]
      exact .rests rfl ended
    · rw [h]
      exact .acquired (Or.inl ⟨_, _, _, _, rfl, rfl⟩) free
  | asking asked now state plan =>
    simp only
    by_cases hpush : plan = .pushRecord
    · subst hpush
      simp only [if_true]
      cases turn.luck.pushed with
      | error e => exact .released rfl ended (Or.inl rfl)
      | ok pushed => exact .pushing rfl
    rw [if_neg hpush]
    rcases order_cases state plan asked paths now machine.hub.disk turn.luck with
      ⟨e, disk, calls, h⟩ | ⟨keeping, other, h⟩ | ⟨why, keeping, issued, disk, calls, rfl, h⟩
    · rw [h]
      refine .released rfl ended ?_
      cases plan with
      | reissue why => exact Or.inr ⟨state, Or.inl ⟨_, _, _, rfl⟩, rfl⟩
      | _ => exact Or.inl rfl
    · rw [h]
      have quiet : Took hashToken paths i (.asking asked now state plan) machine none
          (machine, .answered asked now state plan ⟨keeping, none⟩ machine.hub.disk) :=
        .settled rfl rfl hpush other
      cases plan with
      | reissue why => exact absurd rfl (other why)
      | _ => exact quiet
    · rw [h]
      exact .ordered rfl rfl
  | answered asked now state plan ordered before =>
    simp only
    rcases commit_cases machine.hub before state.tls asked paths now ordered turn.luck with
      ⟨e, h⟩ | ⟨found, left, hfound, _, _, hleft, h⟩
    · rw [h]
      exact .released rfl ended (Or.inl rfl)
    · rw [h]
      exact .concluded rfl hfound hleft
  | pushed pushed =>
    simp only
    cases hlock : lock turn.luck.locked machine.hub.file with
    | none => exact .released rfl ended (Or.inl rfl)
    | some found =>
      cases hwritten : turn.luck.written with
      | false => exact .released rfl ended (Or.inl rfl)
      | true => exact .pushed rfl (lock_eq_some hlock)
  | watching loop =>
    simp only
    cases hlock : lock turn.luck.readable machine.hub.file with
    | none => exact .rests rfl (Or.inr ⟨_, rfl⟩)
    | some state =>
      simp only
      split
      · next renew => exact .looked rfl (lock_eq_some hlock) (look_renew renew)
      · exact .rests rfl (Or.inr ⟨_, rfl⟩)
  | due loop tls =>
    simp only
    rcases tryAcquire_cases machine i turn.luck with ⟨_, h⟩ | h | ⟨free, h⟩
    · rw [h]
      exact .rests rfl (missed_rests _ _ _ _)
    · rw [h]
      exact .rests rfl (missed_rests _ _ _ _)
    · rw [h]
      exact .acquired (Or.inr ⟨_, _, rfl, rfl⟩) free
  | holding loop tls =>
    simp only
    cases hlock : lock turn.luck.readable machine.hub.file with
    | none => exact .released rfl (missed_rests _ _ _ _) (Or.inl rfl)
    | some state => exact .read rfl (lock_eq_some hlock)
  | renewing loop tls now state =>
    simp only
    rcases orderOnce classify state paths machine.hub.disk turn.luck with ⟨result, disk, calls⟩
    cases result with
    | error e =>
      exact .released rfl (missed_rests _ _ _ _) (Or.inr ⟨state, Or.inr ⟨_, _, _, rfl⟩, rfl⟩)
    | ok renewed => exact .renewed rfl
  | renewed loop tls now state renewed =>
    simp only
    rcases commitOnce_cases machine.hub state.tls now renewed turn.luck with
      ⟨e, h⟩ | ⟨found, hfound, same, h⟩
    · rw [h]
      exact .released rfl (missed_rests _ _ _ _) (Or.inl rfl)
    · rw [h]
      exact .recorded rfl hfound same (Or.inr ⟨_, rfl⟩)
  | ended => exact .rests rfl ended

end RenewProcesses
