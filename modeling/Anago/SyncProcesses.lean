import Anago.SyncHistory

/-!
# Syncs that overlap

The timer comes round while somebody types the command: any number of runs of `anago sync`
over the same files, one atomic step at a time.
-/

open StdText DecimalText Json Proto WgConf Program Interleaving CriticalSections

namespace Sync

section
variable [Unicode] {ι : Type} {places : Places} {turn : Turn} {i : ι}

/-- The ending of a run that never had the lock. -/
def NoVerdict (x : Outcome SyncError Verdict) : Prop := ∀ verdict, x ≠ .ok verdict

/-- What is done under the lock keeps it. -/
theorem keeps_locked (config : DeviceConfig) (own : Local) :
    Keeps Machine.syncing i
      (locked places turn config own : Program (Machine ι) SyncError Verdict) := by
  refine Keeps.bind (Keeps.look _) fun judged => Keeps.bind ?_ fun _ => trivial
  obtain ⟨verdict, reported⟩ := judged
  cases verdict with
  | unchanged => trivial
  | unverifiable => trivial
  | detached detachment => trivial
  | rewrite changes =>
    refine Keeps.bind (Keeps.look _) fun new => ?_
    refine Keeps.bind (Keeps.alter fun _ held => held) fun _ => ?_
    refine Keeps.bind (Keeps.look _) fun stripped => ?_
    refine Keeps.bind (Keeps.alter fun _ held => held) fun _ => ?_
    refine Keeps.bind
      (Keeps.ensuring (Keeps.alter fun _ held => held) fun _ held => held) fun _ => ?_
    exact Keeps.alter fun _ held => held

/-- At the lock: it is taken, or the run ends without a verdict. -/
theorem outside_withLock (config : DeviceConfig) (own : Local) :
    Outside Machine.syncing NoVerdict i
      (withLock places turn i (locked places turn config own)) := by
  rw [withLock, Outside]
  intro machine
  cases lock : turn.lock with
  | some detail =>
    refine Or.inl ⟨if_neg fun h => (by cases h.1), trivial, fun x hx => ?_⟩
    cases hx
    exact fun _ h => by cases h
  | none =>
    cases held : machine.syncing with
    | some j =>
      simp only [held, Option.isNone_some, Bool.false_eq_true, and_false, if_false]
      refine Or.inl ⟨trivial, trivial, fun x hx => ?_⟩
      cases hx
      exact fun _ h => by cases h
    | none =>
      simp only [Option.isNone_none, and_self, if_true]
      exact Or.inr ⟨trivial, trivial, Inside.ensuring (keeps_locked config own) fun _ => rfl⟩

/-- A run reads, and comes to the lock. -/
theorem outside_attempt : Outside Machine.syncing NoVerdict i (attempt places turn i) := by
  have bare : ∀ (x : Outcome SyncError Verdict), NoVerdict x →
      Outside Machine.syncing NoVerdict i (ret x : Program (Machine ι) SyncError Verdict) ∧
        ∀ y, (ret x : Program (Machine ι) SyncError Verdict) = ret y → NoVerdict y :=
    fun x hx => ⟨trivial, fun y hy => (by cases hy; exact hx)⟩
  have rest : ∀ read : Outcome SyncError DeviceConfig,
      let p : Program (Machine ι) SyncError Verdict := do
        let config ← ret read
        let own ← ret (.ofExcept (localOf config))
        withLock places turn i (locked places turn config own)
      Outside Machine.syncing NoVerdict i p ∧ ∀ y, p = ret y → NoVerdict y := by
    intro read
    cases read with
    | err e => exact bare _ fun _ h => by cases h
    | panic => exact bare _ fun _ h => by cases h
    | spin => exact bare _ fun _ h => by cases h
    | ok config =>
      simp only [ret_ok_bind]
      cases localOf config with
      | error e => exact bare (.err e) fun _ h => by cases h
      | ok own => exact ⟨outside_withLock config own, fun y hy => by cases hy⟩
  exact Outside.look (fun machine => (rest _).1) fun machine x => (rest _).2 x

variable [DecidableEq ι] {turns : ι → Turn}

/-- Every run is about to start. -/
abbrev starting (places : Places) (turns : ι → Turn) (machine : Machine ι) :
    World (Machine ι) ι (Program (Machine ι) SyncError Verdict) :=
  ⟨machine, fun i => attempt places (turns i) i⟩

/-- A run that takes the lock finds the device file as it read it. -/
def Current (places : Places) (turns : ι → Turn)
    (world : World (Machine ι) ι (Program (Machine ι) SyncError Verdict))
    (event : ι × Unit) : Prop :=
  takes Machine.syncing event.1 (world.locals event.1) world.shared →
    ∃ config own, localOf config = .ok own ∧
      world.locals event.1 =
        withLock places (turns event.1) event.1 (locked places (turns event.1) config own) ∧
      readDevice places (turns event.1) world.shared = .ok config

omit [DecidableEq ι] in
theorem Current.fresh {world : World (Machine ι) ι (Program (Machine ι) SyncError Verdict)}
    {event : ι × Unit} (current : Current places turns world event) :
    Fresh Machine.syncing (fun i => attempt places (turns i) i) world event := by
  intro takes
  obtain ⟨config, own, hown, heq, hread⟩ := current takes
  have alone : (attempt places (turns event.1) event.1).exec world.shared =
      (withLock places (turns event.1) event.1 (locked places (turns event.1) config own)).exec
        world.shared := by
    rw [attempt, exec_look_bind, hread, ret_ok_bind, hown]
    rfl
  rw [heq, alone]

omit [DecidableEq ι] in
theorem serial_free {machine : Machine ι} (free : machine.syncing = none) (order : List ι) :
    (serial (fun i => attempt places (turns i) i) machine order).syncing = none := by
  induction order generalizing machine with
  | nil => exact free
  | cons i order ih =>
    exact ih (free_attempt places (turns i) i free)

/-- Runs that overlap come out as runs one after the other, in the order in which they got the
lock, and `unchanged` is what the device file and the hub say at that moment; provided that
no device file changes between being read and the lock. -/
theorem overlapping_syncs {machine : Machine ι} (free : machine.syncing = none)
    {events : List (ι × Unit)}
    (current : Runs.Along (step act) (Current places turns)
      (starting places turns machine) events) :
    let start := fun i => attempt places (turns i) i
    let order := order Machine.syncing (starting places turns machine) events
    let final := run act (starting places turns machine) events
    order.Nodup ∧ (final.shared.syncing = none → final.shared = serial start machine order) ∧
      ∀ before i after, events = before ++ (i, ()) :: after →
        let now := run act (starting places turns machine) before
        (∀ x, now.locals i ≠ ret x) →
          ((now.locals i).act i () now.shared).2 = ret (.ok .unchanged) →
            Confirms places (turns i) ((now.locals i).act i () now.shared).1 := by
  intro start order final
  have fresh : ∀ {events}, Runs.Along (step act) (Current places turns)
      (starting places turns machine) events →
      Runs.Along (step act) (Fresh Machine.syncing start) (starting places turns machine) events :=
    fun along => along.mono fun _ _ current => current.fresh
  obtain ⟨hserial, honce⟩ := serial_run free (fun _ => outside_attempt) (fresh current)
  refine ⟨honce.nodup, hserial.free, ?_⟩
  intro before i after split now running ends
  subst split
  obtain ⟨sofar, _⟩ := serial_run free (fun _ => outside_attempt) (fresh current.before)
  rcases sofar.ending running ends with none | ⟨earlier, _, alone⟩
  · exact absurd rfl (none .unchanged)
  · have idle : (serial start machine earlier).syncing = none := serial_free free earlier
    obtain ⟨confirms, same⟩ := confirms_of_unchanged idle (congrArg Prod.fst alone)
    have there := (congrArg Prod.snd alone).symm.trans same
    exact (congrArg (Confirms places (turns i)) there).mpr confirms

end

/-- The runs of the samples: one meets the moved hub, the other the hub as it was. -/
def sampleTurns (moved : Bool) : Turn := sampleTurn moved none

def samplePlaces : Places := ⟨"device.json", "sync.lock", "anago.conf", "anago.conf.stripped"⟩

/-- The sample device right after its join. -/
def sampleMachine : Machine Bool :=
  ⟨some sampleConfig.toJsonString, some (clientConfig (sampleProfile false)).expose, none,
    some (clientConfig (sampleProfile false)).expose, none⟩

theorem localOf_sample : letI := asciiTables
    localOf sampleConfig = .ok sampleOwn := by decide +kernel

/-- The run that reads first, once it has read. -/
theorem read_sample (moved : Bool) {machine : Machine Bool}
    (device : machine.device = some sampleConfig.toJsonString) :
    letI := asciiTables
    (attempt samplePlaces (sampleTurns moved) moved).act moved () machine =
      (machine, withLock samplePlaces (sampleTurns moved) moved
        (locked samplePlaces (sampleTurns moved) sampleConfig sampleOwn)) := by
  let := asciiTables
  have port : sampleConfig.apiPort ≠ 0 := by decide
  have hread := @readDevice_written _ _ samplePlaces (sampleTurns moved) machine
    sampleConfig rfl port device
  have next :
      ((ret (readDevice samplePlaces (sampleTurns moved) machine) : Program (Machine Bool) _ _) >>=
      fun config => (ret (.ofExcept (localOf config)) : Program (Machine Bool) _ _) >>= fun own =>
        withLock samplePlaces (sampleTurns moved) moved
          (locked samplePlaces (sampleTurns moved) config own)) =
      withLock samplePlaces (sampleTurns moved) moved
        (locked samplePlaces (sampleTurns moved) sampleConfig sampleOwn) := by
    rw [hread, ret_ok_bind, localOf_sample]
    rfl
  exact congrArg (Prod.mk machine) next

/-- The other run: the hub has moved, and all three places follow. -/
theorem moved_sample {machine : Machine Bool} (free : machine.syncing = none)
    (device : machine.device = some sampleConfig.toJsonString)
    (file : machine.config = some (clientConfig (sampleProfile false)).expose) :
    letI := asciiTables
    (attempt samplePlaces (sampleTurns true) true).exec machine =
      (.ok (.rewrite ⟨false, true, false⟩),
        ⟨some (updated sampleConfig (some (sampleReported true))).toJsonString,
          some (clientConfig (sampleProfile true)).expose, none,
          some (clientConfig (sampleProfile true)).expose, none⟩) := by
  let := asciiTables
  rw [exec_attempt samplePlaces _ true free, sampleTurns,
    plan_sample true none device file rfl samplePlaces]
  rfl

/-- What the first run comes to with what it read. -/
theorem stale_sample {machine : Machine Bool} (free : machine.syncing = none) :
    letI := asciiTables
    (withLock samplePlaces (sampleTurns false) false
      (locked samplePlaces (sampleTurns false) sampleConfig sampleOwn)).exec machine =
        (.ok .unchanged, machine) := by
  let := asciiTables
  have again : ({ machine with syncing := none } : Machine Bool) = machine := by rw [← free]
  have judged := judge_sample false none
  rw [exec_withLock rfl free, locked, exec_look_bind, sampleTurns, judged]
  exact congrArg (Prod.mk _) again

/-- What a confirmed device file says of the endpoint. -/
theorem endpoint_of_confirms [Unicode] {ι : Type} {places : Places} {turn : Turn}
    {machine : Machine ι} {config : DeviceConfig}
    (device : machine.device = some config.toJsonString) (confirms : Confirms places turn machine) :
    ∃ response known, askHub config turn.reply = .ok response ∧
      reportedOf response = .ok (some known) ∧ known.serverEndpoint = config.serverEndpoint := by
  obtain ⟨config', own, response, known, roster, hread, hown, hask, hreported, _,
    agrees, _⟩ := confirms
  obtain ⟨text, hdevice, hparse⟩ := readDevice_eq_ok hread
  cases device.symm.trans hdevice
  cases DeviceConfig.eq_of_parse hparse
  exact ⟨response, known, hask, hreported, agrees.2.2.1.trans (localOf_eq_ok hown).2.2.2.1⟩

theorem unconfirmed_sample {machine : Machine Bool}
    (device : machine.device =
      some (updated sampleConfig (some (sampleReported true))).toJsonString) :
    letI := asciiTables
    ¬Confirms samplePlaces (sampleTurns false) machine := by
  let := asciiTables
  intro confirms
  obtain ⟨response, known, hask, hreported, endpoint⟩ := endpoint_of_confirms device confirms
  have token : DeviceToken.parse (updated sampleConfig (some (sampleReported true))).token =
      .ok (.sample 'a' rfl) := by decide +kernel
  cases (askHub_written token (sampleRoster false)).symm.trans hask
  have reported : reportedOf (sampleRoster false) = .ok (some (sampleReported false)) := by
    decide +kernel
  cases reported.symm.trans hreported
  revert endpoint
  decide

/-- A sample run that has read, from the lock to its end. -/
theorem section_sample (moved : Bool)
    {world : letI := asciiTables; World (Machine Bool) Bool
      (Program (Machine Bool) SyncError Verdict)}
    (device : world.shared.device = some sampleConfig.toJsonString)
      (free : world.shared.syncing = none)
    (here : letI := asciiTables; world.locals moved =
      withLock samplePlaces (sampleTurns moved) moved
      (locked samplePlaces (sampleTurns moved) sampleConfig sampleOwn)) :
    letI := asciiTables
    ∃ n, let after := run act world (List.replicate (n + 1) (moved, ()))
      Runs.Along (step act) (Current samplePlaces sampleTurns) world
        (List.replicate (n + 1) (moved, ())) ∧
        order Machine.syncing world (List.replicate (n + 1) (moved, ())) = [moved] ∧
        (∀ j, j ≠ moved → after.locals j = world.locals j) ∧
        after.locals moved = ret ((world.locals moved).exec world.shared).1 ∧
        after.shared = ((world.locals moved).exec world.shared).2 ∧
        ∀ x, (run act world (List.replicate n (moved, ()))).locals moved ≠ ret x := by
  let := asciiTables
  have reads : readDevice samplePlaces (sampleTurns moved) world.shared = .ok sampleConfig :=
    readDevice_written rfl (by decide : sampleConfig.apiPort ≠ 0) device
  obtain ⟨n, running, others, ends⟩ := run_alone moved world fun x hx => by
    rw [here] at hx; cases hx
  have takes : takes Machine.syncing moved (world.locals moved) world.shared := by
    refine ⟨free, ?_⟩
    rw [here, withLock, act]
    simp only [sampleTurns, sampleTurn, free, Option.isNone_none, and_self, if_true]
  have inside : Inside Machine.syncing moved ((step act world (moved, ())).locals moved) := by
    have own := step_own act world (moved, ())
    rw [here, withLock, act] at own
    simp only [sampleTurns, sampleTurn, free, Option.isNone_none, if_true] at own
    rw [own]
    exact Inside.ensuring (keeps_locked _ _) fun _ => rfl
  have quiet := quiet_alone n (.inl ⟨takes.2, inside⟩)
  have last : run act world (List.replicate (n + 1) (moved, ())) =
      step act (run act world (List.replicate n (moved, ()))) (moved, ()) := by
    rw [List.replicate_succ', run, Runs.run_append]
    rfl
  refine ⟨n, ⟨fun _ => ⟨sampleConfig, sampleOwn, localOf_sample, here, reads⟩,
    quiet.mono fun _ _ none takes => absurd takes none⟩, ?_, fun j hj => ?_, ?_, ?_, running⟩
  · rw [List.replicate_succ, order, log, Runs.log_cons, noted, taken, if_pos takes]
    exact congrArg (moved :: ·) (order_quiet quiet)
  · rw [last]
    exact (step_other act _ (moved, ()) hj).trans (others j hj)
  · rw [last]
    exact (step_own act _ (moved, ())).trans (congrArg Prod.snd ends)
  · rw [last]
    exact congrArg Prod.fst ends

/-- Both runs read; the first finds nothing to do, and the second follows the hub. -/
theorem overlapping_syncs_sample :
    letI := asciiTables
    ∃ n m,
      let events := (false, ()) :: (true, ()) :: List.replicate n (false, ())
      let events' := events ++ List.replicate m (true, ())
      let start := fun i => attempt samplePlaces (sampleTurns i) i
      let world := starting samplePlaces sampleTurns sampleMachine
      let quiet := run act world events
      let final := run act world events'
      order Machine.syncing world events' = [false, true] ∧ final.shared.syncing = none ∧
        final.shared = serial start sampleMachine [false, true] ∧
        quiet.locals false = ret (.ok .unchanged) ∧
        Confirms samplePlaces (sampleTurns false) quiet.shared ∧
        final.locals true = ret (.ok (.rewrite ⟨false, true, false⟩)) ∧
        final.shared.device =
          some (updated sampleConfig (some (sampleReported true))).toJsonString := by
  let := asciiTables
  let world := starting samplePlaces sampleTurns sampleMachine
  -- both read
  let one := step act world (false, ())
  let two := step act one (true, ())
  have first := read_sample false (rfl : sampleMachine.device = _)
  have second := read_sample true (rfl : sampleMachine.device = _)
  have shared₁ : one.shared = sampleMachine := congrArg Prod.fst first
  have true₁ : one.locals true = attempt samplePlaces (sampleTurns true) true :=
    step_other act world (false, ()) (by decide)
  have shared₂ : two.shared = sampleMachine := by
    rw [show two.shared = _ from step_shared act one (true, ()), true₁, shared₁]
    exact congrArg Prod.fst second
  have false₂ : two.locals false = _ :=
    (step_other act one (true, ()) (by decide)).trans
      ((step_own act world (false, ())).trans (congrArg Prod.snd first))
  have true₂ : two.locals true = withLock samplePlaces (sampleTurns true) true
      (locked samplePlaces (sampleTurns true) sampleConfig sampleOwn) := by
    rw [show two.locals true = _ from step_own act one (true, ()), true₁, shared₁]
    exact congrArg Prod.snd second
  -- the first takes the lock and comes to its end, and then the second
  obtain ⟨n, along₁, order₁, others₁, ends₁, shared₃, running⟩ :=
    section_sample false (by rw [shared₂]; rfl) (by rw [shared₂]; rfl) false₂
  rw [false₂, shared₂, stale_sample rfl] at ends₁ shared₃
  have true₃ := (others₁ true (by decide)).trans true₂
  obtain ⟨m, along₂, order₂, others₂, ends₂, shared₄, -⟩ :=
    section_sample true (by rw [shared₃]; rfl) (by rw [shared₃]; rfl) true₃
  have alone := moved_sample (rfl : sampleMachine.syncing = none) rfl rfl
  rw [← exec_act true, second] at alone
  rw [true₃, shared₃, alone] at ends₂ shared₄
  have reading : ∀ {world : World (Machine Bool) Bool (Program (Machine Bool) SyncError Verdict)}
      {moved : Bool}, (step act world (moved, ())).shared.syncing = none →
      ¬takes Machine.syncing moved (world.locals moved) world.shared := by
    intro world moved free takes
    cases takes.2.symm.trans free
  have not₁ : ¬takes Machine.syncing false (world.locals false) world.shared :=
    reading (by rw [show step act world (false, ()) = one from rfl, shared₁]; rfl)
  have not₂ : ¬takes Machine.syncing true (one.locals true) one.shared :=
    reading (by rw [show step act one (true, ()) = two from rfl, shared₂]; rfl)
  let events := (false, ()) :: (true, ()) :: List.replicate (n + 1) (false, ())
  let events' := events ++ List.replicate (m + 1) (true, ())
  have current : Runs.Along (step act) (Current samplePlaces sampleTurns) world events' :=
    ⟨fun takes => absurd takes not₁, fun takes => absurd takes not₂, along₁.append along₂⟩
  have both : order Machine.syncing two (List.replicate (n + 1) (false, ()) ++
      List.replicate (m + 1) (true, ())) = [false, true] := by
    rw [order, log, Runs.log_append]
    exact congrArg₂ (· ++ ·) order₁ order₂
  have got : order Machine.syncing world events' = [false, true] :=
    (order_pass not₁ _).trans ((order_pass not₂ _).trans both)
  have final : run act world events' = run act (run act two (List.replicate (n + 1) (false, ())))
      (List.replicate (m + 1) (true, ())) :=
    Runs.run_append _ _ (List.replicate (n + 1) (false, ())) _
  obtain ⟨-, together, confirms⟩ := overlapping_syncs rfl current
  have free : (run act world events').shared.syncing = none := by
    rw [final, shared₄]
  have split : events' = ((false, ()) :: (true, ()) :: List.replicate n (false, ())) ++
      (false, ()) :: List.replicate (m + 1) (true, ()) := by
    rw [show events' = (false, ()) :: (true, ()) :: (List.replicate (n + 1)
      (false, ()) ++ _) from rfl, List.replicate_succ']
    simp
  have last : run act two (List.replicate (n + 1) (false, ())) =
      step act (run act two (List.replicate n (false, ()))) (false, ()) := by
    rw [List.replicate_succ', run, Runs.run_append]
    rfl
  have confirmed := confirms _ false _ split running
  rw [got] at together
  refine ⟨n + 1, m + 1, got, free, together free, ends₁, ?_, ?_, ?_⟩
  · have there := congrArg World.shared last
    rw [step_shared] at there
    rw [show run act world events = run act two (List.replicate (n + 1)
      (false, ())) from rfl, there]
    have own : (run act two (List.replicate (n + 1) (false, ()))).locals false = _ :=
      (congrArg (fun world => world.locals false) last).trans (step_own act _ (false, ()))
    exact confirmed (own.symm.trans ends₁)
  · rw [final]
    exact ends₂
  · rw [final, shared₄]

/-- One run reads; the other follows the hub to its new endpoint; the hub moves back. -/
theorem overlapping_syncs_stale :
    letI := asciiTables
    ¬∀ (places : Places) (turns : Bool → Turn) (machine : Machine Bool), machine.syncing = none →
      ∀ events : List (Bool × Unit),
        let start := fun i => attempt places (turns i) i
        let order := order Machine.syncing (starting places turns machine) events
        let final := run act (starting places turns machine) events
        order.Nodup ∧ (final.shared.syncing = none → final.shared = serial start machine order) ∧
          ∀ before i after, events = before ++ (i, ()) :: after →
            let now := run act (starting places turns machine) before
            (∀ x, now.locals i ≠ ret x) →
              ((now.locals i).act i () now.shared).2 = ret (.ok .unchanged) →
                Confirms places (turns i) ((now.locals i).act i () now.shared).1 := by
  let := asciiTables
  intro claim
  let world := starting samplePlaces sampleTurns sampleMachine
  let stale := withLock samplePlaces (sampleTurns false) false
    (locked samplePlaces (sampleTurns false) sampleConfig sampleOwn)
  have first := read_sample false (rfl : sampleMachine.device = _)
  let read := step act world (false, ())
  have hread : read.shared = sampleMachine ∧ read.locals false = stale ∧
      read.locals true = attempt samplePlaces (sampleTurns true) true :=
    ⟨congrArg Prod.fst first, (step_own act world (false, ())).trans (congrArg Prod.snd first),
      step_other act world (false, ()) (by decide)⟩
  obtain ⟨shared, hfalse, htrue⟩ := hread
  obtain ⟨n, _, others, ends⟩ := run_alone true read (fun y hy => by rw [htrue] at hy; cases hy)
  let last := run act read (List.replicate n (true, ()))
  let moved := step act last (true, ())
  have there := moved_sample (rfl : sampleMachine.syncing = none) rfl rfl
  have hmoved : moved.shared =
      ⟨some (updated sampleConfig (some (sampleReported true))).toJsonString,
        some (clientConfig (sampleProfile true)).expose, none,
        some (clientConfig (sampleProfile true)).expose, none⟩ := by
    have now := congrArg Prod.fst ends
    rw [htrue, shared, there] at now
    exact now
  have hstale : moved.locals false = stale :=
    (step_other act last (true, ()) (by decide)).trans ((others false (by decide)).trans hfalse)
  have waiting : ∀ y, withLock samplePlaces (sampleTurns false) false
      (locked samplePlaces (sampleTurns false) sampleConfig sampleOwn) ≠ ret y := fun y hy => by
        cases hy
  obtain ⟨k, running, _, final⟩ := run_alone false moved fun y hy =>
    waiting y (hstale.symm.trans hy)
  have free : moved.shared.syncing = none := by rw [hmoved]
  rw [hstale, stale_sample free] at final
  have split : run act world ((false, ()) :: (List.replicate n (true, ()) ++
      (true, ()) :: List.replicate k (false, ()))) =
        run act moved (List.replicate k (false, ())) := by
    rw [run, Runs.run_cons, Runs.run_append, Runs.run_cons]
  have confirms := (claim samplePlaces sampleTurns sampleMachine rfl _).2.2
    ((false, ()) :: (List.replicate n (true, ()) ++ (true, ()) :: List.replicate k (false, ())))
    false [] rfl
  rw [show run act (starting samplePlaces sampleTurns sampleMachine) _ = _ from split] at confirms
  have confirmed := confirms running (congrArg Prod.snd final)
  rw [final] at confirmed
  refine unconfirmed_sample ?_ confirmed
  rw [hmoved]

end Sync
