import Anago.Init
import Anago.Runs
import Anago.Wg
import Anago.WgConf

/-!
# Pushing state changes into the WireGuard interface

The interface is down or holds a config text. A command that succeeds installs the
wanted config; one that fails may have left the old config, the new one or nothing.
What was last applied is remembered and never looked up, and the question is when the
memory can be trusted.
-/

open StdText WgConf

namespace WgApply

/-- What applying a change requires. -/
inductive Action where
  | sync
  | bringUp
  deriving DecidableEq, Repr

/-- What to do, given what the kernel looks like and what was last applied. -/
def plan (interfaceIsUp : Bool) (lastApplied : Option String) (wanted : String) : Option Action :=
  if !interfaceIsUp then some .bringUp
  else if lastApplied = some wanted then none
  else some .sync

/-- The config file as far as it can be read, and what the interface holds. -/
structure Machine where
  file : Option String
  interface : Option String
  deriving DecidableEq

/-- What a failed command leaves in the interface. -/
inductive Left where
  | old
  | new
  | down
  deriving DecidableEq, Repr

inductive Ran where
  | succeeded
  | failed (error : WgError) (left : Left)
  deriving DecidableEq

/-- How the parts of one apply turn out that are not up to it. -/
structure Luck where
  wrote : Except String Unit
  /-- Whether `wg show` could be run. -/
  shown : Bool
  stripped : Except WgError Unit
  scratch : Except String Unit
  command : Ran

/-- The interface anago manages, and the config of the last successful apply. -/
structure WgApplier where
  configPath : String
  /-- `config_path.with_extension("stripped")`. -/
  strippedPath : String
  lastApplied : Option SecretText
  deriving DecidableEq

/-- `wg-quick up` or `wg syncconf`, given the wanted config. -/
def runCommand (wanted : String) (ran : Ran) (machine : Machine) : Except WgError Unit × Machine :=
  match ran with
  | .succeeded => (.ok (), { machine with interface := some wanted })
  | .failed e .old => (.error e, machine)
  | .failed e .new => (.error e, { machine with interface := some wanted })
  | .failed e .down => (.error e, { machine with interface := none })

variable [Unicode]

/-- Writes the server config, returning whether the file changed. -/
def writeConfig (state : ServerState) (path : String) (wrote : Except String Unit)
    (machine : Machine) : Except WgError Bool × Machine :=
  let wanted := serverConfig state
  if machine.file = some wanted.expose then (.ok false, machine)
  else
    match wrote with
    | .error source => (.error (.spawn ("write " ++ path) source), machine)
    | .ok () => (.ok true, { machine with file := some wanted.expose })

/-- The applier with what it remembers, and the machine it works on. -/
structure System where
  applier : WgApplier
  machine : Machine
  deriving DecidableEq

/-- Writes the file, then syncs or brings the interface up. -/
def apply (system : System) (state : ServerState) (luck : Luck) : Except WgError Unit × System :=
  let applier := system.applier
  let wanted := serverConfig state
  match writeConfig state applier.configPath luck.wrote system.machine with
  | (.error e, machine) => (.error e, ⟨applier, machine⟩)
  | (.ok _, machine) =>
    let interfaceIsUp := luck.shown && machine.interface.isSome
    match plan interfaceIsUp (applier.lastApplied.map SecretText.expose) wanted.expose with
    | none => (.ok (), ⟨applier, machine⟩)
    | some action =>
      let result :=
        match action with
        | .bringUp => runCommand wanted.expose luck.command machine
        | .sync =>
          match luck.stripped with
          | .error e => (.error e, machine)
          | .ok () =>
            match luck.scratch with
            | .error source => (.error (.spawn ("write " ++ applier.strippedPath) source), machine)
            | .ok () => runCommand wanted.expose luck.command machine
      match result with
      | (.error e, machine) => (.error e, ⟨applier, machine⟩)
      -- recorded only now; a failure above leaves what was there before
      | (.ok (), machine) => (.ok (), ⟨{ applier with lastApplied := some wanted }, machine⟩)

/-- One call of `apply`. -/
structure Call where
  state : ServerState
  luck : Luck

def step (system : System) (call : Call) : System := (apply system call.state call.luck).2

abbrev run (system : System) (calls : List Call) : System := Runs.run step system calls

/-- If the call returns `Ok`, the interface holds the config of its state. -/
def Truthful (system : System) (call : Call) : Prop :=
  (apply system call.state call.luck).1 = .ok () →
    (step system call).machine.interface = some (serverConfig call.state).expose

/-- The plan of a call, as it finds the machine. -/
def planned (system : System) (call : Call) : Option Action :=
  plan (call.luck.shown && system.machine.interface.isSome)
    (system.applier.lastApplied.map SecretText.expose) (serverConfig call.state).expose

/-- The call gets as far as running its command. -/
def Reaches (system : System) (call : Call) : Prop :=
  (system.machine.file = some (serverConfig call.state).expose ∨ call.luck.wrote = .ok ()) ∧
    (planned system call = some .bringUp ∨
      planned system call = some .sync ∧ call.luck.stripped = .ok () ∧ call.luck.scratch = .ok ())

/-- The command fails but leaves its config in the interface, while another config is
remembered as applied. -/
def Misleads (system : System) (call : Call) : Prop :=
  Reaches system call ∧ (∃ e, call.luck.command = .failed e .new) ∧
    ∃ remembered, system.applier.lastApplied = some remembered ∧
      remembered ≠ serverConfig call.state

/-- The file is as wanted afterwards, or the call ends here. -/
theorem writeConfig_cases (state : ServerState) (path : String) (wrote : Except String Unit)
    (machine : Machine) :
    (∃ source, wrote = .error source ∧ machine.file ≠ some (serverConfig state).expose ∧
      writeConfig state path wrote machine =
        (.error (.spawn ("write " ++ path) source), machine)) ∨
      (machine.file = some (serverConfig state).expose ∨ wrote = .ok ()) ∧
        ∃ changed, writeConfig state path wrote machine =
          (.ok changed, { machine with file := some (serverConfig state).expose }) := by
  by_cases hfile : machine.file = some (serverConfig state).expose
  · refine Or.inr ⟨Or.inl hfile, false, ?_⟩
    have kept : { machine with file := some (serverConfig state).expose } = machine := by
      rw [← hfile]
    rw [kept, writeConfig.eq_def]
    exact if_pos hfile
  · cases wrote with
    | error source =>
      refine Or.inl ⟨source, rfl, hfile, ?_⟩
      rw [writeConfig, if_neg hfile]
    | ok =>
      refine Or.inr ⟨Or.inr rfl, true, ?_⟩
      rw [writeConfig, if_neg hfile]

/-- The end of a call that ran its command. -/
def finish (system : System) (wanted : SecretText) :
    Except WgError Unit × Machine → Except WgError Unit × System
  | (.error e, machine) => (.error e, { system with machine := machine })
  | (.ok (), machine) =>
    (.ok (), ⟨{ system.applier with lastApplied := some wanted }, machine⟩)

/-- What a call can come to. -/
inductive Did (system : System) (call : Call) : Except WgError Unit × System → Prop
  | refused {e : WgError} {machine : Machine} : ¬Reaches system call →
    machine.interface = system.machine.interface →
    Did system call (.error e, { system with machine := machine })
  | skipped {machine : Machine} : ¬Reaches system call → system.machine.interface ≠ none →
    system.applier.lastApplied = some (serverConfig call.state) →
    machine.interface = system.machine.interface →
    Did system call (.ok (), { system with machine := machine })
  | ran {machine : Machine} : Reaches system call →
    machine.interface = system.machine.interface →
    Did system call (finish system (serverConfig call.state)
      (runCommand (serverConfig call.state).expose call.luck.command machine))

omit [Unicode] in
theorem plan_eq_none {interfaceIsUp : Bool} {lastApplied : Option String} {wanted : String}
    (h : plan interfaceIsUp lastApplied wanted = none) :
    interfaceIsUp = true ∧ lastApplied = some wanted := by
  rw [plan] at h
  split at h
  · cases h
  · next hup =>
    split at h
    · next hlast => exact ⟨by simpa using hup, hlast⟩
    · cases h

omit [Unicode] in
theorem expose_eq_some {lastApplied : Option SecretText} {wanted : SecretText}
    (h : lastApplied.map SecretText.expose = some wanted.expose) : lastApplied = some wanted := by
  obtain ⟨remembered, rfl, htext⟩ := Option.map_eq_some_iff.mp h
  cases remembered
  cases wanted
  cases htext
  rfl

theorem apply_did (system : System) (call : Call) :
    Did system call (apply system call.state call.luck) := by
  rcases writeConfig_cases call.state system.applier.configPath call.luck.wrote system.machine with
    ⟨source, hwrote, hfile, hwrite⟩ | ⟨hwritten, changed, hwrite⟩
  · have unreached : ¬Reaches system call := by
      rintro ⟨hread | hok, _⟩
      · exact hfile hread
      · cases hwrote.symm.trans hok
    rw [apply, hwrite]
    exact .refused unreached rfl
  · have hplanned : planned system call = plan (call.luck.shown && system.machine.interface.isSome)
      (system.applier.lastApplied.map SecretText.expose) (serverConfig call.state).expose := rfl
    rw [apply, hwrite]
    simp only
    rw [← hplanned]
    cases hplan : planned system call with
    | none =>
      obtain ⟨hup, hlast⟩ := plan_eq_none (hplanned.symm.trans hplan)
      refine .skipped ?_ ?_ ?_ rfl
      · rintro ⟨_, h | ⟨h, _⟩⟩
        · cases hplan.symm.trans h
        · cases hplan.symm.trans h
      · have hsome := (Bool.and_eq_true _ _ ▸ hup).2
        exact Option.ne_none_iff_isSome.mpr hsome
      · exact expose_eq_some hlast
    | some action =>
      cases action with
      | bringUp =>
        refine .ran ⟨hwritten, Or.inl hplan⟩ rfl
      | sync =>
        have unprepared : call.luck.stripped ≠ .ok () ∨ call.luck.scratch ≠ .ok () →
            ¬Reaches system call := by
          rintro hbad ⟨_, h | ⟨_, hstripped, hscratch⟩⟩
          · cases hplan.symm.trans h
          · exact hbad.elim (· hstripped) (· hscratch)
        cases hstripped : call.luck.stripped with
        | error e => exact .refused (unprepared (Or.inl (by simp [hstripped]))) rfl
        | ok =>
          cases hscratch : call.luck.scratch with
          | error source => exact .refused (unprepared (Or.inr (by simp [hscratch]))) rfl
          | ok => exact .ran ⟨hwritten, Or.inr ⟨hplan, hstripped, hscratch⟩⟩ rfl

/-- While the interface is up it holds what is remembered, if anything is. -/
def Synced (system : System) : Prop :=
  ∀ remembered, system.applier.lastApplied = some remembered →
    system.machine.interface = none ∨ system.machine.interface = some remembered.expose

/-- What is remembered is the config of some state. -/
def Known (system : System) : Prop :=
  ∀ remembered, system.applier.lastApplied = some remembered →
    ∃ state, remembered = serverConfig state

theorem Synced.truthful {system : System} (h : Synced system) (call : Call) :
    Truthful system call := by
  intro hok
  have did := apply_did system call
  rw [step]
  generalize apply system call.state call.luck = out at *
  cases did with
  | refused _ _ => cases hok
  | skipped _ hup hlast hsame =>
    exact hsame.trans ((h _ hlast).resolve_left hup)
  | ran _ _ =>
    cases hran : call.luck.command with
    | succeeded => rfl
    | failed e left =>
      rw [hran] at hok
      cases left <;> cases hok

theorem Synced.step {system : System} (h : Synced system) {call : Call}
    (straight : ¬Misleads system call) : Synced (step system call) := by
  have did := apply_did system call
  rw [WgApply.step]
  generalize apply system call.state call.luck = out at *
  intro remembered hlast
  cases did with
  | refused _ hsame =>
    rw [hsame]
    exact h remembered hlast
  | skipped _ _ _ hsame =>
    rw [hsame]
    exact h remembered hlast
  | @ran machine hreaches hsame =>
    cases hran : call.luck.command with
    | succeeded =>
      rw [hran] at hlast
      cases hlast
      exact Or.inr rfl
    | failed e left =>
      rw [hran] at hlast
      cases left with
      | old =>
        show machine.interface = none ∨ machine.interface = some remembered.expose
        rw [hsame]
        exact h remembered hlast
      | new =>
        -- what it left is what is remembered, or the call would mislead
        have same : remembered = serverConfig call.state :=
          Decidable.byContradiction fun other =>
            straight ⟨hreaches, ⟨e, hran⟩, remembered, hlast, other⟩
        rw [same]
        exact Or.inr rfl
      | down => exact Or.inl rfl

theorem step_known (system : System) (call : Call) (h : Known system) :
    Known (step system call) := by
  have did := apply_did system call
  rw [step]
  generalize apply system call.state call.luck = out at *
  intro remembered hlast
  cases did with
  | refused _ _ => exact h remembered hlast
  | skipped _ _ _ _ => exact h remembered hlast
  | ran _ _ =>
    cases hran : call.luck.command with
    | succeeded =>
      rw [hran] at hlast
      cases hlast
      exact ⟨call.state, rfl⟩
    | failed e left =>
      rw [hran] at hlast
      cases left <;> exact h remembered hlast

/-- The luck of an apply that nothing stands in the way of. -/
def goodLuck : Luck := ⟨.ok (), true, .ok (), .ok (), .succeeded⟩

/-- What is remembered is not applied again while the interface is up. -/
theorem apply_remembered {system : System} {state : ServerState}
    (hup : system.machine.interface ≠ none)
    (hlast : system.applier.lastApplied = some (serverConfig state)) :
    (apply system state goodLuck).1 = .ok () ∧
      (apply system state goodLuck).2.machine.interface = system.machine.interface := by
  have hplan : plan (goodLuck.shown && system.machine.interface.isSome)
      (system.applier.lastApplied.map SecretText.expose) (serverConfig state).expose = none := by
    rw [hlast, Option.isSome_iff_ne_none.mpr hup]
    exact if_pos rfl
  rcases writeConfig_cases state system.applier.configPath goodLuck.wrote system.machine with
    ⟨_, hwrote, _, _⟩ | ⟨_, changed, hwrite⟩
  · cases hwrote
  · rw [apply, hwrite]
    simp only [hplan, and_self]

/-- After a misleading call, asking for what is remembered is answered with `Ok`. -/
theorem Misleads.betrays {system : System} (known : Known system) {call : Call}
    (h : Misleads system call) : ∃ next, ¬Truthful (WgApply.step system call) next := by
  obtain ⟨hreaches, ⟨e, hran⟩, remembered, hlast, other⟩ := h
  obtain ⟨state, rfl⟩ := known remembered hlast
  have did := apply_did system call
  have hnow : (step system call).applier.lastApplied = some (serverConfig state) ∧
      (step system call).machine.interface = some (serverConfig call.state).expose := by
    rw [step]
    generalize apply system call.state call.luck = out at *
    cases did with
    | refused hnot _ => exact absurd hreaches hnot
    | skipped hnot _ _ _ => exact absurd hreaches hnot
    | ran _ _ =>
      rw [hran]
      exact ⟨hlast, rfl⟩
  obtain ⟨hok, hsame⟩ := apply_remembered (by rw [hnow.2]; exact Option.some_ne_none _) hnow.1
  refine ⟨⟨state, goodLuck⟩, fun truthful => other ?_⟩
  have held := (truthful hok).symm.trans (hsame.trans hnow.2)
  exact Option.some_inj.mp (expose_eq_some (congrArg some (Option.some_inj.mp held)))

/-- As long as no call misleads, and only as long, the interface holds what an apply
that returns `Ok` was asked for. -/
theorem apply_never_trails (applier : WgApplier) (fresh : applier.lastApplied = none)
    (machine : Machine) (calls : List Call) :
    (∀ before call after, calls = before ++ call :: after →
      ¬Misleads (run ⟨applier, machine⟩ before) call) ↔
    ∀ before, before <+: calls → ∀ next, Truthful (run ⟨applier, machine⟩ before) next := by
  have start : Synced ⟨applier, machine⟩ := fun _ h => by rw [fresh] at h; cases h
  have known : Known ⟨applier, machine⟩ := fun _ h => by rw [fresh] at h; cases h
  constructor
  · intro straight before hbefore
    obtain ⟨rest, rfl⟩ := hbefore
    have synced : Synced (run ⟨applier, machine⟩ before) := by
      refine Runs.run_keeps_of (fun _ _ hstraight h => h.step hstraight) start before ?_
      rintro sooner call later rfl
      exact straight sooner call (later ++ rest) (by simp)
    exact synced.truthful
  · rintro truthful before call after rfl misleads
    obtain ⟨next, untrue⟩ := misleads.betrays (Runs.run_keeps step_known known before)
    refine untrue ?_
    have := truthful (before ++ [call]) ⟨after, by simp⟩ next
    rwa [run, Runs.run_append] at this

omit [Unicode] in
theorem apply_never_trails_sample :
    letI := asciiTables
    let calls : List Call := [⟨Init.sampleHub, goodLuck⟩]
    let applier : WgApplier := ⟨"/etc/wireguard/anago.conf", "/etc/wireguard/anago.stripped", none⟩
    ∀ next, Truthful (run ⟨applier, ⟨none, none⟩⟩ calls) next := by
  let := asciiTables
  intro calls applier
  refine (apply_never_trails applier rfl ⟨none, none⟩ calls).mp ?_ calls List.prefix_rfl
  rintro before call after hcalls ⟨_, ⟨e, hran⟩, _⟩
  have hcall : call ∈ calls := by rw [hcalls]; simp
  rw [List.mem_singleton.mp hcall] at hran
  cases hran

omit [Unicode] in
/-- The interface holds what a failed apply left there, and an apply of what was
remembered before returns `Ok` without looking. -/
theorem apply_trails :
    letI := asciiTables
    ¬∀ (applier : WgApplier) (machine : Machine) (calls : List Call),
      applier.lastApplied = none → ∀ before call after, calls = before ++ call :: after →
        Truthful (run ⟨applier, machine⟩ before) call := by
  let := asciiTables
  intro claim
  let applier : WgApplier := ⟨"/etc/wireguard/anago.conf", "/etc/wireguard/anago.stripped", none⟩
  let moved : ServerState := { Init.sampleHub with listenPort := 51821 }
  let badLuck : Luck := { goodLuck with
    command :=
      .failed (.failed "wg syncconf anago /etc/wireguard/anago.stripped" (some 1) "") .new }
  have last := claim applier ⟨none, none⟩
    [⟨Init.sampleHub, goodLuck⟩, ⟨moved, badLuck⟩, ⟨Init.sampleHub, goodLuck⟩] rfl
    [⟨Init.sampleHub, goodLuck⟩, ⟨moved, badLuck⟩] ⟨Init.sampleHub, goodLuck⟩ [] rfl
  revert last
  rw [Truthful]
  decide +kernel

end WgApply
