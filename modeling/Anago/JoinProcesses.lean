import Anago.HubAnswers
import Anago.Interleaving

/-!
# Joins beside each other

Several `anago join` run on one machine, each for the client directory of whoever called it.
The lock is in that directory, the WireGuard config is everybody's. One file call is one
step; what a step cannot know beforehand comes with its turn.
-/

open StdText WgConf Interleaving

namespace JoinProcesses

/-- What a file holds that is claimed and not written yet. -/
def claimMarker : String := "# anago: unfinished join — safe to delete\n"

def isStaleClaim (contents : String) : Bool := contents == claimMarker

/-- The WireGuard config, the device file and the join lock of each client directory. -/
structure Machine (ι δ : Type) where
  config : Option String
  devices : δ → Option String
  locks : δ → Option ι

/-- What a join was called with. -/
structure Call (δ : Type) where
  dir : δ
  domain : String
  apiPort : UInt16

inductive Failure where
  | early (detail : String)
  | alreadyRunning
  | alreadyJoined
  | configExists
  | save (what : String)
  | wg (detail : String)
  | client
  | refused
  | savedNothing
  deriving DecidableEq, Repr

abbrev Joined := DeviceConfig × ClientProfile

/-- How far a run is. -/
inductive Phase where
  | called
  | opened
  /-- From here on the run holds the lock of its directory. -/
  | locked
  | deviceFree
  | notJoined
  | ready
  | configTaken
  | configStale
  /-- From here on it has a reservation of the WireGuard config. -/
  | claimed
  | deviceTaken
  | deviceStale
  | reserved
  | registered (joined : Joined)
  | configWritten (joined : Joined)
  | unwritten
  | undoing
  | dropping (failure : Failure) (deviceClaimed : Bool)
  | droppingDevice (failure : Failure)
  | releasing (result : Except Failure Joined)
  | ended (result : Except Failure Joined)

namespace Phase

/-- The run has claimed the WireGuard config, or has published it. -/
def holds : Phase → Bool
  | claimed | deviceTaken | deviceStale | reserved | registered _ | configWritten _ | unwritten
    | undoing => true
  | dropping _ _ => true
  | releasing (.ok _) => true
  | ended (.ok _) => true
  | _ => false

/-- The run has the lock of its directory. -/
def inside : Phase → Bool
  | called | opened | ended _ => false
  | _ => true

/-- The registration whose profile the WireGuard config holds. -/
def kept : Phase → Option Joined
  | configWritten joined => some joined
  | releasing (.ok joined) => some joined
  | ended (.ok joined) => some joined
  | _ => none

/-- The registration a run writes down or has written down. -/
def got : Phase → Option Joined
  | registered joined => some joined
  | configWritten joined => some joined
  | releasing (.ok joined) => some joined
  | ended (.ok joined) => some joined
  | _ => none

theorem got_of_kept {phase : Phase} {joined : Joined} (h : phase.kept = some joined) :
    phase.got = some joined := by
  cases phase with
  | configWritten _ => exact h
  | releasing result =>
    cases result with
    | error e => cases h
    | ok _ => exact h
  | ended result =>
    cases result with
    | error e => cases h
    | ok _ => exact h
  | _ => cases h

theorem holds_of_kept {phase : Phase} {joined : Joined} (h : phase.kept = some joined) :
    phase.holds = true := by
  cases phase with
  | configWritten _ => rfl
  | releasing result =>
    cases result with
    | error e => cases h
    | ok _ => rfl
  | ended result =>
    cases result with
    | error e => cases h
    | ok _ => rfl
  | _ => cases h

/-- A run that holds the config without the lock has come to a good end. -/
theorem kept_of_holds {phase : Phase} (h : phase.holds = true) (outside : phase.inside = false) :
    ∃ joined, phase.kept = some joined := by
  cases phase with
  | ended result =>
    cases result with
    | error e => cases h
    | ok joined => exact ⟨joined, rfl⟩
  | called => cases h
  | opened => cases h
  | _ => cases outside

/-- The lock is all that a run gives back last. -/
theorem ended_same (result : Except Failure Joined) :
    (ended result).holds = (releasing result).holds ∧
    (ended result).kept = (releasing result).kept ∧
    (ended result).got = (releasing result).got := by
  cases result with
  | error e => exact ⟨rfl, rfl, rfl⟩
  | ok joined => exact ⟨rfl, rfl, rfl⟩

end Phase

/-- What the hub comes back with. -/
inductive Reply where
  | lost
  | refused
  | answered (body : String)

/-- Whether a file call works, whether what is there can be read, or can at least be asked for,
the key, the answer. -/
structure Turn where
  works : Bool
  readable : Bool
  seen : Bool
  keys : Except String PrivateKey
  reply : Reply

/-- What a step does to the files of its directory and to the WireGuard config. -/
inductive Effect where
  | nothing
  | lock
  | unlock
  | config (content : Option String)
  | device (content : Option String)

/-- The WireGuard config is written or removed. -/
def Effect.touches : Effect → Bool
  | .config _ => true
  | _ => false

/-- No file but the device file changes, and no lock. -/
def Effect.quiet : Effect → Bool
  | .nothing => true
  | .device _ => true
  | _ => false

theorem Effect.touches_of_quiet {effect : Effect} (h : effect.quiet = true) :
    effect.touches = false := by
  cases effect with
  | config _ => cases h
  | _ => rfl

/-- Whether a path holds something worth protecting. -/
def occupied (file : Option String) (turn : Turn) : Bool :=
  match file with
  | none => false
  | some contents =>
    if turn.readable then !isStaleClaim contents
    -- unreadable but present is somebody's; what cannot be asked for counts as absent
    else turn.seen

/-- `claim_system` and `claim_user`, as far as a new file goes. -/
def claim (file : Option String) (works : Bool) (save : Failure) : Except Failure Bool :=
  if !works then .error save
  else .ok file.isNone

variable {ι δ : Type} [Unicode]

/-- One step of a run: what it does, and how far the run is then. -/
def move (call : Call δ) (machine : Machine ι δ) (turn : Turn) (phase : Phase) : Effect × Phase :=
  match phase with
  | .called =>
    if turn.works then (.nothing, .opened)
      else (.nothing, .ended (.error (.early "the config directory")))
  | .opened =>
    match machine.locks call.dir with
    | some _ => (.nothing, .ended (.error .alreadyRunning))
    | none =>
      if turn.works then (.lock, .locked) else (.nothing, .ended (.error (.save "the join lock")))
  | .locked =>
    if occupied (machine.devices call.dir) turn then (.nothing, .releasing (.error .alreadyJoined))
    else (.nothing, .deviceFree)
  | .deviceFree =>
    if occupied machine.config turn then (.nothing, .releasing (.error .configExists))
    else (.nothing, .notJoined)
  | .notJoined =>
    if turn.works then (.nothing, .ready)
    else (.nothing, .releasing (.error (.save "the WireGuard directory")))
  | .ready =>
    match claim machine.config turn.works (.save "a config file") with
    | .error e => (.nothing, .releasing (.error e))
    | .ok true => (.config (some claimMarker), .claimed)
    | .ok false => (.nothing, .configTaken)
  | .configTaken =>
    if turn.readable && machine.config == some claimMarker then (.nothing, .configStale)
    else (.nothing, .releasing (.error .configExists))
  | .configStale =>
    if turn.works then (.config (some claimMarker), .claimed)
    else (.nothing, .releasing (.error (.save "a config file")))
  | .claimed =>
    match claim (machine.devices call.dir) turn.works (.save "a config file") with
    | .error e => (.nothing, .dropping e false)
    | .ok true => (.device (some claimMarker), .reserved)
    | .ok false => (.nothing, .deviceTaken)
  | .deviceTaken =>
    if turn.readable && machine.devices call.dir == some claimMarker then (.nothing, .deviceStale)
    else (.nothing, .dropping .alreadyJoined false)
  | .deviceStale =>
    if turn.works then (.device (some claimMarker), .reserved)
    else (.nothing, .dropping (.save "a config file") false)
  | .reserved =>
    match turn.keys with
    | .error detail => (.nothing, .dropping (.wg detail) true)
    | .ok privateKey =>
      match turn.reply with
      | .lost => (.nothing, .dropping .client true)
      | .refused => (.nothing, .dropping .refused true)
      | .answered body =>
        match Join.accepted body call.domain call.apiPort privateKey with
        | .ok joined => (.nothing, .registered joined)
        | _ => (.nothing, .undoing)
  | .registered joined =>
    if turn.works then (.config (some (clientConfig joined.2).expose), .configWritten joined)
    else (.nothing, .undoing)
  | .configWritten joined =>
    if turn.works then (.device (some joined.1.toJsonString), .releasing (.ok joined))
    else (.nothing, .unwritten)
  -- what cannot be removed stays
  | .unwritten => (if turn.works then .config none else .nothing, .undoing)
  | .undoing => (.nothing, .dropping .savedNothing true)
  | .dropping e deviceClaimed =>
    (if turn.works then .config none else .nothing,
      if deviceClaimed then .droppingDevice e else .releasing (.error e))
  | .droppingDevice e => (if turn.works then .device none else .nothing, .releasing (.error e))
  | .releasing result => (.unlock, .ended result)
  | .ended result => (.nothing, .ended result)

variable [DecidableEq δ]

def Effect.apply (dir : δ) (i : ι) (machine : Machine ι δ) : Effect → Machine ι δ
  | .nothing => machine
  | .lock => { machine with locks := Function.update machine.locks dir (some i) }
  | .unlock => { machine with locks := Function.update machine.locks dir none }
  | .config content => { machine with config := content }
  | .device content => { machine with devices := Function.update machine.devices dir content }

omit [Unicode] in
theorem Effect.apply_quiet (dir : δ) (i : ι) (machine : Machine ι δ) {effect : Effect}
    (h : effect.quiet = true) :
    (effect.apply dir i machine).config = machine.config ∧
    (effect.apply dir i machine).locks = machine.locks := by
  cases effect with
  | nothing => exact ⟨rfl, rfl⟩
  | device _ => exact ⟨rfl, rfl⟩
  | _ => cases h

/-- One step of a process. -/
def act (calls : ι → Call δ) (i : ι) (phase : Phase) (turn : Turn) (machine : Machine ι δ) :
    Machine ι δ × Phase :=
  let moved := move (calls i) machine turn phase
  (moved.1.apply (calls i).dir i machine, moved.2)

/-- The step gets the claim on the WireGuard config, if nothing fails. -/
def takes (machine : Machine ι δ) (turn : Turn) : Phase → Bool
  | .ready => turn.works && machine.config.isNone
  | .configStale => turn.works
  | _ => false

/-- A run gets the claim while no run for another directory has the config. -/
def Alone (calls : ι → Call δ) (world : World (Machine ι δ) ι Phase) (event : ι × Turn) : Prop :=
  takes world.shared event.2 (world.locals event.1) = true →
    ∀ j, (calls j).dir ≠ (calls event.1).dir → (world.locals j).holds = false

/-- The hub answered with this registration, for the key of the run. -/
def Answered (call : Call δ) (joined : Joined) : Prop :=
  ∃ body privateKey, Join.accepted body call.domain call.apiPort privateKey = .ok joined

omit [Unicode] [DecidableEq δ] in
theorem clientConfig_ne_marker (profile : ClientProfile) :
    (clientConfig profile).expose ≠ claimMarker := by
  intro same
  have marker : claimMarker.toList.head? = some '#' := rfl
  have header : (clientConfig profile).expose.toList.head? = some '[' := by
    rw [clientConfig, SecretText.expose, renderClient_lines, clientLines]
    rfl
  rw [same, marker] at header
  exact absurd (Option.some.inj header) (by decide)

/-- All a step can come to. -/
inductive Moved (call : Call δ) (machine : Machine ι δ) (turn : Turn) :
    Phase → Effect × Phase → Prop
  | idle {phase next : Phase} {effect : Effect} : effect.quiet = true →
    (next.holds = true → phase.holds = true) →
    (∀ joined, next.kept = some joined → phase.kept = some joined) →
    (∀ joined, next.got = some joined → phase.got = some joined ∨ Answered call joined) →
    next.inside = phase.inside → (next = .configStale → machine.config = some claimMarker) →
    Moved call machine turn phase (effect, next)
  | locks : machine.locks call.dir = none → Moved call machine turn .opened (.lock, .locked)
  | unlocks {result : Except Failure Joined} : Moved call machine turn (.releasing result)
    (.unlock, .ended result)
  | claims {phase : Phase} : takes machine turn phase = true →
    Moved call machine turn phase (.config (some claimMarker), .claimed)
  | writes {joined : Joined} : Moved call machine turn (.registered joined)
    (.config (some (clientConfig joined.2).expose), .configWritten joined)
  | removes {phase next : Phase} : phase.holds = true → phase.inside = true → next.inside = true →
    next.got = none → next ≠ .configStale → Moved call machine turn phase (.config none, next)

omit [DecidableEq δ] in
theorem move_moved (call : Call δ) (machine : Machine ι δ) (turn : Turn) (phase : Phase) :
    Moved call machine turn phase (move call machine turn phase) := by
  have quiet : ∀ {phase next : Phase} {effect : Effect}, effect.quiet = true →
      (next.holds = true → phase.holds = true) → next.got = none → next.inside = phase.inside →
      (next = .configStale → machine.config = some claimMarker) →
      Moved call machine turn phase (effect, next) := fun hquiet holds none inside stale =>
    .idle hquiet holds (fun joined h => by cases none.symm.trans (Phase.got_of_kept h))
      (fun joined h => by cases none.symm.trans h) inside stale
  have stays : ∀ {next : Phase} {effect : Effect}, effect.quiet = true →
      (next.holds = true → phase.holds = true) →
      next.got = none → next.inside = phase.inside → next ≠ .configStale →
      Moved call machine turn phase (effect, next) := fun hquiet holds none inside apart =>
    quiet hquiet holds none inside fun h => absurd h apart
  cases phase with
  | called =>
    rw [move]
    split
    · exact stays rfl (by rintro ⟨⟩) rfl rfl (by rintro ⟨⟩)
    · exact stays rfl (by rintro ⟨⟩) rfl rfl (by rintro ⟨⟩)
  | opened =>
    rw [move]
    split
    · exact stays rfl (by rintro ⟨⟩) rfl rfl (by rintro ⟨⟩)
    · next free =>
      split
      · exact .locks free
      · exact stays rfl (by rintro ⟨⟩) rfl rfl (by rintro ⟨⟩)
  | locked =>
    rw [move]
    split
    · exact stays rfl (by rintro ⟨⟩) rfl rfl (by rintro ⟨⟩)
    · exact stays rfl (by rintro ⟨⟩) rfl rfl (by rintro ⟨⟩)
  | deviceFree =>
    rw [move]
    split
    · exact stays rfl (by rintro ⟨⟩) rfl rfl (by rintro ⟨⟩)
    · exact stays rfl (by rintro ⟨⟩) rfl rfl (by rintro ⟨⟩)
  | notJoined =>
    rw [move]
    split
    · exact stays rfl (by rintro ⟨⟩) rfl rfl (by rintro ⟨⟩)
    · exact stays rfl (by rintro ⟨⟩) rfl rfl (by rintro ⟨⟩)
  | ready =>
    rw [move]
    split
    · exact stays rfl (by rintro ⟨⟩) rfl rfl (by rintro ⟨⟩)
    · next fresh =>
      refine .claims ?_
      rw [claim] at fresh
      split at fresh
      · cases fresh
      · next works =>
        rw [takes, Except.ok.inj fresh, Bool.and_true]
        simpa using works
    · exact stays rfl (by rintro ⟨⟩) rfl rfl (by rintro ⟨⟩)
  | configTaken =>
    rw [move]
    split
    · next stale =>
      refine quiet rfl (by rintro ⟨⟩) rfl rfl fun _ => ?_
      exact eq_of_beq (Bool.and_eq_true_iff.mp stale).2
    · exact stays rfl (by rintro ⟨⟩) rfl rfl (by rintro ⟨⟩)
  | configStale =>
    rw [move]
    split
    · next works => exact .claims works
    · exact stays rfl (by rintro ⟨⟩) rfl rfl (by rintro ⟨⟩)
  | claimed =>
    rw [move]
    split
    · exact stays rfl (fun _ => rfl) rfl rfl (by rintro ⟨⟩)
    · exact stays rfl (fun _ => rfl) rfl rfl (by rintro ⟨⟩)
    · exact stays rfl (fun _ => rfl) rfl rfl (by rintro ⟨⟩)
  | deviceTaken =>
    rw [move]
    split
    · exact stays rfl (fun _ => rfl) rfl rfl (by rintro ⟨⟩)
    · exact stays rfl (fun _ => rfl) rfl rfl (by rintro ⟨⟩)
  | deviceStale =>
    rw [move]
    split
    · exact stays rfl (fun _ => rfl) rfl rfl (by rintro ⟨⟩)
    · exact stays rfl (fun _ => rfl) rfl rfl (by rintro ⟨⟩)
  | reserved =>
    rw [move]
    split
    · exact stays rfl (fun _ => rfl) rfl rfl (by rintro ⟨⟩)
    · next privateKey _ =>
      split
      · exact stays rfl (fun _ => rfl) rfl rfl (by rintro ⟨⟩)
      · exact stays rfl (fun _ => rfl) rfl rfl (by rintro ⟨⟩)
      · next body _ =>
        split
        · next joined accepted =>
          refine .idle rfl (fun _ => rfl) (by rintro _ ⟨⟩) ?_ rfl (by rintro ⟨⟩)
          rintro _ ⟨⟩
          exact Or.inr ⟨body, privateKey, accepted⟩
        · exact stays rfl (fun _ => rfl) rfl rfl (by rintro ⟨⟩)
  | registered joined =>
    rw [move]
    split
    · exact .writes
    · exact stays rfl (fun _ => rfl) rfl rfl (by rintro ⟨⟩)
  | configWritten joined =>
    rw [move]
    split
    · exact .idle rfl (fun _ => rfl) (fun _ h => h) (fun _ h => Or.inl h) rfl (by rintro ⟨⟩)
    · exact stays rfl (fun _ => rfl) rfl rfl (by rintro ⟨⟩)
  | unwritten =>
    rw [move]
    split
    · exact .removes rfl rfl rfl rfl (by rintro ⟨⟩)
    · exact stays rfl (fun _ => rfl) rfl rfl (by rintro ⟨⟩)
  | undoing => exact stays rfl (fun _ => rfl) rfl rfl (by rintro ⟨⟩)
  | dropping e deviceClaimed =>
    rw [move]
    cases deviceClaimed with
    | true =>
      split
      · exact .removes rfl rfl rfl rfl (by rintro ⟨⟩)
      · exact stays rfl (fun _ => rfl) rfl rfl (by rintro ⟨⟩)
    | false =>
      split
      · exact .removes rfl rfl rfl rfl (by rintro ⟨⟩)
      · exact stays rfl (fun _ => rfl) rfl rfl (by rintro ⟨⟩)
  | droppingDevice e =>
    rw [move]
    split
    · exact stays rfl (by rintro ⟨⟩) rfl rfl (by rintro ⟨⟩)
    · exact stays rfl (by rintro ⟨⟩) rfl rfl (by rintro ⟨⟩)
  | releasing result => exact .unlocks
  | ended result =>
    exact .idle rfl (fun h => h) (fun _ h => h) (fun _ h => Or.inl h) rfl (by rintro ⟨⟩)

/-- No two runs have the config; where a run keeps it, it holds what the run has registered. -/
structure Apart (calls : ι → Call δ) (world : World (Machine ι δ) ι Phase) : Prop where
  one : ∀ i j, (world.locals i).holds = true → (world.locals j).holds = true → i = j
  kept : ∀ i joined, (world.locals i).kept = some joined →
    world.shared.config = some (clientConfig joined.2).expose
  locked : ∀ i, (world.locals i).inside = true → world.shared.locks (calls i).dir = some i
  stale : ∀ i j, world.locals i = .configStale → (calls j).dir = (calls i).dir →
    (world.locals j).holds = false
  answered : ∀ i joined, (world.locals i).got = some joined → Answered (calls i) joined

variable {calls : ι → Call δ} {world : World (Machine ι δ) ι Phase}

omit [DecidableEq δ] in
/-- Two runs are not inside for one directory. -/
theorem Apart.inside (h : Apart calls world) {i j : ι} (here : (world.locals i).inside = true)
    (there : (world.locals j).inside = true) (same : (calls j).dir = (calls i).dir) : j = i := by
  have lock := h.locked j there
  rw [same, h.locked i here] at lock
  exact (Option.some.inj lock).symm

omit [DecidableEq δ] in
/-- A marker, or nothing, says that no other run for the directory has the config. -/
theorem Apart.unkept (h : Apart calls world) {i j : ι} (apart : j ≠ i)
    (here : (world.locals i).inside = true) (same : (calls j).dir = (calls i).dir)
    (open' : world.shared.config = none ∨ world.shared.config = some claimMarker) :
    (world.locals j).holds = false := by
  by_contra holds
  rw [Bool.not_eq_false] at holds
  by_cases there : (world.locals j).inside = true
  · exact apart (h.inside here there same)
  · obtain ⟨joined, kept⟩ := Phase.kept_of_holds holds (Bool.eq_false_iff.mpr there)
    have config := h.kept j joined kept
    rcases open' with none | marker
    · rw [none] at config
      cases config
    · rw [marker] at config
      exact clientConfig_ne_marker joined.2 (Option.some.inj config).symm

omit [Unicode] [DecidableEq δ] in
theorem inside_of_takes {machine : Machine ι δ} {turn : Turn} {phase : Phase}
    (h : takes machine turn phase = true) : phase.inside = true := by
  cases phase with
  | ready => rfl
  | configStale => rfl
  | _ => cases h

omit [DecidableEq δ] in
/-- Who gets the claim finds nobody else to have the config. -/
theorem Apart.sole (h : Apart calls world) {i j : ι} {turn : Turn} (apart : j ≠ i)
    (takes : takes world.shared turn (world.locals i) = true)
    (alone : Alone calls world (i, turn)) :
    (world.locals j).holds = false := by
  have here := inside_of_takes takes
  by_cases same : (calls j).dir = (calls i).dir
  · cases phase : world.locals i with
    | ready =>
      rw [phase, JoinProcesses.takes, Bool.and_eq_true, Option.isNone_iff_eq_none] at takes
      exact h.unkept apart here same (Or.inl takes.2)
    | configStale => exact h.stale i j phase same
    | _ =>
      rw [phase] at takes
      cases takes
  · exact alone takes j same

variable [DecidableEq ι]

omit [DecidableEq δ] in
/-- What the next step of a run has to respect. -/
theorem Apart.change (h : Apart calls world) {i : ι} {next : Phase}
    {world' : World (Machine ι δ) ι Phase} (own : world'.locals i = next)
    (other : ∀ j ≠ i, world'.locals j = world.locals j)
    (holds : next.holds = true → ∀ j ≠ i, (world.locals j).holds = false)
    (kept : ∀ joined, next.kept = some joined → world'.shared.config = some
      (clientConfig joined.2).expose)
    (config : world'.shared.config = world.shared.config ∨ ∀ j ≠ i, (world.locals j).holds = false)
    (lock : next.inside = true → world'.shared.locks (calls i).dir = some i)
    (locks : ∀ j ≠ i, (world.locals j).inside = true → world'.shared.locks (calls j).dir = some j)
    (stale : next = .configStale → ∀ j ≠ i, (calls j).dir = (calls i).dir →
      (world.locals j).holds = false)
    (others : ∀ j ≠ i, world.locals j = .configStale → (calls i).dir = (calls j).dir →
      next.holds = false)
    (answered : ∀ joined, next.got = some joined → Answered (calls i) joined) :
    Apart calls world' := by
  refine ⟨fun a b ha hb => ?_, fun j joined hj => ?_, fun j hj => ?_, fun a b ha same => ?_,
    fun j joined hj => ?_⟩
  · by_cases ai : a = i
    · by_cases bi : b = i
      · rw [ai, bi]
      · rw [ai, own] at ha
        rw [other b bi, holds ha b bi] at hb
        cases hb
    · rw [other a ai] at ha
      by_cases bi : b = i
      · rw [bi, own] at hb
        rw [holds hb a ai] at ha
        cases ha
      · rw [other b bi] at hb
        exact h.one a b ha hb
  · by_cases ji : j = i
    · rw [ji, own] at hj
      exact kept joined hj
    · rw [other j ji] at hj
      rcases config with same | alone
      · exact same.trans (h.kept j joined hj)
      · have := alone j ji
        rw [Phase.holds_of_kept hj] at this
        cases this
  · by_cases ji : j = i
    · rw [ji, own] at hj
      rw [ji]
      exact lock hj
    · rw [other j ji] at hj
      exact locks j ji hj
  · by_cases ai : a = i
    · rw [ai, own] at ha
      rw [ai] at same
      by_cases bi : b = i
      · rw [bi, own, ha]
        rfl
      · rw [other b bi]
        exact stale ha b bi same
    · rw [other a ai] at ha
      by_cases bi : b = i
      · rw [bi, own]
        rw [bi] at same
        exact others a ai ha same
      · rw [other b bi]
        exact h.stale a b ha same
  · by_cases ji : j = i
    · rw [ji, own] at hj
      rw [ji]
      exact answered joined hj
    · rw [other j ji] at hj
      exact h.answered j joined hj

theorem Apart.step (h : Apart calls world) {i : ι} {turn : Turn}
    (alone : Alone calls world (i, turn)) :
    Apart calls (Interleaving.step (act calls) world (i, turn)) := by
  have moved := move_moved (calls i) world.shared turn (world.locals i)
  have own : (Interleaving.step (act calls) world (i, turn)).locals i =
      (move (calls i) world.shared turn (world.locals i)).2 := step_own _ _ _
  have shared : (Interleaving.step (act calls) world (i, turn)).shared =
      (move (calls i) world.shared turn (world.locals i)).1.apply
        (calls i).dir i world.shared := rfl
  have other : ∀ j ≠ i, (Interleaving.step (act calls) world (i, turn)).locals j = world.locals j :=
    fun j apart => step_other _ _ _ apart
  generalize Interleaving.step (act calls) world (i, turn) = world' at own shared other ⊢
  generalize move (calls i) world.shared turn (world.locals i) = result at moved own shared
  generalize before : world.locals i = phase at moved
  have sole : phase.holds = true → ∀ j ≠ i, (world.locals j).holds = false := by
    intro holds j apart
    by_contra there
    rw [Bool.not_eq_false] at there
    exact apart (h.one j i there (before ▸ holds))
  have lock : phase.inside = true → world.shared.locks (calls i).dir = some i := fun inside =>
    h.locked i (before ▸ inside)
  have others : ∀ j ≠ i, world.locals j = .configStale → (calls i).dir = (calls j).dir →
      phase.holds = false :=
    fun j _ stale same => before ▸ h.stale j i stale same
  cases moved with
  | idle quiet holds kept got inside stale =>
    obtain ⟨config, locks⟩ := Effect.apply_quiet (calls i).dir i world.shared quiet
    rw [← shared] at config locks
    refine h.change own other (fun hn => sole (holds hn)) (fun joined hk => ?_)
      (Or.inl config) (fun hn => ?_)
      (fun j _ hj => ?_) (fun hn j apart same => ?_) (fun j apart hst same => ?_)
        fun joined hg => ?_
    · exact config.trans (h.kept i joined (before ▸ kept joined hk))
    · rw [locks]
      exact lock (inside ▸ hn)
    · rw [locks]
      exact h.locked j hj
    · have here : phase.inside = true := inside.symm.trans (congrArg Phase.inside hn)
      exact h.unkept apart (before ▸ here) same (Or.inr (stale hn))
    · rw [← Bool.not_eq_true]
      exact fun hn => Bool.noConfusion ((others j apart hst same).symm.trans (holds hn))
    · rcases got joined hg with before' | answered
      · exact h.answered i joined (before ▸ before')
      · exact answered
  | locks free =>
    refine h.change own other (by rintro ⟨⟩) (by rintro _ ⟨⟩)
      (Or.inl (by rw [shared]; rfl)) (fun _ => ?_)
      (fun j apart hj => ?_) (by rintro ⟨⟩) (fun _ _ _ _ => rfl) (by rintro _ ⟨⟩)
    · rw [shared]
      exact Function.update_self _ _ _
    · have there := h.locked j hj
      rw [shared]
      refine (Function.update_of_ne (fun same => ?_) _ _).trans there
      rw [same, free] at there
      cases there
  | @unlocks result =>
    obtain ⟨holds, kept, got⟩ := Phase.ended_same result
    have config : world'.shared.config = world.shared.config := by
      rw [shared]
      rfl
    refine h.change own other (fun hn => sole (holds ▸ hn)) (fun joined hk => ?_)
      (Or.inl config) (by rintro ⟨⟩)
      (fun j apart hj => ?_) (by rintro ⟨⟩) (fun j apart hst same => ?_) fun joined hg =>
        h.answered i joined ?_
    · exact config.trans (h.kept i joined (before ▸ kept ▸ hk))
    · rw [shared]
      refine (Function.update_of_ne (fun same => ?_) _ _).trans (h.locked j hj)
      exact apart (h.inside (before ▸ rfl) hj same)
    · exact holds.trans (others j apart hst same)
    · rw [before]
      exact got ▸ hg
  | claims takes =>
    have alone : ∀ j ≠ i, (world.locals j).holds = false := fun j apart =>
      h.sole apart (before ▸ takes) alone
    have inside := inside_of_takes takes
    refine h.change own other (fun _ => alone) (by rintro _ ⟨⟩) (Or.inr alone) (fun _ => ?_)
      (fun j _ hj => ?_) (by rintro ⟨⟩) (fun j apart hst same => ?_) (by rintro _ ⟨⟩)
    · rw [shared]
      exact lock inside
    · rw [shared]
      exact h.locked j hj
    · have there : (world.locals j).inside = true := by
        rw [hst]
        rfl
      exact absurd (h.inside (before ▸ inside) there same.symm) apart
  | writes =>
    refine h.change own other (fun _ => sole rfl) ?_ (Or.inr (sole rfl)) (fun _ => ?_)
      (fun j _ hj => ?_) (by rintro ⟨⟩) (fun j apart hst same => ?_) fun joined hg =>
        h.answered i joined ?_
    · rintro _ ⟨⟩
      rw [shared]
      rfl
    · rw [shared]
      exact lock rfl
    · rw [shared]
      exact h.locked j hj
    · exact Bool.noConfusion (others j apart hst same)
    · rw [before]
      exact hg
  | removes holds inside inside' none apart =>
    refine h.change own other (fun _ => sole holds) (fun joined hk => ?_)
      (Or.inr (sole holds)) (fun _ => ?_)
      (fun j _ hj => ?_) (fun hn => absurd hn apart) (fun j apart hst same => ?_)
        fun joined hg => ?_
    · cases none.symm.trans (Phase.got_of_kept hk)
    · rw [shared]
      exact lock inside
    · rw [shared]
      exact h.locked j hj
    · exact Bool.noConfusion ((others j apart hst same).symm.trans holds)
    · cases none.symm.trans hg

omit [DecidableEq δ] [DecidableEq ι] in
theorem Apart.start (calls : ι → Call δ) {machine : Machine ι δ} :
    Apart calls ⟨machine, fun _ => .called⟩ where
  one _ _ h := by cases h
  kept _ _ h := by cases h
  locked _ h := by cases h
  stale _ _ h := by cases h
  answered _ _ h := by cases h

theorem Apart.run {events : List (ι × Turn)} (h : Apart calls world)
    (alone : Runs.Along (Interleaving.step (act calls)) (Alone calls) world events) :
    Apart calls (Interleaving.run (act calls) world events) :=
  @Runs.Along.keeps _ _ _ (Apart calls) (Alone calls) (fun _ _ alone h => h.step alone) _ _ alone h

/-- Whatever the order of the steps and whichever of them fail: one join at most comes to a
good end, its profile is what the WireGuard config holds from then on, and no run writes or
removes the config while another one has it. -/
theorem joins_apart (calls : ι → Call δ) (machine : Machine ι δ) (events : List (ι × Turn))
    (alone : Runs.Along (Interleaving.step (act calls)) (Alone calls)
      ⟨machine, fun _ => .called⟩ events) :
    let world := Interleaving.run (act calls) ⟨machine, fun _ => .called⟩
    (∀ i j joined joined', (world events).locals i = .ended (.ok joined) →
      (world events).locals j = .ended (.ok joined') → i = j) ∧
    (∀ i joined, (world events).locals i = .ended (.ok joined) →
      (world events).shared.config = some (clientConfig joined.2).expose ∧
      Answered (calls i) joined) ∧
    ∀ before i turn after, events = before ++ (i, turn) :: after →
      (move (calls i) (world before).shared turn ((world before).locals i)).1.touches = true →
        ∀ j ≠ i, ((world before).locals j).holds = false := by
  intro world
  have last : Apart calls (world events) := (Apart.start calls).run alone
  refine ⟨fun i j joined joined' hi hj => ?_, fun i joined hi => ⟨?_, ?_⟩, ?_⟩
  · exact last.one i j (by rw [hi]; rfl) (by rw [hj]; rfl)
  · exact last.kept i joined (by rw [hi]; rfl)
  · exact last.answered i joined (by rw [hi]; rfl)
  · rintro before i turn after rfl touches j apart
    have now : Apart calls (world before) := (Apart.start calls).run alone.before
    have suits := alone.suits
    have moved := move_moved (calls i) (world before).shared turn ((world before).locals i)
    generalize move (calls i) (world before).shared turn ((world before).locals i) =
      result at moved touches
    have sole : ((world before).locals i).holds = true →
        ((world before).locals j).holds = false := by
      intro holds
      by_contra there
      rw [Bool.not_eq_false] at there
      exact apart (now.one j i there holds)
    generalize here : (world before).locals i = phase at moved sole
    cases moved with
    | idle quiet => cases (Effect.touches_of_quiet quiet).symm.trans touches
    | locks => cases touches
    | unlocks => cases touches
    | claims takes => exact now.sole apart (here ▸ takes) suits
    | writes => exact sole rfl
    | removes holds => exact sole holds

/-- Two runs for two directories: both look while there is nothing, and the one that is later
to claim the config finds what the other has written. -/
theorem overlapping {calls : Bool → Call δ} {machine : Machine Bool δ} {privateKey : PrivateKey}
    {body : String} {joined : Joined} (apart : (calls false).dir ≠ (calls true).dir)
    (config : machine.config = none) (devices : ∀ i, machine.devices (calls i).dir = none)
    (locks : ∀ i, machine.locks (calls i).dir = none)
    (accepted : Join.accepted body (calls true).domain
      (calls true).apiPort privateKey = .ok joined) :
    let turn : Turn := ⟨true, true, true, .ok privateKey, .answered body⟩
    let order := [true, false, true, false, true, false, true, false, true, false, true, false,
      true, true, true, false, true, true, false]
    let start : World (Machine Bool δ) Bool Phase := ⟨machine, fun _ => .called⟩
    let final := Interleaving.run (act calls) start (order.map (·, turn))
    Runs.Along (Interleaving.step (act calls)) (Alone calls) start (order.map (·, turn)) ∧
      final.locals true = .ended (.ok joined) ∧
      final.locals false = .ended (.error .configExists) := by
  have start : (fun _ => Phase.called : Bool → Phase) = both .called .called := by
    funext i
    cases i <;> rfl
  have devices' := devices true
  have locks' := locks true
  have device := devices false
  have lock := locks false
  have fresh : (some (clientConfig joined.2).expose == some claimMarker) = false := by
    simpa using clientConfig_ne_marker joined.2
  intro turn order
  rw [start]
  simp [turn, order, Runs.Along, Interleaving.run, step_both_true, step_both_false, act,
    move, occupied, claim, Effect.apply, Alone, takes, Phase.holds, config, device, devices', lock,
    locks', apart, apart.symm, accepted, fresh]

omit [Unicode] in
/-- The two take turns from the start; one joins, and the config is its own. -/
theorem joins_apart_sample :
    letI := asciiTables
    ∃ (events : List (Bool × Turn)) (joined : Joined),
      let world := Interleaving.run (act fun dir : Bool => ⟨dir, "hub.example", 443⟩)
        ⟨⟨none, fun _ => none, fun _ => none⟩, fun _ => .called⟩ events
      (events.map Prod.fst).take 12 =
        [true, false, true, false, true, false, true, false, true, false, true, false] ∧
      world.locals true = .ended (.ok joined) ∧ world.locals false = .ended (.error .configExists) ∧
      world.shared.config = some (clientConfig joined.2).expose := by
  let := asciiTables
  have validate : letI := asciiTables
      (DeviceConfig.fromResponse "hub.example" 443 sampleAnswer).validate = .ok () := by
        decide +kernel
  have profile : letI := asciiTables
      (DeviceConfig.fromResponse "hub.example" 443 sampleAnswer).profile ⟨sampleKey⟩ =
        .ok ⟨⟨10, 44, 0, 2⟩, ⟨⟨10, 44, 0, 0⟩, rfl⟩, ⟨sampleKey⟩, sampleKey,
          "hub.example:51820"⟩ := by
    decide +kernel
  have accepted := @accepted_answer asciiTables _ _ _ _ _ validate profile
  obtain ⟨alone, first, second⟩ := @overlapping Bool asciiTables _
    (fun dir => ⟨dir, "hub.example", 443⟩) ⟨none, fun _ => none, fun _ => none⟩ ⟨sampleKey⟩ _ _
    (by decide) rfl (fun _ => rfl) (fun _ => rfl) accepted
  have apart := @joins_apart Bool Bool asciiTables _ _ _ _ _ alone
  exact ⟨_, _, rfl, first, second, (apart.2.1 _ _ first).1⟩

end JoinProcesses
