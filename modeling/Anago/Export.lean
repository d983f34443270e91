import Anago.JoinUndo
import Anago.Qr

/-!
# A config for a phone

`anago join --export` registers a phone and hands its config over: as text, in a file, as a
drawing. The file is taken before the code is spent. Between any two file calls others may rename,
remove or replace what they like; a name that has stopped meaning the run's file is left alone.
-/

open StdText Utf8Text

namespace Join

variable [Unicode]

/-- What to tell the person when the hub refuses a join. -/
def explain (status : UInt16) (body : String) : String :=
  let failure := Client.describe status body
  let advice := match failure.code with
    | some .invalidCode =>
      " — codes are single use and expire; run `anago code` on the server for another"
    | some .nameTaken => " — pick another with --name, or `anago rm` the old device"
    | some .invalidName => " — see the name rules in the docs (letters, digits, - and _)"
    | some .subnetFull => " — every address is taken; remove a device first"
    | some .invalidPublicKey => " — this looks like a bug in anago, not something you did"
    | _ => ""
  "the hub refused the join: " ++ failure.message ++ advice

/-- An answer is taken or refused. -/
theorem accepted_ends (body domain : String) (apiPort : UInt16) (privateKey : PrivateKey) :
    (∃ joined, accepted body domain apiPort privateKey = .ok joined) ∨
      ∃ e, accepted body domain apiPort privateKey = .err e := by
  rw [accepted]
  rcases (Json.parse_sat body).ok_or_err with ⟨value, parsed⟩ | ⟨e, parsed, _⟩
  · rw [parsed]
    simp only [Outcome.mapErr, Outcome.ok_bind]
    cases Proto.JoinResponse.fromJson value with
    | error e => exact Or.inr ⟨_, rfl⟩
    | ok answer =>
      simp only [Except.mapError, Outcome.ofExcept, Outcome.ok_bind]
      cases (DeviceConfig.fromResponse domain apiPort answer).validate with
      | error e => exact Or.inr ⟨_, rfl⟩
      | ok _ =>
        simp only [Outcome.ok_bind]
        cases (DeviceConfig.fromResponse domain apiPort answer).profile privateKey with
        | error e => exact Or.inr ⟨_, rfl⟩
        | ok profile => exact Or.inl ⟨_, rfl⟩
  · rw [parsed]
    exact Or.inr ⟨_, rfl⟩

end Join

namespace Export

open Client WgConf

/-- Where an export puts the config. -/
inductive Handover where
  | text
  | file (path : String)
  | qr (columns : Nat)
  deriving DecidableEq, Repr

/-- Which way a config left. -/
inductive Handed where
  | text
  | file (path : String)
  | qr
  deriving DecidableEq, Repr

/-- The file that is taken before the code is spent. -/
def Handover.claims : Handover → Option String
  | file path => some path
  | _ => none

def Handover.handed : Handover → Handed
  | text => .text
  | file path => .file path
  | qr _ => .qr

structure Exported where
  config : DeviceConfig
  handed : Handed

/-- How the system explains a call that failed, and the advice that goes with it. -/
structure IoFailure where
  source : String
  advice : String

/-- Why a registered phone got nothing. -/
inductive Cause where
  | bad (e : JoinError)
  | unsent (detail : String)
  | save (path : String) (failure : IoFailure)
  | taken (path : String)
  | tooNarrow (needed available : Nat)

def saveText (path : String) (failure : IoFailure) : String :=
  "could not write the config file (" ++ path ++ "): " ++ failure.source ++ failure.advice

def Cause.display : Cause → String
  | bad e => e.display
  | unsent detail =>
    "the config could not be written to standard output: " ++ detail ++
      " — so nothing reached the phone"
  | save path failure => saveText path failure
  | taken path =>
    path ++
      " was renamed, removed or replaced while the hub was being asked, so the config went " ++
        "into a file that no longer has that name — whatever is there now was left alone, " ++
        "and is not it"
  | tooNarrow needed available =>
    "this terminal is " ++ toString available ++ " columns and the code needs " ++
      toString needed ++
      " — a QR wider than the window wraps, and a wrapped one still looks like a QR code. Widen " ++
        "the window and run this again, or use `--export conf` to hand the same config over as text"

inductive Failure where
  | wg (detail : String)
  | tooNarrow (needed available : Nat)
  | save (path : String) (failure : IoFailure)
  | client (e : ClientError)
  | refused (text : String)
  | savedNothing (saved : Join.SavedNothing)

/-- `SMALLEST`. -/
def smallest : Nat := 21

/-- A file that was created for the config: its name then, and the file itself. -/
structure Claimed where
  path : String
  file : Nat
  deriving DecidableEq

/-- What an export was called with. -/
structure Call [Unicode] where
  domain : String
  code : JoinCode
  name : DeviceName
  apiPort : UInt16
  handover : Handover

variable [Unicode]

def Call.request (call : Call) (publicKey : String) : Request :=
  (Client.Call.join ⟨call.code.asStr, call.name.asStr, publicKey⟩).request call.domain call.apiPort

/-- How far an export is. -/
inductive Phase where
  | called
  /-- The file is there and gets its mode. -/
  | created (claimed : Claimed)
  | ready (claimed : Option Claimed)
  | answered (claimed : Option Claimed) (privateKey : PrivateKey) (body : String)
  /-- The text is in the file, which may have lost its name. -/
  | filled (claimed : Claimed) (config : DeviceConfig) (body : String)
  | undoing (claimed : Option Claimed) (body : String) (cause : Cause)
  | dropping (claimed : Claimed) (failure : Failure)
  /-- The name still meant the file. -/
  | removing (claimed : Claimed) (failure : Failure)
  | ended (result : Except Failure Exported)
  | broken

/-- The file the run holds open. -/
def Phase.held : Phase → Option Claimed
  | created claimed | filled claimed _ _ | dropping claimed _ | removing claimed _ => some claimed
  | ready claimed | answered claimed _ _ | undoing claimed _ _ => claimed
  | _ => none

/-- How many moves are left at most. -/
def Phase.left : Phase → Nat
  | called => 8
  | created _ => 7
  | ready _ => 6
  | answered _ _ _ => 5
  | filled _ _ _ => 4
  | undoing _ _ _ => 3
  | dropping _ _ => 2
  | removing _ _ => 1
  | ended _ | broken => 0

/-- The file whose name goes if the next move cleans up. -/
def Phase.cleans : Phase → Option Claimed
  | created claimed | removing claimed _ => some claimed
  | _ => none

abbrev Exchange := Request × Except ClientError Response

/-- Names and the files they mean, what is in the files, standard output, and what was asked. -/
structure World where
  names : String → Option Nat
  bytes : Nat → List UInt8
  fresh : Nat
  screen : List UInt8
  exchanges : List Exchange
  phase : Phase

/-- What one move meets: whether the tools are there, whether the call of the move works and how
much of a write arrives if not, the key, the network. -/
structure Turn where
  tools : Except String Unit
  works : Bool
  /-- Whether a file that was made and could not be finished can be removed at once. -/
  clears : Bool
  failure : IoFailure
  arrives : Nat
  keys : Except String PrivateKey
  send : Request → Except ClientError Response

/-- A write at the start of a file. -/
def written (data old : List UInt8) : List UInt8 := data ++ old.drop data.length

/-- The end of a run, by way of the file it holds. -/
def Phase.drop (claimed : Option Claimed) (failure : Failure) : Phase :=
  match claimed with
  | some claimed => .dropping claimed failure
  | none => .ended (.error failure)

/-- `drawn_code`. `encode` is the encoder of the library. -/
def drawnCode (encode : String → Option Qr.Modules) (text : String) (columns : Nat) :
    Except Cause String :=
  match encode text with
  | none => .error (.bad (.badResponse "the config is too long to put in a QR code"))
  | some modules =>
    match Qr.draw modules columns with
    | .code drawn => .ok drawn
    | .tooNarrow needed available => .error (.tooNarrow needed available)

variable (encode : String → Option Qr.Modules) (publicOf : PrivateKey → String) (call : Call)

/-- `to_stdout`, and the end of the run that comes after it. -/
def toStdout (turn : Turn) (world : World) (text body : String) (claimed : Option Claimed)
    (config : DeviceConfig) :
    World :=
  if turn.works then
    { world with
      screen := world.screen ++ asBytes text
      phase := .ended (.ok ⟨config, call.handover.handed⟩) }
  else
    { world with
      screen := world.screen ++ (asBytes text).take turn.arrives
      phase := .undoing claimed body (.unsent turn.failure.source) }

/-- `hand_over`, up to the look at the file's name. -/
def handOver (turn : Turn) (world : World) (claimed : Option Claimed) (privateKey : PrivateKey)
    (body : String) : World :=
  match Join.accepted body call.domain call.apiPort privateKey with
  | .ok (config, profile) =>
    let text := (exportProfile profile).expose
    match call.handover with
    | .file _ =>
      match claimed with
      | none => { world with phase := .undoing none body (.unsent "no file was claimed") }
      | some claimed =>
        if turn.works then
          { world with
            bytes := Function.update world.bytes claimed.file
              (written (asBytes text) (world.bytes claimed.file))
            phase := .filled claimed config body }
        else
          { world with
            bytes := Function.update world.bytes claimed.file
              (written ((asBytes text).take turn.arrives) (world.bytes claimed.file))
            phase := .undoing (some claimed) body (.save claimed.path turn.failure) }
    | .text => toStdout call turn world text body claimed config
    | .qr columns =>
      match drawnCode encode text columns with
      | .error cause => { world with phase := .undoing claimed body cause }
      | .ok drawn => toStdout call turn world drawn body claimed config
  | .err e => { world with phase := .undoing claimed body (.bad e) }
  | _ => { world with phase := .broken }

/-- `Claimed::take`, as far as the file being there. -/
def create (turn : Turn) (world : World) (path : String) : World :=
  match world.names path with
  | some _ => { world with phase := .ended (.error (.save path turn.failure)) }
  | none =>
    if turn.works then
      { world with
        names := Function.update world.names path (some world.fresh)
        bytes := Function.update world.bytes world.fresh []
        fresh := world.fresh + 1
        phase := .created ⟨path, world.fresh⟩ }
    else { world with phase := .ended (.error (.save path turn.failure)) }

/-- The call to the hub. -/
def ask (turn : Turn) (world : World) (claimed : Option Claimed)
    (privateKey : PrivateKey) : World :=
  let request := call.request (publicOf privateKey)
  let result := turn.send request
  { world with
    exchanges := world.exchanges ++ [(request, result)]
    phase := match result with
      | .error e => .drop claimed (.client e)
      | .ok response =>
        if response.isSuccess then .answered claimed privateKey response.body
        else .drop claimed (.refused (Join.explain response.status response.body)) }

/-- What is asked to undo a registration. -/
def undoes (body : String) : Option Request :=
  (Join.undoCredentials body).map fun credentials =>
    (Client.Call.remove credentials.2 credentials.1).request call.domain call.apiPort

/-- `Claimed::is_ours`. -/
def isOurs (turn : Turn) (world : World) (claimed : Claimed) : Bool :=
  turn.works && world.names claimed.path == some claimed.file

/-- Whether the run can remove what it ends without. -/
def Turn.removes (turn : Turn) : Phase → Bool
  | .created _ => turn.clears
  | _ => turn.works

def advance (turn : Turn) (world : World) : World :=
  match world.phase with
  | .called =>
    match turn.tools with
    | .error detail => { world with phase := .ended (.error (.wg detail)) }
    | .ok _ =>
      match call.handover with
      | .text => { world with phase := .ready none }
      | .file path => create turn world path
      | .qr columns =>
        let floor := Qr.columns smallest .half
        if columns < floor then { world with phase := .ended (.error (.tooNarrow floor columns)) }
        else { world with phase := .ready none }
  | .created claimed =>
    if turn.works then { world with phase := .ready (some claimed) }
    else
      { world with
        names := if turn.clears then Function.update world.names claimed.path none else world.names
        phase := .ended (.error (.save claimed.path turn.failure)) }
  | .ready claimed =>
    match turn.keys with
    | .error detail => { world with phase := .drop claimed (.wg detail) }
    | .ok privateKey => ask publicOf call turn world claimed privateKey
  | .answered claimed privateKey body => handOver encode call turn world claimed privateKey body
  | .filled claimed config body =>
    if isOurs turn world claimed
      then { world with phase := .ended (.ok ⟨config, call.handover.handed⟩) }
    else { world with phase := .undoing (some claimed) body (.taken claimed.path) }
  | .undoing claimed body cause =>
    { world with
      exchanges :=
        world.exchanges ++
          ((undoes call body).map fun request => (request, turn.send request)).toList
      phase := .drop claimed (.savedNothing
        (Join.postRegistration turn.send body call.domain call.apiPort
          Join.nothingHandedOver cause.display)) }
  | .dropping claimed failure =>
    { world with phase := if isOurs turn world claimed then .removing claimed failure
      else .ended (.error failure) }
  | .removing claimed failure =>
    { world with
      names := if turn.works then Function.update world.names claimed.path none else world.names
      phase := .ended (.error failure) }
  | .ended _ => world
  | .broken => world

inductive Event where
  /-- Others do what they like with the directory and with their files. -/
  | others (names : String → Option Nat) (bytes : Nat → List UInt8) (fresh : Nat)
  | own (turn : Turn)

def step (world : World) : Event → World
  | .others names bytes fresh => { world with names := names, bytes := bytes, fresh := fresh }
  | .own turn => advance encode publicOf call turn world

abbrev run (world : World) (events : List Event) : World :=
  Runs.run (step encode publicOf call) world events

def Event.isOwn : Event → Bool
  | others _ _ _ => false
  | own _ => true

/-- A name means a file that is there, a new file is new, and nobody else writes into the run's. -/
def Fair (world : World) : Event → Prop
  | .others names bytes fresh =>
    world.fresh ≤ fresh ∧ (∀ path file, names path = some file → file < fresh) ∧
      ∀ claimed, world.phase.held = some claimed → bytes claimed.file = world.bytes claimed.file
  | .own _ => True

section
variable (start : World)

/-- The hub let the phone in, for the key of this run and with this answer. -/
def Asked (exchanges : List Exchange) (privateKey : PrivateKey) (body : String) : Prop :=
  ∃ response, exchanges = [(call.request (publicOf privateKey), .ok response)] ∧
    response.isSuccess = true ∧
    response.body = body

def agrees : Except ClientError Response → Bool
  | .ok response => response.isSuccess
  | .error _ => false

/-- What was asked when an export failed. -/
inductive Failed : List Exchange → Failure → Prop
  | wg (detail : String) : Failed [] (.wg detail)
  | narrow {columns : Nat} (asked : call.handover = .qr columns)
    (few : columns < Qr.columns smallest .half) :
    Failed [] (.tooNarrow (Qr.columns smallest .half) columns)
  | file {path : String} (asked : call.handover = .file path) (failure : IoFailure) :
    Failed [] (.save path failure)
  | lost (privateKey : PrivateKey) (e : ClientError) :
    Failed [(call.request (publicOf privateKey), .error e)] (.client e)
  | refused (privateKey : PrivateKey) {response : Response} (refuses : response.isSuccess = false) :
    Failed [(call.request (publicOf privateKey), .ok response)]
      (.refused (Join.explain response.status response.body))
  | unreadable {exchanges : List Exchange} {privateKey : PrivateKey} {body : String}
    (asked : Asked publicOf call exchanges privateKey body)
      (unknown : Join.undoCredentials body = none) (cause : Cause) :
    Failed exchanges (.savedNothing ⟨Join.nothingHandedOver, cause.display,
      Join.recoveryNote .unknown⟩)
  | undone {exchanges : List Exchange} {privateKey : PrivateKey} {body : String} {name : DeviceName}
    {token : DeviceToken} (asked : Asked publicOf call exchanges privateKey body)
    (known : Join.undoCredentials body = some (name, token))
    (result : Except ClientError Response) (cause : Cause) :
    Failed
      (exchanges ++ [((Client.Call.remove token name).request call.domain call.apiPort, result)])
      (.savedNothing ⟨Join.nothingHandedOver, cause.display,
        Join.recoveryNote (if agrees result then .done else .failed name.asStr)⟩)

/-- The text of the config is where it was asked for. -/
def Delivered (world : World) (text : String) : Prop :=
  match call.handover with
  | .text => world.screen = start.screen ++ asBytes text
  | .file path =>
    ∃ file, start.fresh ≤ file ∧ world.names path = some file ∧ world.bytes file = asBytes text
  | .qr columns =>
    ∃ drawn, drawnCode encode text columns = .ok drawn ∧
      world.screen = start.screen ++ asBytes drawn

/-- The phone has what the hub registered it with. -/
structure HandedOver (world : World) (exported : Exported) : Prop where
  handed : exported.handed = call.handover.handed
  delivered : ∃ privateKey body profile, Asked publicOf call world.exchanges privateKey body ∧
    Join.accepted body call.domain call.apiPort privateKey = .ok (exported.config, profile) ∧
    Delivered encode call start world (exportProfile profile).expose

/-- The file was taken, and nothing is in it yet. -/
structure Prepared (screen : List UInt8) (bytes : Nat → List UInt8)
    (claimed : Option Claimed) : Prop where
  screen : screen = start.screen
  taken : claimed.isSome = call.handover.claims.isSome
  empty : ∀ file, claimed = some file → bytes file.file = []
  fits : ∀ columns, call.handover = .qr columns → Qr.columns smallest .half ≤ columns

/-- What a run has done when it is this far. -/
def Holds (world : World) : Prop :=
  match world.phase with
  | .called => world.exchanges = [] ∧ world.screen = start.screen
  | .created claimed =>
    world.exchanges = [] ∧ Prepared call start world.screen world.bytes (some claimed)
  | .ready claimed => world.exchanges = [] ∧ Prepared call start world.screen world.bytes claimed
  | .answered claimed privateKey body =>
    Asked publicOf call world.exchanges privateKey body ∧
      Prepared call start world.screen world.bytes claimed
  | .filled claimed config body =>
    ∃ privateKey profile, Asked publicOf call world.exchanges privateKey body ∧
      Join.accepted body call.domain call.apiPort privateKey = .ok (config, profile) ∧
      world.bytes claimed.file = asBytes (exportProfile profile).expose
  | .undoing _ body _ => ∃ privateKey, Asked publicOf call world.exchanges privateKey body
  | .dropping _ failure => Failed publicOf call world.exchanges failure
  | .removing _ failure => Failed publicOf call world.exchanges failure
  | .ended (.error failure) => Failed publicOf call world.exchanges failure
  | .ended (.ok _) => True
  | .broken => False

/-- What is written to standard output for a text. -/
def Shown (text shown : String) : Prop :=
  call.handover = .text ∧ shown = text ∨
    ∃ columns, call.handover = .qr columns ∧ drawnCode encode text columns = .ok shown

structure Sound (world : World) : Prop where
  names : ∀ path file, world.names path = some file → file < world.fresh
  grown : start.fresh ≤ world.fresh
  held : ∀ claimed, world.phase.held = some claimed →
    call.handover.claims = some claimed.path ∧ start.fresh ≤ claimed.file ∧
    claimed.file < world.fresh
  holds : Holds publicOf call start world

/-- What a move leaves that ends a run. -/
structure Ending (turn : Turn) (world world' : World) : Prop where
  well : ∀ exported, 0 < world.phase.left → world'.phase = .ended (.ok exported) →
    HandedOver encode publicOf call start world' exported
  failed : ∀ failure, world'.phase = .ended (.error failure) →
    Failed publicOf call world'.exchanges failure
  /-- No file of the run stays behind, where it can be told and removed. -/
  gone : ∀ failure claimed, world'.phase = .ended (.error failure) →
    turn.removes world.phase = true →
    world.phase.held = some claimed → world'.names claimed.path ≠ some claimed.file

/-- What one move leaves alone. -/
structure Confined (world world' : World) : Prop where
  /-- No file that was there, but the run's own. -/
  bytes : ∀ file < world.fresh, (∀ claimed, world.phase.held = some claimed → claimed.file ≠ file) →
    world'.bytes file = world.bytes file
  names : ∀ path, call.handover.claims ≠ some path → world'.names path = world.names path
  /-- A name that is taken was free, and means a new file. -/
  taken : ∀ path file, world'.names path = some file → world.names path = some file ∨
    world.names path = none ∧ file = world.fresh
  /-- What can refuse has not refused before the code is spent. -/
  spent : world.exchanges = [] → world'.exchanges ≠ [] →
    (∀ path, call.handover.claims = some path → ∃ file, world.phase.held = some ⟨path, file⟩) ∧
      ∀ columns, call.handover = .qr columns → Qr.columns smallest .half ≤ columns

end

section
variable {encode : String → Option Qr.Modules} {publicOf : PrivateKey → String} {call : Call}
  {start world : World}

theorem toStdout_cases (turn : Turn) (world : World) (text body : String) (claimed : Option Claimed)
    (config : DeviceConfig) :
    toStdout call turn world text body claimed config =
        { world with
          screen := world.screen ++ asBytes text
          phase := .ended (.ok ⟨config, call.handover.handed⟩) } ∨
      ∃ screen cause, toStdout call turn world text body claimed config =
        { world with screen := screen, phase := .undoing claimed body cause } := by
  rw [toStdout]
  split
  · exact Or.inl rfl
  · exact Or.inr ⟨_, _, rfl⟩

/-- A config is shown, or is in the run's file, or is not handed over; then the run's file may hold
a part of it. -/
theorem handOver_cases (turn : Turn) (world : World) (claimed : Option Claimed)
    (privateKey : PrivateKey) (body : String) :
    (∃ config profile shown, Join.accepted body call.domain call.apiPort privateKey = .ok
      (config, profile) ∧
      Shown encode call (exportProfile profile).expose shown ∧
      handOver encode call turn world claimed privateKey body =
        { world with
          screen := world.screen ++ asBytes shown
          phase := .ended (.ok ⟨config, call.handover.handed⟩) }) ∨
    (∃ config profile own, Join.accepted body call.domain call.apiPort privateKey =
      .ok (config, profile) ∧
      claimed = some own ∧
      handOver encode call turn world claimed privateKey body =
        { world with
          bytes := Function.update world.bytes own.file
            (written (asBytes (exportProfile profile).expose) (world.bytes own.file))
          phase := .filled own config body }) ∨
    ∃ cause screen bytes, (∀ file, (∀ own, claimed = some own → own.file ≠ file) →
      bytes file = world.bytes file) ∧
      handOver encode call turn world claimed privateKey body =
        { world with screen := screen, bytes := bytes, phase := .undoing claimed body cause } := by
  have fails (screen : List UInt8) (cause : Cause) : ∃ cause' screen' bytes,
      (∀ file, (∀ own, claimed = some own → own.file ≠ file) → bytes file = world.bytes file) ∧
        { world with screen := screen, phase := .undoing claimed body cause } =
          { world with screen := screen', bytes := bytes, phase := .undoing claimed body cause' } :=
    ⟨cause, screen, world.bytes, fun _ _ => rfl, rfl⟩
  rw [handOver]
  rcases Join.accepted_ends body call.domain call.apiPort privateKey
    with ⟨⟨config, profile⟩, accepted⟩ | ⟨e, accepted⟩
  · rw [accepted]
    simp only
    cases handover : call.handover with
    | text =>
      simp only
      rcases toStdout_cases turn world (exportProfile profile).expose body claimed config with same
        | ⟨screen, cause, same⟩
      · rw [same, handover]
        exact Or.inl ⟨config, profile, _, rfl, Or.inl ⟨handover, rfl⟩, rfl⟩
      · rw [same]
        exact Or.inr (Or.inr (fails screen cause))
    | qr columns =>
      simp only
      cases drew : drawnCode encode (exportProfile profile).expose columns with
      | error cause => exact Or.inr (Or.inr (fails world.screen cause))
      | ok drawn =>
        simp only
        rcases toStdout_cases turn world drawn body claimed config with same | ⟨screen, cause, same⟩
        · rw [same, handover]
          exact Or.inl ⟨config, profile, drawn, rfl, Or.inr ⟨columns, handover, drew⟩, rfl⟩
        · rw [same]
          exact Or.inr (Or.inr (fails screen cause))
    | file path =>
      simp only
      cases claimed with
      | none => exact Or.inr (Or.inr (fails world.screen _))
      | some own =>
        simp only
        split
        · exact Or.inr (Or.inl ⟨config, profile, own, rfl, rfl, rfl⟩)
        · refine Or.inr (Or.inr ⟨_, world.screen, _, fun file apart => ?_, rfl⟩)
          exact Function.update_of_ne (apart own rfl).symm ..
  · rw [accepted]
    exact Or.inr (Or.inr (fails world.screen _))

/-- A move that names no other file and takes no other one. -/
theorem Sound.keep (h : Sound publicOf call start world) {world' : World}
    (names : world'.names = world.names) (fresh : world'.fresh = world.fresh)
    (held : ∀ claimed, world'.phase.held = some claimed → world.phase.held = some claimed)
    (holds : Holds publicOf call start world') : Sound publicOf call start world' where
  names := by
    rw [names, fresh]
    exact h.names
  grown := by
    rw [fresh]
    exact h.grown
  held := by
    intro claimed there
    rw [fresh]
    exact h.held claimed (held claimed there)
  holds := holds

omit [Unicode] in
theorem held_drop {claimed : Option Claimed} {failure : Failure} {other : Claimed}
    (h : (Phase.drop claimed failure).held = some other) : claimed = some other := by
  cases claimed with
  | none => cases h
  | some claimed => exact h

theorem holds_drop {claimed : Option Claimed} {failure : Failure} {world : World}
    (failed : Failed publicOf call world.exchanges failure)
    (at_ : world.phase = .drop claimed failure) :
    Holds publicOf call start world := by
  rw [Holds, at_]
  cases claimed with
  | none => exact failed
  | some claimed => exact failed

theorem create_sound (h : Sound publicOf call start world) (turn : Turn) {path : String}
    (asked : call.handover = .file path) (nothing : world.exchanges = [])
    (screen : world.screen = start.screen) :
    Sound publicOf call start (create turn world path) := by
  have none_held {failure : Failure} {claimed : Claimed}
      (there : (Phase.ended (.error failure)).held = some claimed) :
      world.phase.held = some claimed := by cases there
  rw [create]
  cases world.names path with
  | some other => exact h.keep rfl rfl (fun _ => none_held) (by rw [nothing]; exact .file asked _)
  | none =>
    simp only
    split
    · refine ⟨fun other file there => ?_, Nat.le_succ_of_le h.grown, ?_, nothing,
        screen, ?_, ?_, ?_⟩
      · simp only [Function.update_apply] at there
        split at there
        · cases there
          exact Nat.lt_succ_self _
        · exact Nat.lt_succ_of_lt (h.names other file there)
      · rintro claimed ⟨⟩
        exact ⟨by rw [asked]; rfl, h.grown, Nat.lt_succ_self _⟩
      · rw [asked]
        rfl
      · rintro file ⟨⟩
        simp only [Function.update_self]
      · rw [asked]
        rintro columns ⟨⟩
    · exact h.keep rfl rfl (fun _ => none_held) (by rw [nothing]; exact .file asked _)

theorem ask_sound (h : Sound publicOf call start world) (turn : Turn) {claimed : Option Claimed}
    (privateKey : PrivateKey) (held : world.phase.held = claimed) (nothing : world.exchanges = [])
    (prepared : Prepared call start world.screen world.bytes claimed) :
    Sound publicOf call start (ask publicOf call turn world claimed privateKey) := by
  rw [ask]
  cases sent : turn.send (call.request (publicOf privateKey)) with
  | error e =>
    refine h.keep rfl rfl (fun other there => held.trans (held_drop there)) (holds_drop ?_ rfl)
    rw [nothing]
    exact .lost privateKey e
  | ok response =>
    simp only
    by_cases success : response.isSuccess = true
    · rw [if_pos success]
      refine h.keep rfl rfl (fun other there => held.trans there)
        ⟨⟨response, ?_, success, rfl⟩, prepared⟩
      rw [nothing]
      rfl
    · rw [if_neg success]
      refine h.keep rfl rfl (fun other there => held.trans (held_drop there)) (holds_drop ?_ rfl)
      rw [nothing]
      exact .refused privateKey (Bool.eq_false_iff.mpr success)

omit [Unicode] in
theorem held_of_cleans {phase : Phase} {claimed : Claimed} (h : phase.cleans = some claimed) :
    phase.held = some claimed := by
  cases phase with
  | created own => exact h
  | removing own failure => exact h
  | _ => cases h

omit [Unicode] in
theorem written_nil (data : List UInt8) : written data [] = data := by
  rw [written, List.drop_nil, List.append_nil]

theorem undone {body : String} {privateKey : PrivateKey} {exchanges : List Exchange}
    (turn : Turn) (cause : Cause) (asked : Asked publicOf call exchanges privateKey body) :
    Failed publicOf call
      (exchanges ++ ((undoes call body).map fun request => (request, turn.send request)).toList)
      (.savedNothing (Join.postRegistration turn.send body call.domain call.apiPort
        Join.nothingHandedOver cause.display)) := by
  rw [undoes, Join.postRegistration]
  cases known : Join.undoCredentials body with
  | none =>
    rw [Option.map_none, Option.map_none, Option.toList_none, List.append_nil]
    exact .unreadable asked known cause
  | some credentials =>
    obtain ⟨name, token⟩ := credentials
    have said : Join.undoRegistration turn.send call.domain call.apiPort name token =
        agrees (turn.send ((Client.Call.remove token name).request call.domain call.apiPort)) := by
      rw [Join.undoRegistration]
      cases turn.send ((Client.Call.remove token name).request call.domain call.apiPort) with
      | error e => rfl
      | ok response => rfl
    simp only [Option.map_some, Option.toList_some, said]
    exact .undone asked known _ cause

theorem advance_sound (turn : Turn) (h : Sound publicOf call start world) :
    Sound publicOf call start (advance encode publicOf call turn world) := by
  have holds := h.holds
  rw [advance]
  cases phase : world.phase with
  | called =>
    rw [Holds, phase] at holds
    obtain ⟨nothing, screen⟩ := holds
    simp only
    cases turn.tools with
    | error detail => exact h.keep rfl rfl (by rintro _ ⟨⟩) (by rw [nothing]; exact .wg detail)
    | ok _ =>
      simp only
      cases asked : call.handover with
      | text =>
        exact h.keep rfl rfl (by rintro _ ⟨⟩) ⟨nothing, screen, by rw [asked]; rfl, by rintro _ ⟨⟩,
          by rw [asked]; rintro _ ⟨⟩⟩
      | file path => exact create_sound h turn asked nothing screen
      | qr columns =>
        simp only
        split
        · next few =>
            exact h.keep rfl rfl (by rintro _ ⟨⟩) (by rw [nothing]; exact .narrow asked few)
        · next enough =>
          refine h.keep rfl rfl (by rintro _ ⟨⟩) ⟨nothing,
            screen, by rw [asked]; rfl, by rintro _ ⟨⟩, ?_⟩
          rw [asked]
          rintro other ⟨⟩
          exact Nat.not_lt.mp enough
  | created claimed =>
    rw [Holds, phase] at holds
    obtain ⟨nothing, prepared⟩ := holds
    obtain ⟨claims, low, there⟩ := h.held claimed (by rw [phase]; rfl)
    simp only
    split
    · refine h.keep rfl rfl ?_ ⟨nothing, prepared⟩
      intro other same
      rw [phase]
      exact same
    · refine ⟨fun path file named => ?_, h.grown, by rintro _ ⟨⟩, ?_⟩
      · simp only at named
        split at named
        · rw [Function.update_apply] at named
          split at named
          · cases named
          · exact h.names path file named
        · exact h.names path file named
      · show Failed publicOf call world.exchanges (.save claimed.path turn.failure)
        rw [nothing]
        cases asked : call.handover with
        | file path =>
          rw [asked] at claims
          cases claims
          exact .file asked turn.failure
        | text =>
          rw [asked] at claims
          cases claims
        | qr columns =>
          rw [asked] at claims
          cases claims
  | ready claimed =>
    rw [Holds, phase] at holds
    obtain ⟨nothing, prepared⟩ := holds
    have held : world.phase.held = claimed := by rw [phase]; rfl
    simp only
    cases turn.keys with
    | error detail =>
      refine h.keep rfl rfl (fun other there => held.trans (held_drop there)) (holds_drop ?_ rfl)
      rw [nothing]
      exact .wg detail
    | ok privateKey => exact ask_sound h turn privateKey held nothing prepared
  | answered claimed privateKey body =>
    rw [Holds, phase] at holds
    obtain ⟨asked, prepared⟩ := holds
    have held : world.phase.held = claimed := by rw [phase]; rfl
    simp only
    rcases handOver_cases turn world claimed privateKey body with
      ⟨config, profile, shown, _, _, same⟩ | ⟨config, profile, own, accepted, there, same⟩ | ⟨cause,
        screen, bytes, _, same⟩
    · rw [same]
      exact h.keep rfl rfl (by rintro _ ⟨⟩) trivial
    · rw [same]
      refine h.keep rfl rfl (fun other opened => (held.trans there).trans opened)
        ⟨privateKey, profile, asked, accepted, ?_⟩
      simp only [Function.update_self, prepared.empty own there, written_nil]
    · rw [same]
      exact h.keep rfl rfl (fun other opened => held.trans opened) ⟨privateKey, asked⟩
  | filled claimed config body =>
    rw [Holds, phase] at holds
    obtain ⟨privateKey, profile, asked, _⟩ := holds
    simp only
    split
    · exact h.keep rfl rfl (by rintro _ ⟨⟩) trivial
    · exact h.keep rfl rfl (fun other there => by rw [phase]; exact there) ⟨privateKey, asked⟩
  | undoing claimed body cause =>
    rw [Holds, phase] at holds
    obtain ⟨privateKey, asked⟩ := holds
    exact h.keep rfl rfl (fun other there => by rw [phase]; exact held_drop there)
      (holds_drop (undone turn cause asked) rfl)
  | dropping claimed failure =>
    rw [Holds, phase] at holds
    simp only
    split
    · exact h.keep rfl rfl (fun other there => by rw [phase]; exact there) holds
    · exact h.keep rfl rfl (by rintro _ ⟨⟩) holds
  | removing claimed failure =>
    rw [Holds, phase] at holds
    refine ⟨fun path file named => ?_, h.grown, by rintro _ ⟨⟩, holds⟩
    simp only at named
    split at named
    · rw [Function.update_apply] at named
      split at named
      · cases named
      · exact h.names path file named
    · exact h.names path file named
  | ended result => exact h
  | broken => exact h

theorem step_sound (h : Sound publicOf call start world) (event : Event) (fair : Fair world event) :
    Sound publicOf call start (step encode publicOf call world event) := by
  cases event with
  | own turn => exact advance_sound turn h
  | others names bytes fresh =>
    obtain ⟨more, there, kept⟩ := fair
    refine ⟨there, Nat.le_trans h.grown more, fun claimed held => ?_, ?_⟩
    · obtain ⟨claims, low, high⟩ := h.held claimed held
      exact ⟨claims, low, Nat.lt_of_lt_of_le high more⟩
    · have holds := h.holds
      have prepared {claimed : Option Claimed} (held : world.phase.held = claimed)
          (p : Prepared call start world.screen world.bytes claimed) :
            Prepared call start world.screen bytes claimed :=
        ⟨p.screen, p.taken, fun file same => (kept file (held.trans same)).trans
          (p.empty file same), p.fits⟩
      rw [Holds] at holds
      rw [step, Holds]
      cases phase : world.phase with
      | called | undoing _ _ _ | dropping _ _ | removing _ _ | broken =>
        rw [phase] at holds
        exact holds
      | ended result =>
        rw [phase] at holds
        cases result with
        | ok exported => trivial
        | error failure => exact holds
      | created claimed =>
        rw [phase] at holds
        exact ⟨holds.1, prepared (by rw [phase]; rfl) holds.2⟩
      | ready claimed =>
        rw [phase] at holds
        exact ⟨holds.1, prepared (by rw [phase]; rfl) holds.2⟩
      | answered claimed privateKey body =>
        rw [phase] at holds
        exact ⟨holds.1, prepared (by rw [phase]; rfl) holds.2⟩
      | filled claimed config body =>
        rw [phase] at holds
        obtain ⟨privateKey, profile, asked, accepted, filled⟩ := holds
        exact ⟨privateKey, profile, asked, accepted,
          (kept claimed (by rw [phase]; rfl)).trans filled⟩

omit [Unicode] in
theorem left_drop (claimed : Option Claimed) (failure : Failure) :
    (Phase.drop claimed failure).left ≤ 2 := by
  cases claimed with
  | none => exact Nat.zero_le _
  | some claimed => exact Nat.le_refl _

theorem left_ask (turn : Turn) (world : World) (claimed : Option Claimed)
    (privateKey : PrivateKey) :
    (ask publicOf call turn world claimed privateKey).phase.left ≤ 5 := by
  rw [ask]
  cases turn.send (call.request (publicOf privateKey)) with
  | error e => exact Nat.le_trans (left_drop ..) (by omega)
  | ok response =>
    simp only
    split
    · exact Nat.le_refl _
    · exact Nat.le_trans (left_drop ..) (by omega)

omit [Unicode] in
theorem left_create (turn : Turn) (world : World) (path : String) :
    (create turn world path).phase.left ≤ 7 := by
  rw [create]
  cases world.names path with
  | some other => exact Nat.zero_le _
  | none =>
    simp only
    split
    · exact Nat.le_refl _
    · exact Nat.zero_le _

/-- Every move comes closer to the end. -/
theorem advance_left (turn : Turn) (world : World) :
    (advance encode publicOf call turn world).phase.left ≤ world.phase.left - 1 := by
  rw [advance]
  cases phase : world.phase with
  | called =>
    simp only
    cases turn.tools with
    | error detail => exact Nat.zero_le _
    | ok _ =>
      simp only
      cases call.handover with
      | text => exact (by decide : 6 ≤ 7)
      | file path => exact left_create turn world path
      | qr columns =>
        simp only
        split
        · exact Nat.zero_le _
        · exact (by decide : 6 ≤ 7)
  | created claimed =>
    simp only
    split
    · exact Nat.le_refl _
    · exact Nat.zero_le _
  | ready claimed =>
    simp only
    cases turn.keys with
    | error detail => exact Nat.le_trans (left_drop ..) (show 2 ≤ 5 by omega)
    | ok privateKey => exact left_ask turn world claimed privateKey
  | answered claimed privateKey body =>
    simp only
    rcases handOver_cases turn world claimed privateKey body with
      ⟨_, _, _, _, _, same⟩ | ⟨_, _, _, _, _, same⟩ | ⟨_, _, _, _, same⟩
    · rw [same]
      exact Nat.zero_le _
    · rw [same]
      exact Nat.le_refl _
    · rw [same]
      exact Nat.le_succ _
  | filled claimed config body =>
    simp only
    split
    · exact Nat.zero_le _
    · exact Nat.le_refl _
  | undoing claimed body cause => exact left_drop ..
  | dropping claimed failure =>
    simp only
    split
    · exact Nat.le_refl _
    · exact Nat.zero_le _
  | removing claimed failure => exact Nat.zero_le _
  | ended result =>
    simp only [phase]
    exact Nat.zero_le _
  | broken =>
    simp only [phase]
    exact Nat.zero_le _

theorem run_left (events : List Event) (world : World) :
    (run encode publicOf call world events).phase.left ≤
      world.phase.left - events.countP Event.isOwn := by
  induction events generalizing world with
  | nil => exact Nat.le_refl _
  | cons event events ih =>
    rw [run, Runs.run_cons, List.countP_cons]
    cases event with
    | others names bytes fresh => exact ih _
    | own turn =>
      have closer : (advance encode publicOf call turn world).phase.left ≤ world.phase.left - 1 :=
        advance_left turn world
      have rest := ih (advance encode publicOf call turn world)
      rw [Event.isOwn, if_pos rfl]
      refine Nat.le_trans rest ?_
      omega

section

theorem Confined.still {world' : World} (names : world'.names = world.names)
    (bytes : world'.bytes = world.bytes) (spent : world.exchanges = [] → world'.exchanges ≠ [] →
      (∀ path, call.handover.claims = some path → ∃ file, world.phase.held = some ⟨path, file⟩) ∧
        ∀ columns, call.handover = .qr columns → Qr.columns smallest .half ≤ columns) :
        Confined call world world' where
  bytes := by
    rw [bytes]
    exact fun _ _ _ => rfl
  names := by
    rw [names]
    exact fun _ _ => rfl
  taken := by
    rw [names]
    exact fun _ _ there => Or.inl there
  spent := spent

theorem create_confined (turn : Turn) (world : World) {path : String}
    (asked : call.handover = .file path) :
    Confined call world (create turn world path) := by
  have still (phase : Phase) : Confined call world { world with phase := phase } :=
    .still rfl rfl fun nothing some => absurd nothing some
  rw [create]
  cases free : world.names path with
  | some other => exact still _
  | none =>
    simp only
    split
    · refine ⟨fun file low _ => ?_, fun other apart => ?_, fun other file there => ?_,
        fun nothing some => absurd nothing some⟩
      · exact Function.update_of_ne (Nat.ne_of_lt low) ..
      · refine Function.update_of_ne ?_ ..
        rintro rfl
        exact apart (by rw [asked]; rfl)
      · simp only [Function.update_apply] at there
        split at there
        · next same =>
          cases there
          rw [same]
          exact Or.inr ⟨free, rfl⟩
        · exact Or.inl there
    · exact still _

/-- A name that goes. -/
theorem confined_without {path : String}
    (claims : call.handover.claims = some path) (phase : Phase) :
    Confined call world { world with
      names := Function.update world.names path none
      phase := phase } := by
  refine ⟨fun _ _ _ => rfl, fun other apart => ?_, fun other file there => ?_,
    fun nothing some => absurd nothing some⟩
  · refine Function.update_of_ne ?_ ..
    rintro rfl
    exact apart claims
  · simp only [Function.update_apply] at there
    split at there
    · cases there
    · exact Or.inl there

theorem advance_confined (turn : Turn) (h : Sound publicOf call start world) :
    Confined call world (advance encode publicOf call turn world) := by
  have holds := h.holds
  have still (phase : Phase) : Confined call world { world with phase := phase } :=
    .still rfl rfl fun nothing some => absurd nothing some
  rw [advance]
  cases phase : world.phase with
  | called =>
    simp only
    cases turn.tools with
    | error detail => exact still _
    | ok _ =>
      simp only
      cases asked : call.handover with
      | text => exact still _
      | file path => exact create_confined turn world asked
      | qr columns =>
        simp only
        split
        · exact still _
        · exact still _
  | created claimed =>
    obtain ⟨claims, _⟩ := h.held claimed (by rw [phase]; rfl)
    simp only
    split
    · exact still _
    · cases turn.clears with
      | true => exact confined_without claims _
      | false => exact still _
  | ready claimed =>
    rw [Holds, phase] at holds
    obtain ⟨_, prepared⟩ := holds
    simp only
    cases turn.keys with
    | error detail => exact still _
    | ok privateKey =>
      refine .still rfl rfl fun _ _ => ⟨fun path claims => ?_, prepared.fits⟩
      have some := prepared.taken
      rw [claims, Option.isSome_some, Option.isSome_iff_exists] at some
      obtain ⟨own, rfl⟩ := some
      obtain ⟨same, _⟩ := h.held own (by rw [phase]; rfl)
      cases same.symm.trans claims
      exact ⟨own.file, by rw [phase]; rfl⟩
  | answered claimed privateKey body =>
    have held : world.phase.held = claimed := by rw [phase]; rfl
    simp only
    rcases handOver_cases turn world claimed privateKey body with
      ⟨_, _, _, _, _, same⟩ | ⟨_, _, own, _, there, same⟩ | ⟨_, _, _, others, same⟩
    · rw [same]
      exact .still rfl rfl fun nothing some => absurd nothing some
    · rw [same]
      refine ⟨fun file _ apart => ?_, fun _ _ => rfl, fun _ _ => Or.inl,
        fun nothing some => absurd nothing some⟩
      exact Function.update_of_ne (apart own (held.trans there)).symm ..
    · rw [same]
      refine ⟨fun file _ apart => ?_, fun _ _ => rfl, fun _ _ => Or.inl,
        fun nothing some => absurd nothing some⟩
      exact others file fun own there => apart own (held.trans there)
  | filled claimed config body =>
    simp only
    split
    · exact still _
    · exact still _
  | undoing claimed body cause =>
    rw [Holds, phase] at holds
    obtain ⟨_, response, asked, _⟩ := holds
    refine .still rfl rfl fun nothing _ => ?_
    rw [asked] at nothing
    cases nothing
  | dropping claimed failure => exact still _
  | removing claimed failure =>
    obtain ⟨claims, _⟩ := h.held claimed (by rw [phase]; rfl)
    simp only
    split
    · exact confined_without claims _
    · exact still _
  | ended result => exact still _
  | broken => exact still _

omit [Unicode] in
theorem drop_ne_ok {claimed : Option Claimed} {failure : Failure} {exported : Exported}
    (h : Phase.drop claimed failure = .ended (.ok exported)) : False := by
  cases claimed with
  | none => cases h
  | some claimed => cases h

/-- A run that ends well has handed the config over. -/
theorem advance_hands {turn : Turn} (h : Sound publicOf call start world)
    (going : 0 < world.phase.left) {exported : Exported}
    (ends : (advance encode publicOf call turn world).phase = .ended (.ok exported)) :
    HandedOver encode publicOf call start (advance encode publicOf call turn world) exported := by
  have holds := h.holds
  rw [advance] at ends ⊢
  cases phase : world.phase with
  | called =>
    simp only [phase] at ends
    cases tools : turn.tools with
    | error detail =>
      simp only [tools] at ends
      cases ends
    | ok _ =>
      simp only [tools] at ends
      cases asked : call.handover with
      | text =>
        simp only [asked] at ends
        cases ends
      | file path =>
        simp only [asked, create] at ends
        split at ends
        · cases ends
        · split at ends
          · cases ends
          · cases ends
      | qr columns =>
        simp only [asked] at ends
        split at ends
        · cases ends
        · cases ends
  | created claimed =>
    simp only [phase] at ends
    split at ends
    · cases ends
    · cases ends
  | ready claimed =>
    simp only [phase] at ends
    split at ends
    · cases drop_ne_ok ends
    · rw [ask] at ends
      simp only at ends
      split at ends
      · cases drop_ne_ok ends
      · split at ends
        · cases ends
        · cases drop_ne_ok ends
  | answered claimed privateKey body =>
    rw [Holds, phase] at holds
    obtain ⟨asked, prepared⟩ := holds
    simp only [phase] at ends
    simp only
    rcases handOver_cases turn world claimed privateKey body with
      ⟨config, profile, shown, accepted, shows_, same⟩ | ⟨_, _, _, _, _, same⟩ | ⟨_, _, _, _, same⟩
    · rw [same] at ends ⊢
      cases ends
      refine ⟨rfl, privateKey, body, profile, asked, accepted, ?_⟩
      rw [Delivered]
      rcases shows_ with ⟨handover, rfl⟩ | ⟨columns, handover, drew⟩
      · rw [handover, ← prepared.screen]
      · rw [handover, ← prepared.screen]
        exact ⟨shown, drew, rfl⟩
    · rw [same] at ends
      cases ends
    · rw [same] at ends
      cases ends
  | filled claimed config body =>
    rw [Holds, phase] at holds
    obtain ⟨privateKey, profile, asked, accepted, filled⟩ := holds
    obtain ⟨claims, low, _⟩ := h.held claimed (by rw [phase]; rfl)
    simp only [phase] at ends ⊢
    split at ends
    · next ours =>
      cases ends
      rw [if_pos ours]
      rw [isOurs, Bool.and_eq_true, beq_iff_eq] at ours
      refine ⟨rfl, privateKey, body, profile, asked, accepted, ?_⟩
      rw [Delivered]
      cases to_ : call.handover with
      | file path =>
        rw [to_] at claims
        cases claims
        exact ⟨claimed.file, low, ours.2, filled⟩
      | text =>
        rw [to_] at claims
        cases claims
      | qr columns =>
        rw [to_] at claims
        cases claims
    · cases ends
  | undoing claimed body cause =>
    simp only [phase] at ends
    cases drop_ne_ok ends
  | dropping claimed failure =>
    simp only [phase] at ends
    split at ends
    · cases ends
    · cases ends
  | removing claimed failure =>
    simp only [phase] at ends
    cases ends
  | ended result =>
    rw [phase] at going
    cases going
  | broken =>
    rw [phase] at going
    cases going

/-- A run that fails leaves no file of its own behind, where it can tell and remove it. -/
theorem advance_leaves {turn : Turn} {failure : Failure}
    (ends : (advance encode publicOf call turn world).phase = .ended (.error failure))
    (works : turn.removes world.phase = true) {claimed : Claimed}
    (held : world.phase.held = some claimed) :
    (advance encode publicOf call turn world).names claimed.path ≠ some claimed.file := by
  rw [advance] at ends ⊢
  cases phase : world.phase with
  | called =>
    rw [phase] at held
    cases held
  | created own =>
    rw [phase, Turn.removes] at works
    rw [phase] at held
    cases held
    simp only [phase] at ends ⊢
    split at ends
    · cases ends
    · next fails =>
      simp only [fails, works, if_true, Bool.false_eq_true, if_false, Function.update_self]
      rintro ⟨⟩
  | ready own =>
    rw [phase] at held
    cases held
    simp only [phase] at ends
    split at ends
    · cases ends
    · rw [ask] at ends
      simp only at ends
      split at ends
      · cases ends
      · split at ends
        · cases ends
        · cases ends
  | answered own privateKey body =>
    simp only [phase] at ends
    rcases handOver_cases turn world own privateKey body with
      ⟨_, _, _, _, _, same⟩ | ⟨_, _, _, _, _, same⟩ | ⟨_, _, _, _, same⟩
    all_goals
      rw [same] at ends
      cases ends
  | filled own config body =>
    simp only [phase] at ends
    split at ends
    · cases ends
    · cases ends
  | undoing own body cause =>
    rw [phase] at held
    cases held
    simp only [phase] at ends
    cases ends
  | dropping own failure =>
    rw [phase] at held
    cases held
    simp only [phase] at ends ⊢
    split at ends
    · cases ends
    · next other =>
      intro same
      refine other ?_
      rw [phase] at works
      change turn.works = true at works
      rw [isOurs, works, same]
      exact beq_self_eq_true _
  | removing own failure =>
    rw [phase] at works held
    change turn.works = true at works
    cases held
    simp only [works, if_true, Function.update_self]
    rintro ⟨⟩
  | ended result =>
    rw [phase] at held
    cases held
  | broken =>
    rw [phase] at held
    cases held

/-- A name is taken for a new file or given up by a run that cleans up. -/
theorem advance_names (turn : Turn) (world : World) :
    (advance encode publicOf call turn world).names = world.names ∨
      (∃ path, world.names path = none ∧
        (advance encode publicOf call turn world).names =
          Function.update world.names path (some world.fresh)) ∨
      ∃ claimed, (advance encode publicOf call turn world).names =
        Function.update world.names claimed.path none ∧
        world.phase.cleans = some claimed := by
  rw [advance]
  cases phase : world.phase with
  | called =>
    simp only
    cases turn.tools with
    | error detail => exact Or.inl rfl
    | ok _ =>
      simp only
      cases call.handover with
      | text => exact Or.inl rfl
      | file path =>
        simp only [create]
        cases free : world.names path with
        | some other => exact Or.inl rfl
        | none =>
          simp only
          split
          · exact Or.inr (Or.inl ⟨path, free, rfl⟩)
          · exact Or.inl rfl
      | qr columns =>
        simp only
        split
        · exact Or.inl rfl
        · exact Or.inl rfl
  | created claimed =>
    simp only
    split
    · exact Or.inl rfl
    · cases turn.clears with
      | true => exact Or.inr (Or.inr ⟨claimed, rfl, rfl⟩)
      | false => exact Or.inl rfl
  | ready claimed =>
    simp only
    cases turn.keys with
    | error detail => exact Or.inl rfl
    | ok privateKey => exact Or.inl rfl
  | answered claimed privateKey body =>
    refine Or.inl ?_
    simp only
    rcases handOver_cases turn world claimed privateKey body with
      ⟨_, _, _, _, _, same⟩ | ⟨_, _, _, _, _, same⟩ | ⟨_, _, _, _, same⟩
    all_goals rw [same]
  | filled claimed config body =>
    simp only
    split
    · exact Or.inl rfl
    · exact Or.inl rfl
  | undoing claimed body cause => exact Or.inl rfl
  | dropping claimed failure => exact Or.inl rfl
  | removing claimed failure =>
    simp only
    split
    · exact Or.inr (Or.inr ⟨claimed, rfl, rfl⟩)
    · exact Or.inl rfl
  | ended result => exact Or.inl rfl
  | broken => exact Or.inl rfl

/-- A name goes while the run cleans up. -/
theorem advance_removes {turn : Turn} {path : String} {file : Nat}
    (before : world.names path = some file)
    (after : (advance encode publicOf call turn world).names path = none) :
    ∃ claimed, claimed.path = path ∧ world.phase.cleans = some claimed := by
  rcases advance_names turn world with same | ⟨other, free, same⟩ | ⟨claimed, same, phase⟩
  · rw [same, before] at after
    cases after
  · rw [same, Function.update_apply] at after
    split at after
    · cases after
    · cases before.symm.trans after
  · rw [same, Function.update_apply] at after
    split at after
    · next here => exact ⟨claimed, here.symm, phase⟩
    · cases before.symm.trans after

/-- Before it cleans up, a run has just made the file or has just seen that it still has its name.
-/
theorem advance_sees {turn : Turn} {claimed : Claimed}
    (next : (advance encode publicOf call turn world).phase.cleans = some claimed) :
    (advance encode publicOf call turn world).names claimed.path = some claimed.file := by
  have drops {own : Option Claimed} {failure : Failure}
      (next : (Phase.drop own failure).cleans = some claimed) :
      False := by
    cases own with
    | none => cases next
    | some own => cases next
  rw [advance] at next ⊢
  cases phase : world.phase with
  | called =>
    simp only [phase] at next ⊢
    cases tools : turn.tools with
    | error detail =>
      simp only [tools] at next
      cases next
    | ok _ =>
      simp only [tools] at next ⊢
      cases handover : call.handover with
      | text =>
        simp only [handover] at next
        cases next
      | qr columns =>
        simp only [handover] at next
        split at next
        · cases next
        · cases next
      | file path =>
        simp only [handover, create] at next ⊢
        cases free : world.names path with
        | some other =>
          simp only [free] at next
          cases next
        | none =>
          simp only [free] at next ⊢
          split at next
          · next works =>
            rw [if_pos works]
            cases next
            exact Function.update_self ..
          · cases next
  | created own =>
    simp only [phase] at next
    split at next
    · cases next
    · cases next
  | ready own =>
    simp only [phase] at next
    split at next
    · cases drops next
    · rw [ask] at next
      simp only at next
      split at next
      · cases drops next
      · split at next
        · cases next
        · cases drops next
  | answered own privateKey body =>
    simp only [phase] at next
    rcases handOver_cases turn world own privateKey body with
      ⟨_, _, _, _, _, same⟩ | ⟨_, _, _, _, _, same⟩ | ⟨_, _, _, _, same⟩
    all_goals
      rw [same] at next
      cases next
  | filled own config body =>
    simp only [phase] at next
    split at next
    · cases next
    · cases next
  | undoing own body cause =>
    simp only [phase] at next
    cases drops next
  | dropping own failure =>
    simp only [phase] at next ⊢
    split at next
    · next ours =>
      cases next
      rw [isOurs, Bool.and_eq_true, beq_iff_eq] at ours
      exact ours.2
    · cases next
  | removing own failure =>
    simp only [phase] at next
    cases next
  | ended result =>
    simp only [phase] at next
    cases next
  | broken =>
    simp only [phase] at next
    cases next

theorem others_run {quiet : List Event} (h : ∀ event ∈ quiet, event.isOwn = false) :
    (run encode publicOf call world quiet).phase = world.phase := by
  induction quiet generalizing world with
  | nil => rfl
  | cons event quiet ih =>
    cases event with
    | own turn => cases h _ List.mem_cons_self
    | others names bytes fresh => exact ih fun other there => h other (List.mem_cons_of_mem _ there)

theorem run_sound (called : start.phase = .called) (nothing : start.exchanges = [])
    (there : ∀ path file, start.names path = some file → file < start.fresh) {events : List Event}
    (fair : Runs.Along (step encode publicOf call) Fair start events) :
    Sound publicOf call start (run encode publicOf call start events) := by
  have first : Sound publicOf call start start := by
    refine ⟨there, Nat.le_refl _, fun claimed held => ?_, ?_⟩
    · rw [called] at held
      cases held
    · rw [Holds, called]
      exact ⟨nothing, rfl⟩
  exact fair.keeps (fun world event fair h => step_sound h event fair) first

omit [Unicode] in
/-- The last move of the run itself, where it has made one. -/
theorem last_own (events : List Event) : (∀ event ∈ events, event.isOwn = false) ∨
    ∃ earlier turn quiet, events = earlier ++ .own turn :: quiet ∧
      ∀ event ∈ quiet, event.isOwn = false := by
  induction events using List.reverseRecOn with
  | nil => exact Or.inl nofun
  | append_singleton events event ih =>
    cases event with
    | own turn => exact Or.inr ⟨events, turn, [], rfl, nofun⟩
    | others names bytes fresh =>
      have one : ∀ {quiet : List Event}, (∀ event ∈ quiet, event.isOwn = false) →
          ∀ event ∈ quiet ++ [.others names bytes fresh], event.isOwn = false := by
        intro quiet none event mem
        rcases List.mem_append.mp mem with mem | mem
        · exact none event mem
        · rw [List.mem_singleton.mp mem]
          rfl
      rcases ih with none | ⟨earlier, turn, quiet, rfl, none⟩
      · exact Or.inl (one none)
      · refine Or.inr ⟨earlier, turn, quiet ++ [.others names bytes fresh], ?_, one none⟩
        rw [List.append_assoc, List.cons_append]

/-- An export hands the config over, or the hub was asked nothing, said no, was told to forget the
phone or could not be. Whatever others do to the directory meanwhile: each move leaves every
file alone but the run's own and every name but the one that was asked for, the code is not spent
before that one is taken, and a name is removed only where the move before saw it mean the
run's own file. -/
theorem export_run (called : start.phase = .called) (nothing : start.exchanges = [])
    (there : ∀ path file, start.names path = some file → file < start.fresh) {events : List Event}
    (fair : Runs.Along (step encode publicOf call) Fair start events) :
    let run := run encode publicOf call start
    (∀ before turn after, events = before ++ .own turn :: after →
      Confined call (run before) (run (before ++ [.own turn])) ∧
        Ending encode publicOf call start turn (run before) (run (before ++ [.own turn])) ∧
        ∀ path file, (run before).names path = some file →
          (run (before ++ [.own turn])).names path = none →
          ∃ earlier turn' quiet own, before = earlier ++ .own turn' :: quiet ∧
            (∀ event ∈ quiet, event.isOwn = false) ∧ start.fresh ≤ own ∧
            (run (earlier ++ [.own turn'])).phase.held = some ⟨path, own⟩ ∧
            (run (earlier ++ [.own turn'])).names path = some own) ∧
      (8 ≤ events.countP Event.isOwn → ∃ result, (run events).phase = .ended result) := by
  intro run
  have moves : ∀ before turn, run (before ++ [.own turn]) =
      advance encode publicOf call turn (run before) :=
    fun before turn => Runs.run_append ..
  refine ⟨?_, fun enough => ?_⟩
  · rintro before turn after rfl
    have h := run_sound called nothing there fair.before
    rw [moves]
    refine ⟨advance_confined turn h, ⟨fun exported going ends => advance_hands h going ends,
      fun failure ends => ?_, fun failure claimed ends works held =>
        advance_leaves ends works held⟩, ?_⟩
    · have sound : Sound publicOf call start (advance encode publicOf call turn (run before)) :=
        advance_sound turn h
      have failed := sound.holds
      rw [Holds, ends] at failed
      exact failed
    · intro path file named gone
      obtain ⟨claimed, rfl, cleans⟩ := advance_removes named gone
      rcases last_own before with none | ⟨earlier, turn', quiet, rfl, none⟩
      · rw [others_run none, called] at cleans
        cases cleans
      · have split : run (earlier ++ .own turn' :: quiet) =
            Export.run encode publicOf call (run (earlier ++ [.own turn'])) quiet := by
          rw [List.append_cons]
          exact Runs.run_append ..
        rw [split, others_run none] at cleans
        have sound : Sound publicOf call start (run (earlier ++ [.own turn'])) := by
          rw [List.append_assoc, List.cons_append, List.append_cons] at fair
          exact run_sound called nothing there fair.before
        have held := held_of_cleans cleans
        obtain ⟨_, low, _⟩ := sound.held claimed held
        refine ⟨earlier, turn', quiet, claimed.file, rfl, none, low, held, ?_⟩
        rw [moves] at cleans ⊢
        exact advance_sees cleans
  · have h := run_sound called nothing there fair
    have left : (run events).phase.left ≤ start.phase.left - events.countP Event.isOwn :=
      run_left events start
    rw [called] at left
    have holds : Holds publicOf call start (run events) := h.holds
    rw [Holds] at holds
    cases phase : (run events).phase with
    | ended result => exact ⟨result, rfl⟩
    | broken =>
      rw [phase] at holds
      exact holds.elim
    | _ =>
      rw [phase] at left
      simp only [Phase.left] at left
      omega

end

end

end Export

namespace Export

open Client

def sampleCall : @Call asciiTables :=
  @Call.mk asciiTables "hub.example.com" Init.sampleCode Commands.sampleStudio 8443
    (.file "phone.conf")

def sampleStart : World := ⟨fun _ => none, fun _ => [], 0, [], [], .called⟩

def sampleTurn : Turn :=
  ⟨.ok (), true, true, ⟨"", ""⟩, 0, .ok ⟨"key"⟩, fun _ => .error (.lost "timeout")⟩

/-- The file is renamed and another put in its place while the hub is asked. -/
def sampleSwap : Event :=
  .others (fun path => if path = "phone.conf" then some 1 else if path = "stolen.conf" then some 0
    else none) (fun _ => []) 2

def sampleEvents : List Event := [.own sampleTurn, .own sampleTurn, .own sampleTurn, sampleSwap]

/-- The phone's file is in place while the hub does not answer, and the one that is there by then
is left alone. -/
theorem export_run_sample :
    letI := asciiTables
    ∃ failure, (run (fun _ => none) PrivateKey.text sampleCall sampleStart
      (sampleEvents ++ [.own sampleTurn])).phase =
        .ended (.error failure) ∧
      Failed PrivateKey.text sampleCall
        [(sampleCall.request "key", .error (.lost "timeout"))] failure ∧
      (run (fun _ => none) PrivateKey.text sampleCall sampleStart
        (sampleEvents ++ [.own sampleTurn])).names "phone.conf" =
        some 1 := by
  let := asciiTables
  have there : ∀ path file, sampleStart.names path = some file → file < sampleStart.fresh := by
    rintro path file ⟨⟩
  have swapped : Fair (run (fun _ => none) PrivateKey.text sampleCall sampleStart
      [.own sampleTurn, .own sampleTurn, .own sampleTurn]) sampleSwap := by
    refine ⟨Nat.le_succ 1, fun path file named => ?_, fun claimed _ => ?_⟩
    · simp only at named
      by_cases phone : path = "phone.conf"
      · rw [if_pos phone] at named
        cases named
        exact Nat.lt_succ_self 1
      · rw [if_neg phone] at named
        by_cases stolen : path = "stolen.conf"
        · rw [if_pos stolen] at named
          cases named
          exact Nat.zero_lt_succ 1
        · rw [if_neg stolen] at named
          cases named
    · exact (congrFun (Function.update_eq_self 0 fun _ => []) claimed.file).symm
  have fair : Runs.Along (step (fun _ => none) PrivateKey.text sampleCall) Fair sampleStart
      (sampleEvents ++ [.own sampleTurn]) := ⟨trivial, trivial, trivial, swapped, trivial, trivial⟩
  obtain ⟨moves, _⟩ := export_run rfl rfl there fair
  obtain ⟨_, ending, _⟩ := moves sampleEvents sampleTurn [] rfl
  have ended :
      (run (fun _ => none) PrivateKey.text sampleCall sampleStart
        (sampleEvents ++ [.own sampleTurn])).phase =
      .ended (.error (.client (.lost "timeout"))) := rfl
  exact ⟨_, ended, ending.failed _ ended, rfl⟩

end Export
