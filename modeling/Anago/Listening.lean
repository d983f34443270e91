import Anago.Handlers
import Anago.RenewalLoop
import Anago.X509

/-!
# The certificate a running hub presents

At every tick the hub reads its certificate files and presents what is in them, if it is a pair.
Its own renewals it presents itself. The files and the state file may change at any time.
-/

open StdText Utf8Text

namespace Serve

/-- What the PEM reader and the TLS library make of bytes. -/
structure Library (κ γ : Type) where
  certs : List UInt8 → Except String (List (List UInt8))
  keys : List UInt8 → Except String (List κ)
  pair : List (List UInt8) → κ → Except String γ

inductive PemError where
  | noCertificates
  | noPrivateKey
  | manyPrivateKeys (count : Nat)
  | malformed (detail : String)
  | rejected (detail : String)
  deriving DecidableEq, Repr

def PemError.display : PemError → String
  | noCertificates => "no CERTIFICATE block found — is this the certificate file, in PEM form?"
  | noPrivateKey => "no private key found — expected PKCS#8, SEC1, or PKCS#1 PEM"
  | manyPrivateKeys count =>
    "found " ++ String.ofList (DecimalText.showNat count) ++
      " private keys; give a file with exactly one"
  | malformed detail => "not valid PEM: " ++ detail
  | rejected detail =>
    "certificate and key were rejected: " ++ detail ++ " — do they belong together?"

/-- Why a file could not be read. `other` has the kind's name in small letters. -/
inductive ErrorKind where
  | notFound
  | permissionDenied
  | isADirectory
  | other (name : String)
  deriving DecidableEq, Repr

def ErrorKind.what : ErrorKind → String
  | notFound => "not found"
  | permissionDenied => "permission denied"
  | isADirectory => "isadirectory"
  | other name => name

def ioHint : ErrorKind → String
  | .notFound => "check the path — M0 does not issue certificates, it takes one you already have"
  | .permissionDenied => "certificate keys are usually root-only; run `anago server init` as root"
  | .isADirectory => "expected the PEM file itself, not the directory"
  | .other _ => "check that the file exists and is readable"

inductive TlsError where
  | io (path : String) (kind : ErrorKind) (hint : String)
  | pem (path : String) (error : PemError)
  | pair (certPath keyPath : String) (error : PemError)
  deriving DecidableEq, Repr

def TlsError.display : TlsError → String
  | io path kind hint => path ++ ": " ++ kind.what ++ " — " ++ hint
  | pem path error => path ++ ": " ++ error.display
  | pair certPath keyPath error => certPath ++ " with " ++ keyPath ++ ": " ++ error.display

structure File where
  bytes : List UInt8
  mode : UInt32
  deriving DecidableEq, Repr

/-- What opening a path gives. -/
abbrev Files := String → Except ErrorKind File

/-- The certificates a listener hands out, the leaf first. -/
abbrev Chain := List (List UInt8)

/-- When the leaf runs out. -/
def Chain.expiry (chain : Chain) : Option Int :=
  chain.head?.bind fun leaf =>
    match X509.notAfter leaf with
    | .ok at_ => some at_
    | _ => none

structure LoadedTls (γ : Type) where
  config : γ
  chain : Chain
  notAfter : Option Int
  warnings : List String
  deriving DecidableEq

def octal (mode : Nat) : String :=
  String.ofList ([512, 64, 8, 1].map fun place => Char.ofNat (48 + mode / place % 8))

/-- Complains about a key that others can read. -/
def permissionWarning (path : String) (mode : UInt32) : Option String :=
  if mode &&& 0o077 = 0 then none
  else some (path ++ " is readable by other users (mode " ++ octal (mode &&& 0o7777).toNat ++
    ") — `chmod 600 " ++ path ++ "`")

variable {κ γ : Type} (lib : Library κ γ)

def parseCerts (pem : List UInt8) : Except PemError Chain :=
  match lib.certs pem with
  | .error detail => .error (.malformed detail)
  | .ok [] => .error .noCertificates
  | .ok certs => .ok certs

/-- The one private key in a file. -/
def parseKey (pem : List UInt8) : Except PemError κ :=
  match lib.keys pem with
  | .error detail => .error (.malformed detail)
  | .ok [] => .error .noPrivateKey
  | .ok [key] => .ok key
  | .ok keys => .error (.manyPrivateKeys keys.length)

/-- What two files, as they were read, come to. -/
def load (certPath keyPath : String) (cert key : Except ErrorKind File) :
    Except TlsError (LoadedTls γ) := do
  let certFile ← cert.mapError fun kind => .io certPath kind (ioHint kind)
  let keyFile ← key.mapError fun kind => .io keyPath kind (ioHint kind)
  let certs ← (parseCerts lib certFile.bytes).mapError fun e => .pem certPath e
  let privateKey ← (parseKey lib keyFile.bytes).mapError fun e => .pem keyPath e
  let config ← (lib.pair certs privateKey).mapError fun detail =>
    .pair certPath keyPath (.rejected detail)
  .ok ⟨config, certs, certs.expiry, (permissionWarning keyPath keyFile.mode).toList⟩

/-- What the hub presents: the handle the listener reads, and the chain that went into it. -/
structure Listening (γ : Type) where
  handle : γ
  serving : Chain
  deriving DecidableEq

def Listening.new (loaded : LoadedTls γ) : Listening γ := ⟨loaded.config, loaded.chain⟩

def Listening.present (_ : Listening γ) (loaded : LoadedTls γ) : Listening γ :=
  ⟨loaded.config, loaded.chain⟩

inductive Reload where
  | unchanged
  | swap
  | keep (why : String)
  deriving DecidableEq, Repr

/-- Whether what is on disk should replace what is served. -/
def reload (serving : Chain) (found : Except TlsError Chain) : Reload :=
  match found with
  | .ok chain => if chain = serving then .unchanged else .swap
  | .error e =>
    .keep (e.display ++
      " — the hub is still serving the certificate it already has, and " ++
        "will look again at the next check")

/-- Compares what was found with what is presented, and acts on it. -/
def Listening.take (listening : Listening γ) (found : Except TlsError (LoadedTls γ)) :
    Reload × Listening γ :=
  let decided := reload listening.serving (found.map LoadedTls.chain)
  match found with
  | .ok loaded =>
    if decided = .swap then (decided, ⟨loaded.config, loaded.chain⟩) else (decided, listening)
  -- an error is never a swap
  | .error _ => (decided, listening)

/-- A handle and its chain go together. -/
def Listening.Good (listening : Listening γ) : Prop :=
  listening.serving ≠ [] ∧ ∃ key, lib.pair listening.serving key = .ok listening.handle

section
variable {lib} {certPath keyPath : String} {cert key : Except ErrorKind File} {loaded : LoadedTls γ}

theorem parseCerts_ne_nil {pem : List UInt8} {chain : Chain}
    (h : parseCerts lib pem = .ok chain) : chain ≠ [] := by
  rw [parseCerts] at h
  split at h
  · cases h
  · cases h
  · next nonempty _ =>
    cases h
    rintro rfl
    exact nonempty rfl

theorem load_good (h : load lib certPath keyPath cert key = .ok loaded) :
    (Listening.new loaded).Good lib := by
  rw [load] at h
  obtain ⟨_, _, h⟩ := except_bind_eq_ok h
  obtain ⟨_, _, h⟩ := except_bind_eq_ok h
  obtain ⟨certs, parsed, h⟩ := except_bind_eq_ok h
  obtain ⟨privateKey, _, h⟩ := except_bind_eq_ok h
  obtain ⟨config, paired, h⟩ := except_bind_eq_ok h
  cases h
  have chain := Outcome.mapError_eq_ok parsed
  exact ⟨parseCerts_ne_nil chain, privateKey, Outcome.mapError_eq_ok paired⟩

end

open RenewalLoop AcmeClient Handlers

variable [Unicode]

/-- What a renewal is for: the settings of the tick, the state that was read, and when. -/
structure Renewing where
  tls : Tls
  state : ServerState
  since : Int64

/-- Where the renewal task is. -/
inductive Phase (γ : Type) where
  | resting
  | looking (tls : Tls) (step : Tick)
  | halfRead (tls : Tls) (step : Tick) (cert : Except ErrorKind File)
  | found (tls : Tls) (step : Tick) (pair : Except TlsError (LoadedTls γ))
  | due (tls : Tls)
  | issuing (renewing : Renewing)
  | renewed (renewing : Renewing) (renewed : Renewed)
  | halfLoaded (renewing : Renewing) (renewed : Renewed) (cert : Except ErrorKind File)
  | loaded (renewing : Renewing) (renewed : Renewed) (pair : LoadedTls γ)
  | recorded (pair : LoadedTls γ)

structure World (γ : Type) where
  file : String
  files : Files
  listening : Listening γ
  loop : Loop
  phase : Phase γ

/-- What one move of the hub meets. -/
structure Turn where
  now : Int64
  readable : Bool
  issuing : Except String Bool
  answer : Except RenewalFailure Renewed
  locked : Bool
  written : Bool

/-- A renewal that failed. -/
def World.miss (world : World γ) (tls : Tls) (now : Int64) (failure : RenewalFailure) : World γ :=
  { world with
    phase := .resting
    loop := { world.loop with
      renewals := (world.loop.renewals.failed now failure.kind failure.retryAfter (some tls)).2 } }

/-- `renewal_task`, one move at a time: `refresh` down to `take`, `renew_once` below. -/
def advance (turn : Turn) (world : World γ) : World γ :=
  match world.phase with
  | .resting =>
    match lock turn.readable world.file with
    | some state =>
      let (step, loop) := look world.loop turn.now (.ok state.tls)
      { world with loop := loop, phase := .looking state.tls step }
    | none => { world with loop := (look world.loop turn.now (.error "")).2 }
  | .looking tls step => { world with phase := .halfRead tls step (world.files tls.certPath) }
  | .halfRead tls step cert =>
    { world with phase := .found tls step (load lib tls.certPath tls.keyPath cert
      (world.files tls.keyPath)) }
  | .found tls step pair =>
    { world with
      listening := (world.listening.take pair).2
      phase := if step = .renew then .due tls else .resting }
  | .due tls =>
    match turn.issuing with
    | .error detail => world.miss tls turn.now (.localTo detail)
    | .ok false => world.miss tls turn.now .busy
    | .ok true =>
      match lock turn.readable world.file with
      | none => world.miss tls turn.now (.localTo "state")
      | some state => { world with phase := .issuing ⟨tls, state, turn.now⟩ }
  | .issuing renewing =>
    match turn.answer with
    | .error failure => world.miss renewing.tls turn.now failure
    | .ok renewed => { world with phase := .renewed renewing renewed }
  | .renewed renewing renewed =>
    { world with phase := .halfLoaded renewing renewed (world.files renewed.certificatePath) }
  | .halfLoaded renewing renewed cert =>
    match load lib renewed.certificatePath renewed.keyPath cert (world.files renewed.keyPath) with
    | .error e => world.miss renewing.tls turn.now (.localTo e.display)
    | .ok pair => { world with phase := .loaded renewing renewed pair }
  | .loaded renewing renewed pair =>
    match lock turn.locked world.file with
    | none => world.miss renewing.tls turn.now (.localTo "state")
    | some found =>
      if found.tls ≠ renewing.state.tls then
        world.miss renewing.tls turn.now (.localTo
          ("the hub's TLS settings changed while the certificate was being issued; " ++
            "nothing was recorded"))
      else if turn.written then
        { world with
          file := (record found renewed renewing.since).toJsonString
          phase := .recorded pair }
      else world.miss renewing.tls turn.now (.localTo "state")
  | .recorded pair =>
    { world with
      listening := world.listening.present pair
      loop := { world.loop with renewals := .new }
      phase := .resting }

/-- A move of the hub, or anything else that happens to the files: another tool, a command, the
answer of the CA on its way to the disk. -/
inductive Event where
  | outside (file : String) (files : Files)
  | hub (turn : Turn)

def Event.isHub : Event → Bool
  | outside _ _ => false
  | hub _ => true

def step (world : World γ) : Event → World γ
  | .outside file files => { world with file := file, files := files }
  | .hub turn => advance lib turn world

abbrev run (world : World γ) (events : List Event) : World γ := Runs.run (step lib) world events

/-- `server run` at its start. -/
structure Started (world : World γ) : Prop where
  loaded : ∃ state pair, ServerState.parse world.file = .ok state ∧
    load lib state.tls.certPath state.tls.keyPath (world.files state.tls.certPath)
      (world.files state.tls.keyPath) =
      .ok pair ∧ world.listening = .new pair
  loop : world.loop = .new
  phase : world.phase = .resting

/-- Pairs that were loaded are pairs. -/
def Phase.Holds : Phase γ → Prop
  | .found _ _ (.ok pair) => (Listening.new pair).Good lib
  | .loaded _ result pair =>
    ∃ cert key, load lib result.certificatePath result.keyPath cert key = .ok pair
  | .recorded pair => (Listening.new pair).Good lib
  | _ => True

structure Sound (world : World γ) : Prop where
  good : world.listening.Good lib
  holds : world.phase.Holds lib

section
variable {lib} {world : World γ} {listening : Listening γ}

omit [Unicode] in
theorem take_good (h : listening.Good lib) {pair : Except TlsError (LoadedTls γ)}
    (found : ∀ loaded, pair = .ok loaded → (Listening.new loaded).Good lib) :
    (listening.take pair).2.Good lib := by
  cases pair with
  | error e => exact h
  | ok loaded =>
    simp only [Listening.take]
    split
    · exact found loaded rfl
    · exact h

theorem Sound.miss (h : Sound lib world) (tls : Tls) (now : Int64) (failure : RenewalFailure) :
    Sound lib (world.miss tls now failure) :=
  ⟨h.good, trivial⟩

theorem advance_sound (turn : Turn) (h : Sound lib world) : Sound lib (advance lib turn world) := by
  have holds := h.holds
  rw [advance]
  cases phase : world.phase with
  | resting =>
    simp only
    split
    · exact ⟨h.good, trivial⟩
    · exact ⟨h.good, trivial⟩
  | looking tls step => exact ⟨h.good, trivial⟩
  | halfRead tls step cert =>
    refine ⟨h.good, ?_⟩
    simp only
    cases found : load lib tls.certPath tls.keyPath cert (world.files tls.keyPath) with
    | error e => trivial
    | ok pair => exact load_good found
  | found tls step pair =>
    rw [phase] at holds
    refine ⟨take_good h.good fun loaded same => ?_, ?_⟩
    · rw [same] at holds
      exact holds
    · simp only
      split
      · trivial
      · trivial
  | due tls =>
    simp only
    split
    · exact h.miss _ _ _
    · exact h.miss _ _ _
    · split
      · exact h.miss _ _ _
      · exact ⟨h.good, trivial⟩
  | issuing renewing =>
    simp only
    split
    · exact h.miss _ _ _
    · exact ⟨h.good, trivial⟩
  | renewed renewing renewed => exact ⟨h.good, trivial⟩
  | halfLoaded renewing renewed cert =>
    simp only
    split
    · exact h.miss _ _ _
    · next found => exact ⟨h.good, _, _, found⟩
  | loaded renewing renewed pair =>
    rw [phase] at holds
    simp only
    split
    · exact h.miss _ _ _
    · split
      · exact h.miss _ _ _
      · split
        · obtain ⟨_, _, found⟩ := holds
          exact ⟨h.good, load_good found⟩
        · exact h.miss _ _ _
  | recorded pair =>
    rw [phase] at holds
    exact ⟨holds, trivial⟩

theorem step_sound (world : World γ) (event : Event) (h : Sound lib world) :
    Sound lib (step lib world event) := by
  cases event with
  | outside file files => exact ⟨h.good, h.holds⟩
  | hub turn => exact advance_sound turn h

theorem Started.sound (h : Started lib world) : Sound lib world := by
  obtain ⟨_, pair, _, found, listening⟩ := h.loaded
  refine ⟨?_, ?_⟩
  · rw [listening]
    exact load_good found
  · rw [h.phase]
    trivial

end

section
variable (certPath keyPath : String) (cert key : Except ErrorKind File)

/-- The settings point at these two files, and this is what opening them gives. -/
structure Rests (world : World γ) : Prop where
  cert : world.files certPath = cert
  key : world.files keyPath = key
  paths : ∀ state, ServerState.parse world.file = .ok state →
    state.tls.certPath = certPath ∧ state.tls.keyPath = keyPath

/-- What the task has in hand is what the files hold. -/
def Phase.Fresh : Phase γ → Prop
  | .looking tls _ => tls.certPath = certPath ∧ tls.keyPath = keyPath
  | .halfRead tls _ read => (tls.certPath = certPath ∧ tls.keyPath = keyPath) ∧ read = cert
  | .found _ _ pair => pair = load lib certPath keyPath cert key
  | .halfLoaded _ result read => result.certificatePath = certPath → read = cert
  | .loaded _ result pair => result.certificatePath = certPath → result.keyPath = keyPath →
      load lib certPath keyPath cert key = .ok pair
  | .recorded pair => load lib certPath keyPath cert key = .ok pair
  | _ => True

/-- How many moves are left of a look. -/
def Phase.left : Phase γ → Nat
  | .looking _ _ => 3
  | .halfRead _ _ _ => 2
  | .found _ _ _ => 1
  | _ => 0

/-- What a look makes the hub serve. -/
def seen (before : Chain) : Chain :=
  match load lib certPath keyPath cert key with
  | .ok pair => pair.chain
  | .error _ => before

/-- The hub, `moves` moves after it began to look. -/
structure Follows (before : Chain) (moves : Nat) (world : World γ) : Prop where
  rests : Rests certPath keyPath cert key world
  fresh : world.phase.Fresh lib certPath keyPath cert key
  served : world.listening.serving = seen lib certPath keyPath cert key before ∨
    world.listening.serving = before ∧ 0 < world.phase.left ∧ world.phase.left + moves ≤ 3

end

section
variable {lib} {certPath keyPath : String} {cert key : Except ErrorKind File}
  {before : Chain} {moves : Nat}
  {world : World γ}

omit [Unicode] in
theorem take_serving (listening : Listening γ) (pair : Except TlsError (LoadedTls γ)) :
    (listening.take pair).2.serving = match pair with
      | .ok loaded => loaded.chain
      | .error _ => listening.serving := by
  cases pair with
  | error e => rfl
  | ok loaded =>
    simp only [Listening.take, Except.map, reload]
    by_cases same : loaded.chain = listening.serving
    · simp [same]
    · simp [same]

/-- A commit writes the paths of what was renewed. -/
theorem commit_paths {found : ServerState}
    (home : found.server.address = found.subnet.serverAddress) {renewed : Renewed} {since : Int64}
    {state : ServerState}
    (read : ServerState.parse (record found renewed since).toJsonString = .ok state) :
    state.tls.certPath = renewed.certificatePath ∧ state.tls.keyPath = renewed.keyPath := by
  have kept : (record found renewed since).server.address =
      (record found renewed since).subnet.serverAddress := home
  rw [ServerState.parse_toJsonString kept] at read
  cases read
  simp only [record, Tls.modifyAcme]
  split <;> exact ⟨rfl, rfl⟩

/-- A renewal that fails leaves the hub where it was. -/
theorem Follows.miss (h : Follows lib certPath keyPath cert key before moves world)
    (idle : world.phase.left = 0) (tls : Tls) (now : Int64) (failure : RenewalFailure) :
    Follows lib certPath keyPath cert key before (moves + 1) (world.miss tls now failure) where
  rests := ⟨h.rests.cert, h.rests.key, h.rests.paths⟩
  fresh := trivial
  served := by
    rcases h.served with served | ⟨_, some, _⟩
    · exact Or.inl served
    · omega

omit [Unicode] in
theorem seen_take (listening : Listening γ)
    (h : listening.serving = seen lib certPath keyPath cert key before ∨
      listening.serving = before) :
    (listening.take (load lib certPath keyPath cert key)).2.serving =
      seen lib certPath keyPath cert key before := by
  rw [take_serving, seen] at *
  cases found : load lib certPath keyPath cert key with
  | ok pair => rfl
  | error e =>
    rw [found] at h
    exact h.elim id id

theorem advance_follows (turn : Turn) (h : Follows lib certPath keyPath cert key before moves world)
    (rests : Rests certPath keyPath cert key (advance lib turn world)) :
    Follows lib certPath keyPath cert key before (moves + 1) (advance lib turn world) := by
  have fresh := h.fresh
  have served := h.served
  -- a look that is under way comes one move closer
  have closer {phase : Phase γ} (at_ : world.phase = phase) {next : Phase γ}
      (left : next.left + 1 = phase.left)
      (some : 0 < next.left) : world.listening.serving = seen lib certPath keyPath cert key before ∨
        world.listening.serving = before ∧ 0 < next.left ∧ next.left + (moves + 1) ≤ 3 := by
    rw [at_] at served
    rcases served with served | ⟨same, _, few⟩
    · exact Or.inl served
    · exact Or.inr ⟨same, some, by omega⟩
  have done {phase : Phase γ} (at_ : world.phase = phase) (idle : phase.left = 0) :
      world.listening.serving = seen lib certPath keyPath cert key before := by
    rw [at_] at served
    rcases served with served | ⟨_, some, _⟩
    · exact served
    · omega
  rw [advance] at rests ⊢
  cases phase : world.phase with
  | resting =>
    simp only [phase] at rests ⊢
    split
    · next state found =>
      have read : ServerState.parse world.file = .ok state := lock_eq_some found
      exact ⟨⟨h.rests.cert, h.rests.key, h.rests.paths⟩, h.rests.paths state read,
        Or.inl (done phase rfl)⟩
    · exact ⟨⟨h.rests.cert, h.rests.key, h.rests.paths⟩, trivial, Or.inl (done phase rfl)⟩
  | looking tls step =>
    rw [phase] at fresh
    refine ⟨⟨h.rests.cert, h.rests.key, h.rests.paths⟩, ⟨fresh, ?_⟩,
      closer phase rfl (Nat.zero_lt_succ _)⟩
    rw [fresh.1, h.rests.cert]
  | halfRead tls step read =>
    rw [phase] at fresh
    obtain ⟨⟨hcert, hkey⟩, rfl⟩ := fresh
    refine ⟨⟨h.rests.cert, h.rests.key, h.rests.paths⟩, ?_, closer phase rfl (Nat.zero_lt_succ _)⟩
    show load lib tls.certPath tls.keyPath read (world.files tls.keyPath) = _
    rw [hcert, hkey, h.rests.key]
  | found tls step pair =>
    rw [phase] at fresh
    subst fresh
    refine ⟨⟨h.rests.cert, h.rests.key, h.rests.paths⟩, ?_, Or.inl ?_⟩
    · simp only
      split <;> trivial
    · exact seen_take world.listening (served.imp id And.left)
  | due tls =>
    have idle : world.phase.left = 0 := by rw [phase]; rfl
    simp only
    split
    · exact h.miss idle _ _ _
    · exact h.miss idle _ _ _
    · split
      · exact h.miss idle _ _ _
      · exact ⟨⟨h.rests.cert, h.rests.key, h.rests.paths⟩, trivial, Or.inl (done phase rfl)⟩
  | issuing renewing =>
    have idle : world.phase.left = 0 := by rw [phase]; rfl
    simp only
    split
    · exact h.miss idle _ _ _
    · exact ⟨⟨h.rests.cert, h.rests.key, h.rests.paths⟩, trivial, Or.inl (done phase rfl)⟩
  | renewed renewing result =>
    refine ⟨⟨h.rests.cert, h.rests.key, h.rests.paths⟩, ?_, Or.inl (done phase rfl)⟩
    intro same
    rw [same, h.rests.cert]
  | halfLoaded renewing result read =>
    have idle : world.phase.left = 0 := by rw [phase]; rfl
    rw [phase] at fresh
    simp only
    split
    · exact h.miss idle _ _ _
    · next pair found =>
      refine ⟨⟨h.rests.cert, h.rests.key, h.rests.paths⟩, ?_, Or.inl (done phase rfl)⟩
      intro hcert hkey
      rw [fresh hcert, hcert, hkey, h.rests.key] at found
      exact found
  | loaded renewing result pair =>
    have idle : world.phase.left = 0 := by rw [phase]; rfl
    rw [phase] at fresh
    simp only [phase] at rests ⊢
    split
    · exact h.miss idle _ _ _
    · next state found =>
      split
      · exact h.miss idle _ _ _
      · next same =>
        split
        · next written =>
          rw [found] at rests
          simp only [same, written, if_true, if_false] at rests
          have home := ServerState.home_of_parse (lock_eq_some found)
          have parsed :
              ServerState.parse (record state result renewing.since).toJsonString = .ok _ :=
            ServerState.parse_toJsonString home
          obtain ⟨hcert, hkey⟩ := rests.paths _ parsed
          obtain ⟨hcert', hkey'⟩ := commit_paths home parsed
          refine ⟨rests, ?_, Or.inl (done phase rfl)⟩
          exact fresh (hcert'.symm.trans hcert) (hkey'.symm.trans hkey)
        · exact h.miss idle _ _ _
  | recorded pair =>
    rw [phase] at fresh
    refine ⟨⟨h.rests.cert, h.rests.key, h.rests.paths⟩, trivial, Or.inl ?_⟩
    show pair.chain = seen lib certPath keyPath cert key before
    rw [seen, fresh]

theorem follows_run {events : List Event}
    (h : Follows lib certPath keyPath cert key before moves world)
    (along : Runs.Along (step lib) (fun world event => Rests certPath keyPath cert key
      (step lib world event)) world events) :
    Follows lib certPath keyPath cert key before (moves + events.countP Event.isHub)
      (run lib world events) := by
  induction events generalizing world moves with
  | nil => exact h
  | cons event events ih =>
    rw [run, Runs.run_cons, List.countP_cons]
    cases event with
    | outside file files =>
      exact ih ⟨along.1, h.fresh, h.served⟩ along.2
    | hub turn =>
      have next := ih (advance_follows turn h along.1) along.2
      rw [Event.isHub, if_pos rfl, Nat.add_comm _ 1, ← Nat.add_assoc]
      exact next

/-- Of its own accord the hub writes the state file in one place: after a pair was loaded. -/
theorem advance_file (turn : Turn) (changed : (advance lib turn world).file ≠ world.file) :
    ∃ renewing renewed pair found, world.phase = .loaded renewing renewed pair ∧
      ServerState.parse world.file = .ok found ∧ found.tls = renewing.state.tls ∧
      advance lib turn world =
        { world with
          file := (record found renewed renewing.since).toJsonString
          phase := .recorded pair } := by
  rw [advance] at changed ⊢
  cases phase : world.phase with
  | loaded renewing result pair =>
    simp only [phase] at changed ⊢
    split at changed
    · exact absurd rfl changed
    · next found read =>
      split at changed
      · exact absurd rfl changed
      · next same =>
        split at changed
        · next written =>
          refine ⟨renewing, result, pair, found, rfl, lock_eq_some read,
            Decidable.not_not.mp same, ?_⟩
          simp only [same, written, if_true, if_false]
        · exact absurd rfl changed
  | resting =>
    simp only [phase] at changed
    split at changed
    · exact absurd rfl changed
    · exact absurd rfl changed
  | due tls =>
    simp only [phase] at changed
    split at changed
    · exact absurd rfl changed
    · exact absurd rfl changed
    · split at changed
      · exact absurd rfl changed
      · exact absurd rfl changed
  | issuing renewing =>
    simp only [phase] at changed
    split at changed
    · exact absurd rfl changed
    · exact absurd rfl changed
  | halfLoaded renewing result read =>
    simp only [phase] at changed
    split at changed
    · exact absurd rfl changed
    · exact absurd rfl changed
  | looking tls step | halfRead tls step read | found tls step pair | renewed renewing result
    | recorded pair =>
    simp only [phase] at changed
    exact absurd rfl changed

/-- Where a look begins. -/
theorem advance_resting {turn : Turn} {state : ServerState} (rested : world.phase = .resting)
    (locked : lock turn.readable world.file = some state) :
    advance lib turn world =
      { world with
        loop := (look world.loop turn.now (.ok state.tls)).2
        phase := .looking state.tls (look world.loop turn.now (.ok state.tls)).1 } := by
  rw [advance, rested]
  simp only [locked]

/-- A look does not move the files. -/
theorem look_rests {turn : Turn} {state : ServerState} {certPath keyPath : String}
    {cert key : Except ErrorKind File} (rested : world.phase = .resting)
    (locked : lock turn.readable world.file = some state)
    (rests : Rests certPath keyPath cert key world) :
    Runs.Along (step lib)
      (fun world event => Rests certPath keyPath cert key (step lib world event)) world
      (List.replicate 4 (.hub turn)) := by
  have first : step lib world (.hub turn) = _ := advance_resting rested locked
  refine ⟨?_, ?_⟩
  · show Rests certPath keyPath cert key (step lib world (.hub turn))
    rw [first]
    exact ⟨rests.cert, rests.key, rests.paths⟩
  · rw [first]
    exact ⟨⟨rests.cert, rests.key, rests.paths⟩, ⟨rests.cert, rests.key, rests.paths⟩,
      ⟨rests.cert, rests.key, rests.paths⟩, trivial⟩

/-- Nothing else moves the task. -/
theorem quiet_run {quiet : List Event} (h : ∀ event ∈ quiet, event.isHub = false) :
    (run lib world quiet).phase = world.phase := by
  induction quiet generalizing world with
  | nil => rfl
  | cons event quiet ih =>
    cases event with
    | hub turn => cases h _ List.mem_cons_self
    | outside file files => exact ih fun other there => h other (List.mem_cons_of_mem _ there)

/-- A running hub always presents a pair. When it records a renewal, the next thing it does is to
present the pair it loaded for it. And once the files rest a look is enough, whatever was in
them before: their chain is served from then on or, when they are no pair, the one from before. -/
theorem hub_serves {start : World γ} (started : Started lib start) (events : List Event) :
    (run lib start events).listening.Good lib ∧
      (∀ before turn quiet turn' after,
        events = before ++ .hub turn :: (quiet ++ .hub turn' :: after) →
        (∀ event ∈ quiet, event.isHub = false) →
        (run lib start (before ++ [.hub turn])).file ≠ (run lib start before).file →
        ∃ found renewed since pair cert key,
          (run lib start (before ++ [.hub turn])).file = (record found renewed since).toJsonString ∧
          load lib renewed.certificatePath renewed.keyPath cert key = .ok pair ∧
          (run lib start (before ++ .hub turn :: (quiet ++ [.hub turn']))).listening = .new pair) ∧
      ∀ before turn after state certPath keyPath cert key, events = before ++ .hub turn :: after →
        (run lib start before).phase = .resting → turn.readable = true →
        ServerState.parse (run lib start before).file = .ok state →
        Rests certPath keyPath cert key (run lib start before) →
        Runs.Along (step lib) (fun world event => Rests certPath keyPath cert key
          (step lib world event))
          (run lib start before) (.hub turn :: after) →
        3 ≤ after.countP Event.isHub →
        (run lib start events).listening.serving =
          match load lib certPath keyPath cert key with
          | .ok pair => pair.chain
          | .error _ => (run lib start before).listening.serving := by
  have sound (events : List Event) : Sound lib (run lib start events) :=
    Runs.run_keeps step_sound started.sound events
  refine ⟨(sound events).good, ?_, ?_⟩
  · rintro before turn quiet turn' after rfl outside changed
    rw [run, Runs.run_append, Runs.run_cons, Runs.run_nil] at changed ⊢
    obtain ⟨renewing, renewed, pair, found, phase, _, _, moved⟩ := advance_file turn changed
    have holds := (sound before).holds
    rw [phase] at holds
    obtain ⟨cert, key, loaded⟩ := holds
    refine ⟨found, renewed, renewing.since, pair, cert, key, ?_, loaded, ?_⟩
    · rw [step, moved]
    · have now : (step lib (run lib start before) (.hub turn)).phase = .recorded pair := by
        rw [step, moved]
      have kept : (run lib (step lib (run lib start before) (.hub turn)) quiet).phase =
          .recorded pair :=
        (quiet_run outside).trans now
      rw [run, Runs.run_append, Runs.run_cons, Runs.run_append, Runs.run_cons, Runs.run_nil]
      show (advance lib turn' (run lib (step lib (run lib start before) (.hub turn))
        quiet)).listening = .new pair
      rw [advance, kept]
      rfl
  · rintro before turn after state certPath keyPath cert key rfl rested readable read
      rests along enough
    have first : Follows lib certPath keyPath cert key (run lib start before).listening.serving 0
        (step lib (run lib start before) (.hub turn)) := by
      have locked : lock turn.readable (run lib start before).file = some state := by
        rw [lock, if_pos readable, read]
      refine ⟨along.1, ?_, Or.inr ⟨?_, ?_, ?_⟩⟩
      all_goals rw [step, advance_resting rested locked]
      · exact rests.paths state read
      · exact Nat.zero_lt_succ _
      · exact Nat.le_refl _
    have last := follows_run first along.2
    rw [run, Runs.run_append, Runs.run_cons]
    rcases last.served with served | ⟨_, some, few⟩
    · exact served
    · omega

end

end Serve

namespace Serve

open RenewalLoop AcmeClient Handlers

/-- What stands between the lines of a block. -/
def blockOf (label : String) (pem : List UInt8) : Option (List UInt8) :=
  let first := asBytes ("-----BEGIN " ++ label ++ "-----\n")
  let last := asBytes ("-----END " ++ label ++ "-----\n")
  if first.isPrefixOf pem && last.isSuffixOf pem then
    some ((pem.drop first.length).take (pem.length - first.length - last.length))
  else none

def block (label content : String) : List UInt8 :=
  asBytes ("-----BEGIN " ++ label ++ "-----\n" ++ content ++ "-----END " ++ label ++ "-----\n")

/-- A library whose certificates say which key is theirs. -/
def sampleLibrary : Library (List UInt8) (Chain × List UInt8) where
  certs pem := .ok (blockOf "CERTIFICATE" pem).toList
  keys pem := .ok (blockOf "PRIVATE KEY" pem).toList
  pair chain key :=
    if chain.head? = some (asBytes "for " ++ key) then .ok (chain, key)
    else .error "keys may not be consistent"

def sampleFiles (cert key : String) : Files := fun path =>
  if path = "/c.pem" then .ok ⟨block "CERTIFICATE" ("for " ++ cert), 0o644⟩
  else if path = "/k.pem" then .ok ⟨block "PRIVATE KEY" key, 0o600⟩
  else .error .notFound

def sampleTurn : Turn := ⟨0, true, .ok false, .error .busy, true, true⟩

/-- A hub that serves the old pair. -/
def sampleWorld (file : String) : @World asciiTables (Chain × List UInt8) :=
  letI := asciiTables
  ⟨file, sampleFiles "old\n" "old\n",
    ⟨([asBytes "for old\n"], asBytes "old\n"), [asBytes "for old\n"]⟩, .new, .resting⟩

/-- The certificate is replaced while the hub runs, and it looks; the key is replaced, and it looks
again. -/
theorem hub_serves_sample :
    letI := asciiTables
    let look := List.replicate 4 (.hub sampleTurn)
    let file := Init.sampleHub.toJsonString
    let half := .outside file (sampleFiles "new\n" "old\n") :: look
    let whole := half ++ .outside file (sampleFiles "new\n" "new\n") :: look
    (run sampleLibrary (sampleWorld file) half).listening.serving = [asBytes "for old\n"] ∧
      (run sampleLibrary (sampleWorld file) whole).listening.serving = [asBytes "for new\n"] := by
  let := asciiTables
  have read : ServerState.parse Init.sampleHub.toJsonString = .ok Init.sampleHub :=
    ServerState.parse_toJsonString rfl
  generalize Init.sampleHub.toJsonString = file at read ⊢
  intro look _ half whole
  have started : Started sampleLibrary (sampleWorld file) := ⟨⟨_, _, read, rfl, rfl⟩, rfl, rfl⟩
  have locked : lock true file = some Init.sampleHub := by
    rw [lock, if_pos rfl, read]
  have rests (cert key : String) (world : World (Chain × List UInt8)) (same : world.file = file)
      (files : world.files = sampleFiles cert key) :
      Rests "/c.pem" "/k.pem" (sampleFiles cert key "/c.pem")
        (sampleFiles cert key "/k.pem") world := by
    refine ⟨by rw [files], by rw [files], fun state found => ?_⟩
    rw [same] at found
    cases read.symm.trans found
    exact ⟨rfl, rfl⟩
  let moved : World (Chain × List UInt8) :=
    { sampleWorld file with files := sampleFiles "new\n" "old\n" }
  let loop := (RenewalLoop.look moved.loop 0 (.ok Init.sampleHub.tls)).2
  let again : World (Chain × List UInt8) :=
    { sampleWorld file with files := sampleFiles "new\n" "new\n", loop := loop }
  have halfway : run sampleLibrary (sampleWorld file) half = { moved with loop := loop } := by
    have first := @advance_resting _ _ sampleLibrary _ moved sampleTurn _ rfl locked
    show run sampleLibrary (advance sampleLibrary sampleTurn moved)
      (List.replicate 3 (.hub sampleTurn)) = _
    rw [first]
    rfl
  constructor
  · rw [halfway]
    rfl
  · obtain ⟨_, _, looks⟩ := hub_serves started whole
    have reached : run sampleLibrary (sampleWorld file)
        (half ++ [.outside file (sampleFiles "new\n" "new\n")]) = again := by
      rw [run] at halfway
      rw [run, Runs.run_append, halfway]
      rfl
    have served := looks (half ++ [.outside file (sampleFiles "new\n" "new\n")]) sampleTurn
      (List.replicate 3 (.hub sampleTurn)) Init.sampleHub "/c.pem" "/k.pem"
    rw [reached] at served
    have rested := rests "new\n" "new\n" again rfl rfl
    exact served _ _ rfl rfl rfl read rested (look_rests rfl locked rested) (by decide)

end Serve
