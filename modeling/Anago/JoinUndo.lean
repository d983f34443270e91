import Anago.Commands
import Anago.TokenHistory

/-!
# A join undone

A device that was let in but cannot keep what it was given asks the hub to forget it, with the
name and the token of the answer. The hub forgets that device or, if it is gone already, nothing.
-/

open StdText Proto

namespace Join

/-- How an attempted undo went. -/
inductive Undo where
  | done
  | failed (name : String)
  | unknown
  deriving DecidableEq, Repr

/-- What to do after a join that registered but could not be saved. -/
def recoveryNote : Undo → String
  | .done =>
    "the hub has been told to forget this device, so the same command can be run again once the " ++
      "problem is fixed (the join code, though, is spent — get another with `anago code`)"
  | .failed name =>
    "the hub still lists " ++ name ++ " — remove it there with `anago rm " ++ name ++
      "` before retrying, and get a fresh code with `anago code`"
  | .unknown =>
    "the hub may have registered this device under a name this build could not read — check " ++
      "`anago ls` on the server and `anago rm` it before retrying, with a fresh code from " ++
      "`anago code`"

variable [Unicode]

/-- The two fields an undo needs. -/
def undoCredentials (body : String) : Option (DeviceName × DeviceToken) := do
  let value ← match Json.parse body with
    | .ok value => some value
    | _ => none
  let field (key : String) :=
    (value.asObject.bind fun object => object.get key).bind Json.Value.asStr
  let name ← ((field "name").map DeviceName.parse).bind Except.toOption
  let token ← ((field "token").map DeviceToken.parse).bind Except.toOption
  some (name, token)

/-- Whether the hub agreed to forget the device. `send` is the network. -/
def undoRegistration
    (send : Client.Request → Except Client.ClientError Client.Response) (domain : String)
    (apiPort : UInt16) (name : DeviceName) (token : DeviceToken) : Bool :=
  match send ((Client.Call.remove token name).request domain apiPort) with
  | .ok response => response.isSuccess
  | .error _ => false

/-- The error of a join that failed after the registration. -/
structure SavedNothing where
  what : String
  source : String
  recovery : String
  deriving DecidableEq, Repr

def nothingSaved : String := "nothing could be saved on this machine"

def nothingHandedOver : String := "the config never reached the phone"

/-- Undoes the registration, with the credentials of the raw answer, and says how it went. -/
def postRegistration (send : Client.Request → Except Client.ClientError Client.Response)
    (body domain : String) (apiPort : UInt16) (what cause : String) : SavedNothing :=
  let outcome := match undoCredentials body with
    | some (name, token) =>
      if undoRegistration send domain apiPort name token then .done else .failed name.asStr
    | none => .unknown
  ⟨what, cause, recoveryNote outcome⟩

/-- An answer's credentials are readable whatever the rest of it is. -/
theorem undoCredentials_fields {body : String} {object : Json.Object} {name : DeviceName}
    {token : DeviceToken} (parsed : Json.parse body = .ok (.obj object))
    (held : object.get "name" = some (.str name.asStr))
    (secret : object.get "token" = some (.str token.asStr)) :
    undoCredentials body = some (name, token) := by
  rw [undoCredentials, parsed]
  simp only [Json.Value.asObject, Json.Value.asStr, held, secret, Option.bind_some, Option.map_some,
    DeviceName.parse_asStr, DeviceToken.parse_asStr, Except.toOption, Option.bind_eq_bind]

theorem undoCredentials_answered {answer : JoinResponse} {name : DeviceName} {token : DeviceToken}
    (named : answer.name = name.asStr) (given : answer.token = token.asStr) :
    undoCredentials (Json.toString answer.toJson) = some (name, token) := by
  refine undoCredentials_fields answer.read_written.1 ?_ ?_
  · rw [← named]
    simp [Json.Object.get]
  · rw [← given]
    simp [Json.Object.get]

end Join

theorem Subnet.allocate_of_free {subnet : Subnet} {used : List Ipv4Addr} {address : Ipv4Addr}
    (within : subnet.contains address = true) (low : 2 ≤ address.d) (high : address.d ≤ 254)
    (free : address ∉ used) :
    ∃ found, subnet.allocate used = some found := by
  rw [allocate]
  cases h : nextFreeOctet (used.filterMap subnet.hostOctet) with
  | some octet => exact ⟨_, rfl⟩
  | none =>
    have taken := nextFreeOctet_eq_none.mp h address.d low high
    obtain ⟨other, there, octet⟩ := List.mem_filterMap.mp taken
    rw [hostOctet] at octet
    split at octet
    · next inside =>
      rw [eq_of_octet inside within (Option.some.inj octet)] at there
      exact absurd there free
    · cases octet

namespace Registry

open Client Api Handlers Commands

variable [Unicode] {hashToken : DeviceToken → TokenHash}

/-- A device that is known by two tokens is known by one. -/
theorem Speaks.sole {used : Set DeviceToken} {who : DeviceToken → Option DeviceName}
    {peers : List Peer} (h : Speaks hashToken used who peers) (inj : Set.InjOn hashToken used)
    {token other : DeviceToken} {name : DeviceName} (ht : token ∈ used) (ho : other ∈ used)
    (speaks : who token = some name) (too : who other = some name) : other = token := by
  obtain ⟨peer, hpeer, hash, named⟩ := (h.held token ht name).mp speaks
  obtain ⟨peer', hpeer', hash', named'⟩ := (h.held other ho name).mp too
  have same : peer' = peer :=
    List.inj_on_of_nodup_map h.names hpeer' hpeer (named'.trans named.symm)
  subst same
  exact inj ho ht (hash'.symm.trans hash)

/-- A hub answers a removal that it has no caller for with the refusal, and stays. -/
theorem answer_unknown {state : ServerState} {token : DeviceToken} {now : Int64} {e : ApiError}
    (unknown : authenticate hashToken state token = .error e) (segment : String) :
    answer hashToken state now (.remove token segment) = (.error e, state) := by
  rw [answer, withCaller, unknown]

/-- A code that was just issued can be redeemed until it expires. -/
theorem redeemable_issued {state : ServerState} {code : JoinCode} {since ttlSecs now : Int64}
    {name publicKey : String} (fresh : code ∉ state.codes.map IssuedCode.code)
    (intime : now < JoinCode.expiresAt since ttlSecs) :
    Redeemable (Code.issue state code since ttlSecs).2 ⟨code.asStr, name, publicKey⟩ now := by
  refine ⟨code, IssuedCode.issue code since ttlSecs, JoinCode.parse_asStr code, ?_, rfl, intime⟩
  have none : state.codes.find? (fun issued => issued.code = code) = none := by
    rw [List.find?_eq_none]
    intro issued there same
    exact fresh (List.mem_map.mpr ⟨issued, there, of_decide_eq_true same⟩)
  rw [Code.issue, List.find?_append, none]
  simp [IssuedCode.issue]

/-- The device that leaves makes room for itself. -/
theorem room_without {state : ServerState} (apart : Apart state)
    {peers rest : List Peer} {peer : Peer} (all : state.peers = peers ++ peer :: rest) :
    peer.name ∉ (peers ++ rest).map Peer.name ∧
      ∃ address, state.subnet.allocate ((peers ++ rest).map Peer.address) = some address := by
  have names := apart.names
  have addresses := apart.addresses
  rw [all, List.map_append, List.map_cons, List.nodup_middle, List.nodup_cons, ← List.map_append]
    at names addresses
  obtain ⟨within, low, high⟩ :=
    apart.hosts peer (by rw [all]; exact List.mem_append_right _ List.mem_cons_self)
  exact ⟨names.1, Subnet.allocate_of_free within low high addresses.1⟩

/-- The hub without one device, as if it had never been let in but for its spent code. -/
structure Forgotten (hashToken : DeviceToken → TokenHash) (hub after : ServerState)
    (used : Set DeviceToken) (token : DeviceToken) (name : DeviceName)
    (request : JoinRequest) : Prop where
  erased : ∃ peers peer rest, hub.peers = peers ++ peer :: rest ∧ peer.name = name ∧
    after = { hub with peers := peers ++ rest }
  /-- Every other token speaks for whom it spoke for. -/
  others : ∀ other ∈ used, other ≠ token → authenticate hashToken after other =
    authenticate hashToken hub other
  /-- With a fresh code the same join goes through. -/
  again : ∀ draw draws since ttlSecs code token' tokenHash' now',
    Code.chooseUnused after draw draws = .ok code →
    now' < JoinCode.expiresAt since ttlSecs →
    ∃ answer, (decideJoin (Code.issue after code since ttlSecs).2 ⟨code.asStr, request.name,
      request.publicKey⟩
      token' tokenHash' now').1 = .ok answer

section
variable {used : Set DeviceToken} {who : DeviceToken → Option DeviceName} {state : ServerState}
  {token : DeviceToken}

/-- A token that speaks for nobody never will again. -/
theorem Speaks.dead (h : Speaks hashToken used who state.peers) (inj : Set.InjOn hashToken used)
    (ht : token ∈ used) (dead : who token = none) {more : List Op}
    (mints : ∀ op ∈ more, Mints hashToken op) (distinct : (drawn more).Nodup)
    (fresh : ∀ other ∈ drawn more, other ∈ used ∧ who other = none) (gone : token ∉ drawn more) :
    Api.authenticate hashToken (run state more) token = .error unauthorized := by
  have speaks := run_speaks h inj mints distinct fresh
  have never : ∀ name, .enroll token name ∉ changes state more := fun name there =>
    gone (drawn_of_changes there)
  rw [speaks.authenticate ht, Credentials.replay_none never dead]
  rfl

variable {start joined : ServerState} {before later : List Op} {request : JoinRequest}
  {name : DeviceName} {tokenHash : TokenHash} {now : Int64} {answer : JoinResponse}

theorem run_joined
    (joins : decideJoin (run start before) request token tokenHash now = (.ok answer, joined)) :
    run start (before ++ .join request token tokenHash now :: later) = run joined later := by
  rw [run, Runs.run_append, Runs.run_cons, step]
  simp only [run] at joins
  rw [joins]

/-- Whom the token of an accepted join speaks for later. -/
theorem holder_later
    (joins : decideJoin (run start before) request token tokenHash now = (.ok answer, joined))
    (named : DeviceName.parse request.name = .ok name)
    (distinct : (drawn (before ++ .join request token tokenHash now :: later)).Nodup) :
    Credentials.replay (fun _ => none)
      (changes start (before ++ .join request token tokenHash now :: later)) token =
      if .retire name ∈ changes joined later then none else some name := by
  have hnow : change (run start before) (.join request token tokenHash now) =
      some (.enroll token name) := by
    rw [change, joins, named]
  have hlater : ∀ other, .enroll token other ∉ changes joined later := by
    intro other there
    rw [drawn, List.filterMap_append, List.nodup_append] at distinct
    exact (List.nodup_cons.mp distinct.2.1).1 (drawn_of_changes there)
  have hstep : step (run start before) (.join request token tokenHash now) = joined := by
    rw [step, joins]
  have hlog : changes start (before ++ .join request token tokenHash now :: later) =
      changes start before ++ [.enroll token name] ++ changes joined later := by
    rw [changes, Runs.log_append, Runs.log_cons, hnow, hstep, Option.toList_some, List.append_assoc]
    rfl
  have enrolled : Credentials.replay (fun _ => none) (changes start before ++ [.enroll token name])
      token = some name := by
    rw [Credentials.replay_append]
    exact Credentials.apply_enroll_self _ token name
  rw [hlog, Credentials.replay_append, Credentials.replay_some hlater enrolled]

/-- The answer of a join says who the device is. -/
theorem decideJoin_says
    (joins : decideJoin state request token tokenHash now = (.ok answer, joined))
    (named : DeviceName.parse request.name = .ok name) :
    answer.name = name.asStr ∧ answer.token = token.asStr ∧ ∃ key,
      parseKey request.publicKey = .ok key := by
  rcases decideJoin_cases state request token tokenHash now with
    ⟨e, h⟩ | ⟨_, name', key, _, _, _, _, _, _, _, named', hkey, _, h, saysName, saysToken⟩
  · cases h.symm.trans joins
  · cases h.symm.trans joins
    cases named.symm.trans named'
    exact ⟨saysName, saysToken, key, hkey⟩

end

section
variable {library : Library} {send : Client.Request → Except ClientError Client.Response}
  {hub : ServerState} {when : Int64} {minted token : DeviceToken}
    {name : DeviceName} {domain : String}
  {apiPort : UInt16}

/-- A hub that forgets says so; one that does not know the caller refuses. -/
theorem undo_answered (documented : Documented library)
    (brings : Brings library hashToken hub when minted send
      ((Call.remove token name).request domain apiPort)) :
    Join.undoRegistration send domain apiPort name token =
      (Handlers.answer hashToken hub when (.remove token name.asStr)).1.toBool := by
  obtain ⟨response, sent, reads⟩ := brings.reads documented
  rw [Call.asks] at reads
  rw [Join.undoRegistration, sent]
  cases decision : (Handlers.answer hashToken hub when (.remove token name.asStr)).1 with
  | ok value =>
    rw [decision] at reads
    exact reads.1
  | error e =>
    rw [decision] at reads
    exact reads.1

end

section
variable {used known : Set DeviceToken} {who : DeviceToken → Option DeviceName} {hub : ServerState}
  {token : DeviceToken}
  {name : DeviceName} {peers rest : List Peer} {peer : Peer}

theorem Speaks.without (speaks : Speaks hashToken used who hub.peers)
    (all : hub.peers = peers ++ peer :: rest) (same : peer.name = name) :
    Speaks hashToken used (Credentials.apply who (.retire name)) (peers ++ rest) := by
  rw [all] at speaks
  rw [← same]
  exact speaks.retire

theorem forgotten_without {request : JoinRequest} {key : String}
    (speaks : Speaks hashToken used who hub.peers) (inj : Set.InjOn hashToken used)
    (within : known ⊆ used) (ht : token ∈ used) (holder : who token = some name) (apart : Apart hub)
    (all : hub.peers = peers ++ peer :: rest) (same : peer.name = name)
    (named : DeviceName.parse request.name = .ok name)
    (valid : parseKey request.publicKey = .ok key) :
    Forgotten hashToken hub { hub with peers := peers ++ rest } known token name request where
  erased := ⟨peers, peer, rest, all, same, rfl⟩
  others := by
    intro other there ne
    have after : Speaks hashToken used (Credentials.apply who (.retire name))
        ({ hub with peers := peers ++ rest } : ServerState).peers := speaks.without all same
    have unheld : who other ≠ some name := fun too =>
      ne (speaks.sole inj ht (within there) holder too)
    rw [after.authenticate (within there), speaks.authenticate (within there),
      Credentials.apply_retire, if_neg unheld]
  again := by
    intro draw draws since ttlSecs code token' tokenHash' now' chosen intime
    obtain ⟨free, room⟩ := room_without apart all
    rw [same] at free
    exact decideJoin_ok ⟨redeemable_issued (chooseUnused_fresh chosen) intime,
      ⟨name, named, free⟩, valid, room⟩
      token' tokenHash'

end

/-- A device that was let in and could not keep its answer undoes the join: the hub forgets it
and no other, and with a fresh code the same join goes through; where it is gone already nothing
changes, and the note says that the hub may still list it. The token is dead for good. -/
theorem undo_forgets {start joined : ServerState} (empty : start.peers = [])
    {before later more : List Op} {request : JoinRequest} {token : DeviceToken} {name : DeviceName}
    {now : Int64} {answer : JoinResponse}
    (mints : ∀ op ∈ before ++ .join request token (hashToken token) now :: later ++ more,
      Mints hashToken op)
    (distinct : (drawn (before ++ .join request token (hashToken token) now ::
      later ++ more)).Nodup)
    (inj : Set.InjOn hashToken {t | t ∈ drawn (before ++ .join request token
      (hashToken token) now :: later ++ more)})
    (named : DeviceName.parse request.name = .ok name)
    (joins : decideJoin (run start before) request token (hashToken token) now =
      (.ok answer, joined))
    {library : Library} (documented : Documented library)
    {send : Client.Request → Except ClientError Client.Response} {when : Int64}
    {minted : DeviceToken} {domain : String} {apiPort : UInt16}
    (brings : Brings library hashToken (run joined later) when minted send
      ((Call.remove token name).request domain apiPort)) (what cause : String) :
    ∃ after, (serve library hashToken (run joined later) when minted
        (requestBytes ((Call.remove token name).request domain apiPort))).2 = after ∧
      authenticate hashToken (run after more) token = .error unauthorized ∧
      ((.retire name ∈ changes joined later ∧ after = run joined later ∧
          Join.postRegistration send (Json.toString answer.toJson) domain apiPort what cause =
            ⟨what, cause, Join.recoveryNote (.failed name.asStr)⟩) ∨
        (.retire name ∉ changes joined later ∧
          Forgotten hashToken (run joined later) after
            {t | t ∈ drawn (before ++ .join request token (hashToken token) now :: later)}
              token name request ∧
          Join.postRegistration send (Json.toString answer.toJson) domain apiPort what cause =
            ⟨what, cause, Join.recoveryNote .done⟩)) := by
  let ops := before ++ .join request token (hashToken token) now :: later
  let used : Set DeviceToken := {t | t ∈ drawn (ops ++ more)}
  have split : drawn (ops ++ more) = drawn ops ++ drawn more := List.filterMap_append
  have known (t : DeviceToken) (ht : t ∈ drawn ops) : t ∈ used := by
    show t ∈ drawn (ops ++ more)
    rw [split]
    exact List.mem_append_left _ ht
  have apart := distinct
  rw [show drawn (before ++ .join request token (hashToken token) now :: later ++ more) =
    drawn ops ++ drawn more from split, List.nodup_append] at apart
  obtain ⟨once, onceMore, disjoint⟩ := apart
  have here : token ∈ drawn ops := by
    show token ∈ drawn (before ++ .join request token (hashToken token) now :: later)
    rw [drawn, List.filterMap_append]
    exact List.mem_append_right _ List.mem_cons_self
  have gone : token ∉ drawn more := fun there => disjoint token here token there rfl
  have nobody : Speaks hashToken used (fun _ => none) start.peers := by
    rw [empty]
    exact ⟨List.nodup_nil, fun _ _ _ => by simp⟩
  have speaks :=
    run_speaks nobody inj (fun op there => mints op (List.mem_append_left _ there)) once
    fun t ht => ⟨known t ht, rfl⟩
  rw [run_joined joins] at speaks
  have holder := holder_later joins named once
  -- what is drawn later was nobody's before
  have fresh : ∀ t ∈ drawn more, t ∈ used ∧
      Credentials.replay (fun _ => none) (changes start ops) t = none := by
    intro t ht
    refine ⟨?_, Credentials.replay_none (fun other there => ?_) rfl⟩
    · show t ∈ drawn (ops ++ more)
      rw [split]
      exact List.mem_append_right _ ht
    · exact disjoint t (drawn_of_changes there) t ht rfl
  have mintsMore : ∀ op ∈ more, Mints hashToken op := fun op there =>
    mints op (List.mem_append_right _ there)
  obtain ⟨saysName, saysToken, key, hkey⟩ := decideJoin_says joins named
  have credentials := Join.undoCredentials_answered saysName saysToken
  have undone := undo_answered documented brings
  have whom := speaks.authenticate (known token here)
  refine ⟨_, rfl, ?_⟩
  rw [serve_call hashToken _ when minted (.remove token name) documented brings.taken,
    Join.postRegistration, credentials]
  simp only [undone, Call.asks]
  by_cases retired : .retire name ∈ changes joined later
  · rw [if_pos retired] at holder
    rw [holder] at whom
    rw [answer_unknown whom]
    exact ⟨speaks.dead inj (known token here) holder mintsMore onceMore fresh gone,
      Or.inl ⟨retired, rfl, rfl⟩⟩
  · rw [if_neg retired] at holder
    rw [holder] at whom
    rcases (run joined later).removePeer_cases name with ⟨free, _⟩ | ⟨peers, peer, rest,
      all, same, _, removed⟩
    · obtain ⟨peer, there, _, same⟩ := (speaks.held token (known token here) name).mp holder
      exact absurd (List.mem_map.mpr ⟨peer, there, same⟩) free
    · rw [answer_remove whom removed same]
      simp only [if_true]
      have within : {t | t ∈ drawn ops} ⊆ used := fun t ht => known t ht
      have after : Speaks hashToken used _
          ({ run joined later with peers := peers ++ rest } : ServerState).peers :=
        speaks.without all same
      have dead (t : DeviceToken)
          (nobody : Credentials.replay (fun _ => none) (changes start ops) t = none) :
          Credentials.apply (Credentials.replay (fun _ => none) (changes start ops))
            (.retire name) t = none := by
        rw [Credentials.apply_retire, nobody]
        split <;> rfl
      have left : Credentials.apply (Credentials.replay (fun _ => none) (changes start ops))
          (.retire name) token = none := by
        rw [Credentials.apply_retire, if_pos holder]
      have apart : Apart (run joined later) := by
        rw [← run_joined joins]
        exact run_apart (apart_empty empty) _
      exact ⟨after.dead inj (known token here) left mintsMore onceMore
        (fun t ht => ⟨(fresh t ht).1, dead t (fresh t ht).2⟩) gone,
        Or.inr ⟨retired,
          forgotten_without speaks inj within (known token here) holder apart all
            same named hkey, rfl⟩⟩

end Registry

namespace Registry

open Client Api Handlers Commands

/-- The device is let in, cannot save its files and is gone again. -/
theorem undo_forgets_sample :
    letI := asciiTables
    ∃ answer, decideJoin Init.sampleHub
          ⟨Init.sampleCode.asStr, "studio", String.ofList (List.replicate 43 'A' ++ ['='])⟩
            (.sample '3' rfl)
          (Commands.sampleHash (.sample '3' rfl)) 7 = (.ok answer, Commands.sampleJoined) ∧
      Join.postRegistration sampleSend (Json.toString answer.toJson) sampleConfig.domain
        sampleConfig.apiPort
          Join.nothingSaved "No space left on device" =
        ⟨Join.nothingSaved, "No space left on device", Join.recoveryNote .done⟩ := by
  have named : letI := asciiTables; DeviceName.parse "studio" = .ok sampleStudio := by
    decide +kernel
  let := asciiTables
  have joins : ∃ answer, decideJoin (run Init.sampleHub [])
      ⟨Init.sampleCode.asStr, "studio", String.ofList (List.replicate 43 'A' ++ ['='])⟩
        (.sample '3' rfl)
      (Commands.sampleHash (.sample '3' rfl)) 7 = (.ok answer, Commands.sampleJoined) := ⟨_, rfl⟩
  obtain ⟨answer, joins⟩ := joins
  have alone : Set.InjOn Commands.sampleHash {t | t ∈ [DeviceToken.sample '3' rfl]} := by
    intro t ht t' ht' _
    exact (List.mem_singleton.mp ht).trans (List.mem_singleton.mp ht').symm
  have mints :
      ∀ op ∈ [Op.join ⟨Init.sampleCode.asStr, "studio",
        String.ofList (List.replicate 43 'A' ++ ['='])⟩
      (.sample '3' rfl) (Commands.sampleHash (.sample '3' rfl)) 7],
      Mints Commands.sampleHash op := by
    intro op there
    rw [List.mem_singleton.mp there]
    rfl
  have brings := removal_sample
  refine ⟨answer, joins, ?_⟩
  obtain ⟨after, _, _, ⟨retired, _⟩ | ⟨_, _, done⟩⟩ :=
    @undo_forgets _ Commands.sampleHash Init.sampleHub Commands.sampleJoined rfl [] []
      [] _ _ _ _ answer mints
      (List.nodup_singleton _) alone named joins sampleLibrary sampleLibrary_documented sampleSend 9
      (.sample 'e' rfl) _ _ brings Join.nothingSaved "No space left on device"
  · cases retired
  · exact done

end Registry
