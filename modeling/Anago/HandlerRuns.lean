import Anago.Handlers
import Anago.Init

/-!
# What the interface holds after any interleaving

Commits compose in the order of their writes, whatever else happens in between, and an
apply step installs what all the commits before it amount to.
-/

open StdText Proto WgConf Interleaving

namespace Handlers

section
variable {ι : Type} (past past' : List (Note ι))

@[simp] theorem commits_append : commits (past ++ past') = commits past ++ commits past' :=
  List.filterMap_append

@[simp] theorem committers_append :
    committers (past ++ past') = committers past ++ committers past' :=
  List.filterMap_append

@[simp] theorem pushes_append : pushes (past ++ past') = pushes past ++ pushes past' :=
  List.filterMap_append

@[simp] theorem installs_append : installs (past ++ past') = installs past ++ installs past' := by
  rw [installs, pushes_append, List.filterMap_append]
  rfl

end

variable [Unicode] {hashToken : DeviceToken → TokenHash} {ι : Type}

theorem replay_append (start : ServerState) (done more : List (Request × Int64)) :
    replay hashToken start (done ++ more) =
      (replay hashToken start done).bind fun state => replay hashToken state more :=
  List.foldlM_append

theorem replay_one {state : ServerState} {request : Request} {now : Int64} {body : Json.Value}
    (h : (answer hashToken state now request).1 = .ok body) :
    replay hashToken state [(request, now)] = some (answer hashToken state now request).2 := by
  rw [replay, List.foldlM_cons]
  simp only
  generalize answer hashToken state now request = decided at *
  obtain ⟨result, left⟩ := decided
  cases h
  rfl

/-- Every installed config is that of the commits so far. -/
def Current (hashToken : DeviceToken → TokenHash) (start : ServerState)
    (past : List (Note ι)) : Prop :=
  ∀ before config after, past = before ++ .applied (some config) :: after →
    (replay hashToken start (commits before)).map serverConfig = some config

/-- The file holds all commits, and the interface what was pushed last. -/
structure Follows (hashToken : DeviceToken → TokenHash) (start : ServerState)
    (initially : Option SecretText) (past : List (Note ι)) (hub : Hub) : Prop where
  file : ∃ state, ServerState.parse hub.file = .ok state ∧
    replay hashToken start (commits past) = some state
  current : Current hashToken start past
  interface : hub.interface = (installs past).getLast?.or initially

theorem Current.concat {start : ServerState} {past : List (Note ι)}
    (h : Current hashToken start past) {last : Note ι}
    (new : ∀ config, last = .applied (some config) →
      (replay hashToken start (commits past)).map serverConfig = some config) :
    Current hashToken start (past ++ [last]) := by
  intro before config after heq
  rcases Runs.split_concat heq with ⟨_, hlast, rfl⟩ | ⟨rest, _, hpast⟩
  · exact new config hlast.symm
  · exact h before config rest hpast

theorem Follows.act {start : ServerState} {initially : Option SecretText} {past : List (Note ι)}
    {hub : Hub} (h : Follows hashToken start initially past hub) (i : ι) (phase : Phase)
    (turn : Turn) :
    Follows hashToken start initially (past ++ (note hashToken i phase turn hub).toList)
      (Handlers.act hashToken phase turn hub).1 := by
  have took := act_took hashToken i phase turn hub
  generalize note hashToken i phase turn hub = noted at *
  generalize Handlers.act hashToken phase turn hub = out at *
  have nothing : past ++ (none : Option (Note ι)).toList = past := List.append_nil past
  obtain ⟨⟨state, hparse, hreplay⟩, hcurrent, hinterface⟩ := h
  cases took with
  | refused _ =>
    rw [nothing]
    exact ⟨⟨state, hparse, hreplay⟩, hcurrent, hinterface⟩
  | settled _ =>
    rw [nothing]
    exact ⟨⟨state, hparse, hreplay⟩, hcurrent, hinterface⟩
  | @committed request state' body _ hparse' hok =>
    cases hparse.symm.trans hparse'
    have same := answer_sameHub hashToken state turn.now request
    refine ⟨⟨_, ServerState.parse_toJsonString ?_, ?_⟩, hcurrent.concat ?_, ?_⟩
    · rw [same.server, same.subnet]
      exact ServerState.home_of_parse hparse
    · rw [Option.toList_some, commits_append, replay_append, hreplay]
      exact replay_one hok
    · intro config h
      cases h
    · rw [Option.toList_some, installs_append]
      simpa [installs, pushes] using hinterface
  | missed _ =>
    refine ⟨⟨state, hparse, ?_⟩, hcurrent.concat ?_, ?_⟩
    · simpa [commits] using hreplay
    · intro config h
      cases h
    · rw [Option.toList_some, installs_append]
      simpa [installs, pushes] using hinterface
  | @applied body state' _ hparse' =>
    cases hparse.symm.trans hparse'
    refine ⟨⟨state, hparse, ?_⟩, hcurrent.concat ?_, ?_⟩
    · simpa [commits] using hreplay
    · intro config h
      cases h
      rw [hreplay]
      rfl
    · rw [Option.toList_some, installs_append]
      simp [installs, pushes]

/-- The change of handler `i` is among the commits, and `body` is what was decided there. -/
def Decided (hashToken : DeviceToken → TokenHash) (start : ServerState) (requests : ι → Request)
    (past : List (Note ι)) (i : ι) (body : Json.Value) : Prop :=
  ∃ before now after seen, past = before ++ .committed i (requests i) now :: after ∧
    replay hashToken start (commits before) = some seen ∧
    (answer hashToken seen now (requests i)).1 = .ok body

/-- What the phase of handler `i` tells of the past. -/
def Told (hashToken : DeviceToken → TokenHash) (start : ServerState) (requests : ι → Request)
    (past : List (Note ι)) (i : ι) : Phase → Prop
  | .waiting request => request = requests i ∧ i ∉ committers past
  | .committed body => Decided hashToken start requests past i body
  | .answered (.ok body) => Decided hashToken start requests past i body
  | .answered (.error _) => i ∉ committers past

section
variable {start : ServerState} {requests : ι → Request} {past : List (Note ι)} {i : ι}

theorem Decided.later {body : Json.Value} (h : Decided hashToken start requests past i body)
    (more : List (Note ι)) : Decided hashToken start requests (past ++ more) i body := by
  obtain ⟨before, now, after, seen, rfl, decided⟩ := h
  exact ⟨before, now, after ++ more, seen, by simp, decided⟩

theorem Decided.mem {body : Json.Value} (h : Decided hashToken start requests past i body) :
    i ∈ committers past := by
  obtain ⟨before, now, after, seen, rfl, -⟩ := h
  simp [committers]

/-- The steps of others change nothing about a handler. -/
theorem Told.later {phase : Phase} (h : Told hashToken start requests past i phase)
    {more : List (Note ι)} (others : i ∉ committers more) :
    Told hashToken start requests (past ++ more) i phase := by
  have apart : i ∉ committers past → i ∉ committers (past ++ more) := by
    intro none
    rw [committers_append, List.mem_append]
    exact not_or.mpr ⟨none, others⟩
  cases phase with
  | waiting request => exact ⟨h.1, apart h.2⟩
  | committed body => exact Decided.later h more
  | answered result =>
    cases result with
    | ok body => exact Decided.later h more
    | error e => exact apart h

/-- Only handlers that were answered well, or will be, have committed. -/
theorem Told.mem_iff {phase : Phase} (h : Told hashToken start requests past i phase) :
    i ∈ committers past ↔ ∃ body, phase = .committed body ∨ phase = .answered (.ok body) := by
  constructor
  · intro there
    cases phase with
    | waiting request => exact absurd there h.2
    | committed body => exact ⟨body, .inl rfl⟩
    | answered result =>
      cases result with
      | ok body => exact ⟨body, .inr rfl⟩
      | error e => exact absurd there h
  · rintro ⟨body, rfl | rfl⟩
    · exact Decided.mem h
    · exact Decided.mem h

end

/-- What a step does to the account of its own handler, and to the list of those that
committed. -/
theorem Told.act {start : ServerState} {initially : Option SecretText} {requests : ι → Request}
    {past : List (Note ι)} {hub : Hub} (follows : Follows hashToken start initially past hub)
    (once : (committers past).Nodup) {i : ι} {phase : Phase}
    (told : Told hashToken start requests past i phase) (turn : Turn) :
    (committers (past ++ (note hashToken i phase turn hub).toList)).Nodup ∧
      Told hashToken start requests (past ++ (note hashToken i phase turn hub).toList) i
        (Handlers.act hashToken phase turn hub).2 ∧
      ∀ j ≠ i, j ∉ committers (note hashToken i phase turn hub).toList := by
  obtain ⟨state, parsed, replayed⟩ := follows.file
  have took := act_took hashToken i phase turn hub
  generalize note hashToken i phase turn hub = noted at *
  generalize Handlers.act hashToken phase turn hub = out at *
  have nothing : past ++ (none : Option (Note ι)).toList = past := List.append_nil past
  have applied : ∀ config, committers (past ++ [.applied config]) = committers past := by
    intro config
    rw [committers_append]
    exact List.append_nil _
  cases took with
  | refused waiting =>
    subst waiting
    rw [nothing]
    exact ⟨once, told.2, fun _ _ => List.not_mem_nil⟩
  | settled _ =>
    rw [nothing]
    exact ⟨once, told, fun _ _ => List.not_mem_nil⟩
  | @committed request state' body waiting parsed' decided =>
    subst waiting
    obtain ⟨rfl, first⟩ := told
    cases parsed.symm.trans parsed'
    refine ⟨?_, ⟨past, turn.now, [], state, rfl, replayed, decided⟩, ?_⟩
    · rw [Option.toList_some, committers_append]
      exact once.append (List.nodup_singleton _) (by simpa [committers] using first)
    · intro j other there
      exact other (List.mem_singleton.mp there)
  | missed committed =>
    subst committed
    rw [Option.toList_some, applied]
    exact ⟨once, Decided.later told _, fun _ _ => List.not_mem_nil⟩
  | applied committed _ =>
    subst committed
    rw [Option.toList_some, applied]
    exact ⟨once, Decided.later told _, fun _ _ => List.not_mem_nil⟩

variable [DecidableEq ι]

/-- While the last thing noted is a commit, its request has yet to apply. -/
def Owing (past : List (Note ι)) (world : World Hub ι Phase) : Prop :=
  ∀ i request now, past.getLast? = some (.committed i request now) →
    ∃ body, world.locals i = .committed body

theorem Owing.step {past : List (Note ι)} {world : World Hub ι Phase} (h : Owing past world)
    (event : ι × Turn) :
    Owing (past ++ (noted (note hashToken) world event).toList)
      (Interleaving.step (fun _ => act hashToken) world event) := by
  obtain ⟨i, turn⟩ := event
  have took := act_took hashToken i (world.locals i) turn world.shared
  have hown := step_own (fun _ : ι => act hashToken) world (i, turn)
  rw [noted]
  simp only at hown ⊢
  generalize note hashToken i (world.locals i) turn world.shared = noted at *
  generalize act hashToken (world.locals i) turn world.shared = out at *
  -- a step that notes nothing is not that of the request that has yet to apply
  have waits : (∀ body, world.locals i ≠ .committed body) →
      Owing (past ++ (none : Option (Note ι)).toList)
        (Interleaving.step (fun _ => act hashToken) world (i, turn)) := by
    intro idle
    rw [Option.toList_none, List.append_nil]
    intro j request now hlast
    obtain ⟨body, hj⟩ := h j request now hlast
    have other : j ≠ i := by
      rintro rfl
      exact idle body hj
    exact ⟨body, by rw [step_other _ _ _ other, hj]⟩
  cases took with
  | refused waiting => exact waits fun body h => by rw [waiting] at h; cases h
  | settled answered => exact waits fun body h => by rw [answered] at h; cases h
  | committed _ _ _ =>
    intro j request now hlast
    rw [Option.toList_some, List.getLast?_concat] at hlast
    cases hlast
    exact ⟨_, hown⟩
  | missed _ =>
    intro j request now hlast
    rw [Option.toList_some, List.getLast?_concat] at hlast
    cases hlast
  | applied _ _ =>
    intro j request now hlast
    rw [Option.toList_some, List.getLast?_concat] at hlast
    cases hlast

/-- Whatever the order of the steps: the file is the committed changes one after the
other, and they are those of the requests that were decided well, each once and with the
answer it gets; an installed config belongs to the commits before it and the next one to a
later state, the interface holds the last installed one, and when nothing is left to apply
and the last push succeeded, it is the config of the file. -/
theorem interface_follows_commits (hub : Hub) (start : ServerState)
    (read : ServerState.parse hub.file = .ok start) (requests : ι → Request)
    (events : List (ι × Turn)) :
    let world : World Hub ι Phase := ⟨hub, fun i => .waiting (requests i)⟩
    let past := log (fun _ => act hashToken) (note hashToken) world events
    let final := Interleaving.run (fun _ => act hashToken) world events
    ∃ state, ServerState.parse final.shared.file = .ok state ∧
      replay hashToken start (commits past) = some state ∧
      (committers past).Nodup ∧
      (∀ i, i ∈ committers past ↔
        ∃ body, final.locals i = .committed body ∨ final.locals i = .answered (.ok body)) ∧
      (∀ i body, final.locals i = .committed body ∨ final.locals i = .answered (.ok body) →
        Decided hashToken start requests past i body) ∧
      (∀ before config between config' after, past = before ++ .applied (some config) ::
          (between ++ .applied (some config') :: after) →
        ∃ seen seen', replay hashToken start (commits before) = some seen ∧
          config = serverConfig seen ∧ replay hashToken seen (commits between) = some seen' ∧
          config' = serverConfig seen') ∧
      final.shared.interface = (installs past).getLast?.or hub.interface ∧
      ((∀ i body, final.locals i ≠ .committed body) → ∀ config,
        (pushes past).getLast? = some (some config) →
          final.shared.interface = some (serverConfig state)) := by
  intro world past final
  obtain ⟨⟨follows, once⟩, told⟩ :
      (Follows hashToken start hub.interface past final.shared ∧ (committers past).Nodup) ∧
        ∀ i, Told hashToken start requests past i (final.locals i) := by
    have initial : Follows hashToken start hub.interface ([] : List (Note ι)) hub :=
      ⟨⟨start, read, rfl⟩, fun before config after heq => by simp at heq, rfl⟩
    refine @run_keeps _ ι _ _ _ _ (fun _ => act hashToken) (note hashToken)
      (fun past hub' => Follows hashToken start hub.interface past hub' ∧ (committers past).Nodup)
      (fun past _ i phase => Told hashToken start requests past i phase) ?_ ?_ world
      ⟨initial, List.nodup_nil⟩ (fun i => ⟨rfl, List.not_mem_nil⟩) events
    · rintro past hub' i phase turn ⟨follows, once⟩ told
      obtain ⟨once', told', -⟩ := Told.act follows once told turn
      exact ⟨⟨follows.act i phase turn, once'⟩, told'⟩
    · rintro past hub' i phase turn j other apart ⟨follows, once⟩ told others
      exact others.later ((Told.act follows once told turn).2.2 j apart)
  have owing : Owing past final := by
    have initial : Owing [] world := fun i request now h => by cases h
    have kept : ∀ (past : List (Note ι)) (world : World Hub ι Phase) (event : ι × Turn),
        Owing past world → Owing (past ++ (noted (note hashToken) world event).toList)
          (Interleaving.step (fun _ => act hashToken) world event) :=
      fun past world event h => h.step event
    have h := Runs.run_log kept initial events
    rwa [List.nil_append] at h
  obtain ⟨state, hparse, hreplay⟩ := follows.file
  have decided : ∀ i body, final.locals i = .committed body ∨
      final.locals i = .answered (.ok body) →
      Decided hashToken start requests past i body := by
    intro i body well
    have known := told i
    rcases well with well | well
    · rwa [well] at known
    · rwa [well] at known
  refine ⟨state, hparse, hreplay, once, fun i => (told i).mem_iff, decided, ?_,
    follows.interface, ?_⟩
  · rintro before config between config' after hpast
    obtain ⟨seen, hseen, rfl⟩ := Option.map_eq_some_iff.mp (follows.current _ _ _ hpast)
    have later := follows.current (before ++ .applied (some (serverConfig seen)) :: between) config'
      after (by rw [hpast]; simp)
    have none : commits (.applied (some (serverConfig seen)) :: between) = commits between := rfl
    rw [commits_append, none, replay_append, hseen, Option.bind_some] at later
    obtain ⟨seen', hseen', rfl⟩ := Option.map_eq_some_iff.mp later
    exact ⟨seen, seen', hseen, rfl, hseen', rfl⟩
  · intro settled config hlast
    rw [follows.interface]
    have current := follows.current
    generalize past = past at *
    rcases List.eq_nil_or_concat past with rfl | ⟨sooner, last, rfl⟩
    · cases hlast
    rw [List.concat_eq_append] at *
    cases last with
    | committed i request now =>
      obtain ⟨body, hi⟩ := owing i request now List.getLast?_concat
      exact absurd hi (settled i body)
    | applied pushed =>
      rw [pushes_append] at hlast
      obtain rfl : pushed = some config := by simpa [pushes] using hlast
      have held := current sooner config [] rfl
      have same : commits (sooner ++ [.applied (some config)]) = commits sooner := by
        simp [commits]
      rw [same] at hreplay
      rw [hreplay] at held
      rw [installs_append]
      simpa [installs, pushes] using held.symm

/-- The steps of a handler whose lock, write and push succeed. -/
theorem act_commits {state left : ServerState} {body : Json.Value} {request : Request}
    {now : Int64} {hub : Hub} (read : ServerState.parse hub.file = .ok state)
    (decided : answer hashToken state now request = (.ok body, left)) :
    act hashToken (.waiting request) ⟨now, true, true⟩ hub =
      ({ hub with file := left.toJsonString }, .committed body) := by
  have locked : lock true hub.file = some state := by
    rw [lock, if_pos rfl, read]
  rw [act, locked]
  simp only [decided, if_true]

theorem act_applies {state : ServerState} {body : Json.Value} {now : Int64} {hub : Hub}
    (read : ServerState.parse hub.file = .ok state) :
    act hashToken (.committed body) ⟨now, true, true⟩ hub =
      ({ hub with interface := some (serverConfig state) }, .answered (.ok body)) := by
  have locked : lock true hub.file = some state := by
    rw [lock, if_pos rfl, read]
  rw [act, locked]
  rfl

/-- A join, and a list for the device that joined. -/
def sampleRequest (joins : Bool) : Request :=
  if joins then
    .join ⟨Init.sampleCode.asStr, "macbook", String.ofList (List.replicate 43 'A' ++ ['='])⟩
      (.sample '5' rfl)
  else .peers (.sample '5' rfl)

def sampleHash (_ : DeviceToken) : TokenHash := .sample '6' rfl

def sampleJoined : @ServerState asciiTables :=
  (@answer asciiTables sampleHash Init.sampleHub 7 (sampleRequest true)).2

def sampleListed : @ServerState asciiTables :=
  (@answer asciiTables sampleHash sampleJoined 8 (sampleRequest false)).2

omit [Unicode] in
/-- The device that joined asks for the list, and both are decided before either is applied. -/
theorem interface_follows_commits_sample :
    letI := asciiTables
    let hub : Hub := ⟨Init.sampleHub.toJsonString, none⟩
    let world : World Hub Bool Phase := ⟨hub, fun i => .waiting (sampleRequest i)⟩
    let events : List (Bool × Turn) :=
      [(true, ⟨7, true, true⟩), (false, ⟨8, true, true⟩), (false, ⟨9, true, true⟩),
        (true, ⟨9, true, true⟩)]
    let final := Interleaving.run (fun _ => act sampleHash) world events
    let past := log (fun _ => act sampleHash) (note sampleHash) world events
    (∃ state, ServerState.parse final.shared.file = .ok state ∧
      state.peers.map (fun peer => (peer.name.asStr, peer.lastSeen)) = [("macbook", some 8)] ∧
      final.shared.interface = some (serverConfig state)) ∧
      ∀ i, ∃ body, final.locals i = .answered (.ok body) ∧
        Decided sampleHash Init.sampleHub sampleRequest past i body := by
  have well : (@answer asciiTables sampleHash Init.sampleHub 7 (sampleRequest true)).1.isOk = true ∧
      (@answer asciiTables sampleHash sampleJoined 8 (sampleRequest false)).1.isOk = true := by
    decide +kernel
  have seen : (@ServerState.peers asciiTables sampleListed).map
      (fun peer => (@DeviceName.asStr asciiTables (@Peer.name asciiTables peer),
        @Peer.lastSeen asciiTables peer)) = [("macbook", some 8)] := by
    decide +kernel
  let := asciiTables
  have decided : ∀ {d : Except ApiError Json.Value × ServerState}, d.1.isOk = true →
      ∃ body, d = (.ok body, d.2) := by
    rintro ⟨result, left⟩ ok
    cases result with
    | error e => cases ok
    | ok body => exact ⟨body, rfl⟩
  obtain ⟨joins, join⟩ := decided well.1
  obtain ⟨lists, list⟩ := decided well.2
  have read : ServerState.parse Init.sampleHub.toJsonString = .ok Init.sampleHub :=
    ServerState.parse_toJsonString rfl
  have home : ∀ {state : ServerState}, Registry.SameHub Init.sampleHub state →
      ServerState.parse state.toJsonString = .ok state := by
    intro state same
    apply ServerState.parse_toJsonString
    rw [same.server, same.subnet]
    rfl
  have joined := answer_sameHub sampleHash Init.sampleHub 7 (sampleRequest true)
  have read' : ServerState.parse sampleJoined.toJsonString = .ok sampleJoined := home joined
  have read'' : ServerState.parse sampleListed.toJsonString = .ok sampleListed :=
    home (joined.trans (answer_sameHub sampleHash sampleJoined 8 (sampleRequest false)))
  intro hub world events final past
  have ends : final.shared = ⟨sampleListed.toJsonString, some (serverConfig sampleListed)⟩ ∧
      final.locals true = .answered (.ok joins) ∧ final.locals false = .answered (.ok lists) := by
    have first : act sampleHash (.waiting (sampleRequest true)) ⟨7, true, true⟩ hub =
        (⟨sampleJoined.toJsonString, none⟩, .committed joins) := act_commits read join
    have second : act sampleHash (.waiting (sampleRequest false)) ⟨8, true, true⟩
        ⟨sampleJoined.toJsonString, none⟩ = (⟨sampleListed.toJsonString, none⟩, .committed lists) :=
      act_commits read' list
    have third : ∀ interface body, act sampleHash (.committed body) ⟨9, true, true⟩
        ⟨sampleListed.toJsonString, interface⟩ =
          (⟨sampleListed.toJsonString, some (serverConfig sampleListed)⟩, .answered (.ok body)) :=
      fun _ _ => act_applies read''
    simp [final, events, world, Runs.run, Interleaving.step, first, second, third]
  obtain ⟨-, -, -, -, -, told, -⟩ :=
    @interface_follows_commits _ sampleHash _ _ hub Init.sampleHub read sampleRequest events
  refine ⟨⟨sampleListed, ?_, seen, ?_⟩, fun i => ?_⟩
  · rw [ends.1]
    exact read''
  · rw [ends.1]
  · cases i with
    | true => exact ⟨joins, ends.2.1, told true joins (.inr ends.2.1)⟩
    | false => exact ⟨lists, ends.2.2, told false lists (.inr ends.2.2)⟩

end Handlers
