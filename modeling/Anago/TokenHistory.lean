import Mathlib.Data.Set.Function
import Anago.Credentials
import Anago.Registry

/-!
# Tokens over whole runs

The peer list is one way to write down who each token speaks for. Joins enroll a token
for a device, removals retire the device, and `authenticate` reads the answer off the
stored hashes.
-/

open StdText Proto
open Credentials (Change)

namespace Api

variable [Unicode]

theorem visitPeers_none {offered : TokenHash} {peers : List Peer}
    (h : ∀ peer ∈ peers, peer.tokenHash ≠ offered) (found : Option DeviceName) :
    visitPeers offered peers found = found := by
  induction peers with
  | nil => rfl
  | cons peer peers ih =>
    have hne : ¬peer.tokenHash.matches offered = true := by
      rw [TokenHash.matches_iff]
      exact h peer List.mem_cons_self
    rw [visitPeers, List.foldl_cons, if_neg hne]
    exact ih fun other hm => h other (List.mem_cons_of_mem _ hm)

/-- Not stopping at a match is harmless when all matches have one name. -/
theorem visitPeers_some {offered : TokenHash} {name : DeviceName} {peers : List Peer}
    (same : ∀ peer ∈ peers, peer.tokenHash = offered → peer.name = name)
    (found : Option DeviceName) (h : ∃ peer ∈ peers, peer.tokenHash = offered) :
    visitPeers offered peers found = some name := by
  induction peers generalizing found with
  | nil =>
    obtain ⟨_, hm, _⟩ := h
    cases hm
  | cons peer peers ih =>
    rw [visitPeers, List.foldl_cons]
    by_cases hrest : ∃ peer ∈ peers, peer.tokenHash = offered
    · exact ih (fun other hm => same other (List.mem_cons_of_mem _ hm)) _ hrest
    · -- the match is the peer in front
      have hpeer : peer.tokenHash = offered := by
        obtain ⟨other, hm, hother⟩ := h
        rcases List.mem_cons.mp hm with rfl | hm
        · exact hother
        · exact absurd ⟨other, hm, hother⟩ hrest
      rw [if_pos ((TokenHash.matches_iff _ _).mpr hpeer), same peer List.mem_cons_self hpeer]
      exact visitPeers_none (fun other hm heq => hrest ⟨other, hm, heq⟩) (some name)

end Api

namespace Registry

variable [Unicode]

/-- Who may speak to the hub from now on, or no longer, because of an operation. -/
def change (state : ServerState) : Op → Option (Change DeviceToken DeviceName)
  | .join request token tokenHash now =>
    match (Api.decideJoin state request token tokenHash now).1, DeviceName.parse request.name with
    | .ok _, .ok name => some (.enroll token name)
    | _, _ => none
  | .remove name =>
    match (Api.decideRemove state name).1, DeviceName.parse name with
    | .ok _, .ok parsed => some (.retire parsed)
    | _, _ => none
  | .drop name => (state.removePeer name).1.map fun _ => .retire name
  | .issue .. | .register .. | .touch .. => none

/-- The tokens handed out and the devices removed in a run, in order. -/
def changes (state : ServerState) (ops : List Op) : List (Change DeviceToken DeviceName) :=
  Runs.log step change state ops

/-- The token a join draws, whether it is accepted or not. -/
def Op.token? : Op → Option DeviceToken
  | .join _ token _ _ => some token
  | .issue .. | .register .. | .remove _ | .drop _ | .touch .. => none

def drawn (ops : List Op) : List DeviceToken := ops.filterMap Op.token?

theorem drawn_cons (op : Op) (ops : List Op) :
    drawn (op :: ops) = op.token?.toList ++ drawn ops := by
  rw [drawn, List.filterMap_cons]
  cases op.token? with
  | none => rfl
  | some _ => rfl

theorem token_of_change {state : ServerState} {op : Op} {token : DeviceToken}
    {name : DeviceName} (h : change state op = some (.enroll token name)) :
    op.token? = some token := by
  cases op with
  | join request token' tokenHash now =>
    rw [change] at h
    split at h
    · cases h
      rfl
    · cases h
  | remove name' =>
    rw [change] at h
    split at h
    · cases h
    · cases h
  | drop name' =>
    rw [change, Option.map_eq_some_iff] at h
    obtain ⟨_, _, h⟩ := h
    cases h
  | issue | register | touch => cases h

/-- A token that was handed out had been drawn. -/
theorem drawn_of_changes {token : DeviceToken} {name : DeviceName} {state : ServerState}
    {ops : List Op} (h : .enroll token name ∈ changes state ops) : token ∈ drawn ops := by
  induction ops generalizing state with
  | nil => cases h
  | cons op ops ih =>
    rw [changes, Runs.log_cons, List.mem_append, Option.mem_toList] at h
    rw [drawn_cons, List.mem_append, Option.mem_toList]
    exact h.imp token_of_change ih

/-- Devices are registered as the handler registers them, with the hash of the token
it hands out. -/
def Mints (hashToken : DeviceToken → TokenHash) : Op → Prop
  | .join _ token tokenHash _ => tokenHash = hashToken token
  | .register .. => False
  | .issue .. | .remove _ | .drop _ | .touch .. => True

/-- The peer list says of each token in use whom it speaks for. -/
structure Speaks (hashToken : DeviceToken → TokenHash) (used : Set DeviceToken)
    (who : DeviceToken → Option DeviceName) (peers : List Peer) : Prop where
  names : (peers.map Peer.name).Nodup
  held : ∀ token ∈ used, ∀ name, who token = some name ↔
    ∃ peer ∈ peers, peer.tokenHash = hashToken token ∧ peer.name = name

section
variable {hashToken : DeviceToken → TokenHash} {used : Set DeviceToken}
  {who : DeviceToken → Option DeviceName}

theorem Speaks.authenticate {state : ServerState} (h : Speaks hashToken used who state.peers)
    {token : DeviceToken} (ht : token ∈ used) :
    Api.authenticate hashToken state token =
      (who token).elim (.error Api.unauthorized) .ok := by
  rw [Api.authenticate]
  cases hwho : who token with
  | some name =>
    obtain ⟨peer, hpeer, hhash, _⟩ := (h.held token ht name).mp hwho
    have same : ∀ other ∈ state.peers, other.tokenHash = hashToken token →
        other.name = name := by
      intro other hother hmatch
      have := (h.held token ht other.name).mpr ⟨other, hother, hmatch, rfl⟩
      exact Option.some.inj (this.symm.trans hwho)
    rw [Api.visitPeers_some same none ⟨peer, hpeer, hhash⟩]
    rfl
  | none =>
    have none_matches : ∀ peer ∈ state.peers, peer.tokenHash ≠ hashToken token := by
      intro peer hpeer hmatch
      have := (h.held token ht peer.name).mpr ⟨peer, hpeer, hmatch, rfl⟩
      rw [hwho] at this
      cases this
    rw [Api.visitPeers_none none_matches]
    rfl

theorem Speaks.enroll {peers : List Peer} (h : Speaks hashToken used who peers)
    (inj : Set.InjOn hashToken used) {token : DeviceToken} {peer : Peer} (ht : token ∈ used)
    (fresh : who token = none) (hhash : peer.tokenHash = hashToken token)
    (free : peer.name ∉ peers.map Peer.name) :
    Speaks hashToken used (Credentials.apply who (.enroll token peer.name))
      (peers ++ [peer]) where
  names := by
    rw [List.map_append, List.map_singleton, ← List.concat_eq_append]
    exact h.names.concat free
  held := by
    intro other hother name
    simp only [List.mem_append, List.mem_singleton, or_and_right, exists_or, exists_eq_left]
    by_cases heq : other = token
    · subst heq
      have unheld : ¬∃ p ∈ peers, p.tokenHash = hashToken other ∧ p.name = name := by
        rw [← h.held other hother name, fresh]
        simp
      rw [Credentials.apply_enroll_self, Option.some_inj, or_iff_right unheld,
        and_iff_right hhash]
    · have hne : peer.tokenHash ≠ hashToken other := by
        intro hmatch
        exact heq (inj hother ht (hmatch.symm.trans hhash))
      rw [Credentials.apply_enroll_of_ne _ heq, h.held other hother name,
        or_iff_left fun hp => hne hp.1]

theorem Speaks.retire {before after : List Peer} {peer : Peer}
    (h : Speaks hashToken used who (before ++ peer :: after)) :
    Speaks hashToken used (Credentials.apply who (.retire peer.name)) (before ++ after) where
  names := h.names.sublist
    (((List.sublist_cons_self peer after).append_left before).map Peer.name)
  held := by
    intro token ht name
    have hnames := h.names
    rw [List.map_append, List.map_cons, List.nodup_middle, List.nodup_cons,
      ← List.map_append] at hnames
    rw [Credentials.apply_retire]
    constructor
    · intro hwho
      split at hwho
      · cases hwho
      · next hother =>
        obtain ⟨p, hp, hhash, hname⟩ := (h.held token ht name).mp hwho
        refine ⟨p, ?_, hhash, hname⟩
        have hne : p ≠ peer := by
          rintro rfl
          rw [hname] at hother
          exact hother hwho
        simpa [hne] using hp
    · rintro ⟨p, hp, hhash, hname⟩
      have hsome : who token = some name := by
        refine (h.held token ht name).mpr ⟨p, ?_, hhash, hname⟩
        exact ((List.sublist_cons_self peer after).append_left before).subset hp
      have hne : who token ≠ some peer.name := by
        rw [hsome, ← hname]
        intro heq
        -- the name of the device that left is no longer there
        exact hnames.1 (List.mem_map.mpr ⟨p, hp, Option.some.inj heq⟩)
      rw [if_neg hne, hsome]

theorem Speaks.stamp {before after : List Peer} {peer : Peer}
    (h : Speaks hashToken used who (before ++ peer :: after)) (seen : Option Int64) :
    Speaks hashToken used who (before ++ { peer with lastSeen := seen } :: after) where
  names := by simpa using h.names
  held := by
    intro token ht name
    rw [h.held token ht name]
    simp only [List.mem_append, List.mem_cons, or_and_right, exists_or, exists_eq_left]

theorem step_speaks {state : ServerState} (h : Speaks hashToken used who state.peers)
    (inj : Set.InjOn hashToken used) {op : Op} (mints : Mints hashToken op)
    (fresh : ∀ token, op.token? = some token → token ∈ used ∧ who token = none) :
    Speaks hashToken used (Credentials.replay who (change state op).toList)
      (step state op).peers := by
  cases op with
  | issue draw draws now ttlSecs =>
    rw [step]
    split
    · exact h
    · exact h
  | join request token tokenHash now =>
    rw [change, step]
    rcases decideJoin_cases state request token tokenHash now with
      ⟨e, hjoin⟩ | ⟨_, name, _, peer, _, _, _, _, _, _, hname, _, hreg, hjoin, _, _⟩
    · rw [hjoin]
      exact h
    · obtain ⟨hused, hfresh⟩ := fresh token rfl
      have hhash : peer.tokenHash = hashToken token := hreg.peer_tokenHash.trans mints
      have speaks := h.enroll inj hused hfresh hhash hreg.peer_free
      rw [show peer.name = name from hreg.peer_name] at speaks
      rw [hjoin, hname, hreg.result]
      exact speaks
  | register registration now => exact mints.elim
  | remove name =>
    rw [change, step]
    rcases decideRemove_cases state name with
      ⟨e, hrem, _⟩ | ⟨parsed, before, peer, after, _, hparsed, hpeers, hname, _, hrem, _⟩
    · rw [hrem]
      exact h
    · rw [hrem, hparsed, ← hname]
      rw [hpeers] at h
      exact h.retire
  | drop name =>
    rw [change, step]
    rcases state.removePeer_cases name with ⟨_, hrem⟩ | ⟨_, _, _, hpeers, hname, _, hrem⟩
    · rw [hrem]
      exact h
    · rw [hrem, ← hname]
      rw [hpeers] at h
      exact h.retire
  | touch name now =>
    rw [step]
    rcases touchLastSeen_cases state name now with htouch | ⟨_, _, _, hpeers, htouch⟩
    · rw [htouch]
      exact h
    · rw [htouch]
      rw [hpeers] at h
      exact h.stamp (some now)

theorem run_speaks {state : ServerState} (h : Speaks hashToken used who state.peers)
    (inj : Set.InjOn hashToken used) {ops : List Op} (mints : ∀ op ∈ ops, Mints hashToken op)
    (distinct : (drawn ops).Nodup)
    (fresh : ∀ token ∈ drawn ops, token ∈ used ∧ who token = none) :
    Speaks hashToken used (Credentials.replay who (changes state ops)) (run state ops).peers := by
  induction ops generalizing state who with
  | nil => exact h
  | cons op ops ih =>
    rw [drawn_cons] at distinct fresh
    have now := step_speaks h inj (mints op List.mem_cons_self) fun token ht =>
      fresh token (List.mem_append_left _ (Option.mem_toList.mpr ht))
    rw [changes, Runs.log_cons, Credentials.replay_append, run, Runs.run_cons]
    refine ih now (fun other hm => mints other (List.mem_cons_of_mem _ hm))
      (List.nodup_append.mp distinct).2.1 fun token ht => ?_
    obtain ⟨hused, hnone⟩ := fresh token (List.mem_append_right _ ht)
    refine ⟨hused, Credentials.replay_none ?_ hnone⟩
    intro name hchange
    have hop := token_of_change (Option.mem_toList.mp hchange)
    exact (List.nodup_append.mp distinct).2.2 token (Option.mem_toList.mpr hop) token ht rfl

end

/-- A token speaks for the device it was handed out to until that device is removed,
and for nobody afterwards; a token that was never handed out speaks for nobody. -/
theorem token_lifetime (hashToken : DeviceToken → TokenHash) (start : ServerState)
    (empty : start.peers = []) (ops : List Op) (mints : ∀ op ∈ ops, Mints hashToken op)
    (distinct : (drawn ops).Nodup) (token : DeviceToken)
    (inj : Set.InjOn hashToken {t | t ∈ drawn ops ∨ t = token}) :
    (∀ (before after : List Op) (request : JoinRequest) (tokenHash : TokenHash) (now : Int64)
        (response : JoinResponse) (joined : ServerState),
      ops = before ++ .join request token tokenHash now :: after →
      Api.decideJoin (run start before) request token tokenHash now = (.ok response, joined) →
      ∃ name : DeviceName, response.name = name.asStr ∧ response.token = token.asStr ∧
        Api.authenticate hashToken (run start ops) token =
          if .retire name ∈ changes joined after then .error Api.unauthorized else .ok name) ∧
    ((∀ name, .enroll token name ∉ changes start ops) →
      Api.authenticate hashToken (run start ops) token = .error Api.unauthorized) := by
  have nobody : Speaks hashToken {t | t ∈ drawn ops ∨ t = token} (fun _ => none) start.peers := by
    rw [empty]
    exact ⟨List.nodup_nil, fun _ _ _ => by simp⟩
  have speaks := run_speaks nobody inj mints distinct fun t ht => ⟨Or.inl ht, rfl⟩
  rw [speaks.authenticate (Or.inr rfl)]
  constructor
  · rintro before after request tokenHash now response joined rfl hjoin
    rcases decideJoin_cases (run start before) request token tokenHash now with
      ⟨e, h⟩ | ⟨_, name, _, _, _, _, _, _, _, _, hname, _, _, h, hresponse, htoken⟩
    · rw [h] at hjoin
      cases hjoin
    · cases h.symm.trans hjoin
      refine ⟨name, hresponse, htoken, ?_⟩
      have hnow : change (run start before) (.join request token tokenHash now) =
          some (.enroll token name) := by
        rw [change, hjoin, hname]
      have hlater : ∀ other, .enroll token other ∉ changes joined after := by
        intro other hm
        rw [drawn, List.filterMap_append, List.nodup_append] at distinct
        exact (List.nodup_cons.mp distinct.2.1).1 (drawn_of_changes hm)
      have hstep : step (run start before) (.join request token tokenHash now) = joined := by
        rw [step, hjoin]
      have hlog : changes start (before ++ .join request token tokenHash now :: after) =
          changes start before ++ [.enroll token name] ++ changes joined after := by
        rw [changes, Runs.log_append, Runs.log_cons, hnow, hstep, Option.toList_some,
          List.append_assoc]
        rfl
      have hnamed : Credentials.replay (fun _ => none)
          (changes start before ++ [.enroll token name]) token = some name := by
        rw [Credentials.replay_append]
        exact Credentials.apply_enroll_self _ token name
      rw [hlog, Credentials.replay_append,
        Credentials.replay_some hlater hnamed]
      split
      · rfl
      · rfl
  · intro never
    rw [Credentials.replay_none never rfl]
    rfl

/-- SHA-256 on two tokens. -/
def sampleHash (token : DeviceToken) : TokenHash :=
  if token = .sample 'a' rfl then
    ⟨"ffe054fe7ae0cb6dc65c3af9b61d5209f439851db43d0ba5997337df154668eb", by decide⟩
  else ⟨"add5b41fc5a881fc87ef4640581ed5ff7fe5eab39640b3a3e6e8b90f0aa71730", by decide⟩

omit [Unicode] in
theorem token_lifetime_sample :
    letI := asciiTables
    let token : DeviceToken := .sample 'a' rfl
    let state := run Init.sampleHub [sampleJoin "macbook" 'A' token (sampleHash token) 7]
    (∃ name, Api.authenticate sampleHash state token = .ok name) ∧
      Api.authenticate sampleHash state (.sample 'e' rfl) = .error Api.unauthorized := by
  let := asciiTables
  intro token state
  have inj : Set.InjOn sampleHash {t | t = token ∨ t = .sample 'e' rfl} := by
    have differ : sampleHash token ≠ sampleHash (.sample 'e' rfl) := by decide
    rintro t (rfl | rfl) t' (rfl | rfl) h
    · rfl
    · exact absurd h differ
    · exact absurd h.symm differ
    · rfl
  have life := fun (t : DeviceToken) (ht : ∀ t', t' = t → t' = token ∨ t' = .sample 'e' rfl) =>
    token_lifetime sampleHash Init.sampleHub rfl
      [sampleJoin "macbook" 'A' token (sampleHash token) 7]
      (fun op hop => by rw [List.mem_singleton.mp hop]; rfl) (List.nodup_singleton _) t
      (inj.mono fun t' ht' => ht'.elim (fun h => Or.inl (List.mem_singleton.mp h)) (ht t'))
  constructor
  · have accepted : ∃ response joined, Api.decideJoin Init.sampleHub
        ⟨Init.sampleCode.asStr, "macbook", String.ofList (List.replicate 43 'A' ++ ['='])⟩ token
        (sampleHash token) 7 = (.ok response, joined) := ⟨_, _, rfl⟩
    obtain ⟨response, joined, hjoin⟩ := accepted
    obtain ⟨name, _, _, h⟩ :=
      (life token fun _ => Or.inl).1 [] [] _ _ 7 response joined rfl hjoin
    exact ⟨name, h⟩
  · refine (life (.sample 'e' rfl) fun _ => Or.inr).2 fun name hm => ?_
    exact absurd (drawn_of_changes hm) (by decide)

end Registry
