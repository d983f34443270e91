import Anago.Api
import Anago.Init
import Anago.Runs

/-!
# The registry as a machine

One operation for each way the registry is changed, with the clock and the drawn
secrets as inputs, and what each operation can do. Everything about runs is derived
from the case lemmas here.
-/

open StdText Proto

namespace Registry

variable [Unicode]

inductive Op where
  /-- `choose_unused`, and `issue` when it found a code. -/
  | issue (draw : Nat → Except String JoinCode) (draws : Nat) (now ttlSecs : Int64)
  | join (request : JoinRequest) (token : DeviceToken) (tokenHash : TokenHash) (now : Int64)
  /-- `add_peer` by itself. -/
  | register (registration : Registration) (now : Int64)
  | remove (name : String)
  /-- `remove_peer` by itself. -/
  | drop (name : DeviceName)
  | touch (name : DeviceName) (now : Int64)

/-- The state an operation leaves. The clock is whatever the operation says it is. -/
def step (state : ServerState) : Op → ServerState
  | .issue draw draws now ttlSecs =>
    match Code.chooseUnused state draw draws with
    | .ok code => (Code.issue state code now ttlSecs).2
    | .error _ => state
  | .join request token tokenHash now => (Api.decideJoin state request token tokenHash now).2
  | .register registration now => (state.addPeer registration now).2
  | .remove name => (Api.decideRemove state name).2
  | .drop name => (state.removePeer name).2
  | .touch name now => Api.touchLastSeen state name now

abbrev run (state : ServerState) (ops : List Op) : ServerState := Runs.run step state ops

theorem chooseUnused_fresh {state : ServerState} {draw : Nat → Except String JoinCode}
    {draws : Nat} {code : JoinCode} (h : Code.chooseUnused state draw draws = .ok code) :
    code ∉ state.codes.map IssuedCode.code := by
  have loop : ∀ left, Code.chooseUnusedFrom state draw draws left = .ok code →
      code ∉ state.codes.map IssuedCode.code := by
    intro left
    induction left with
    | zero => intro h; cases h
    | succ left ih =>
      intro h
      rw [Code.chooseUnusedFrom] at h
      split at h
      · cases h
      · split at h
        · next hany =>
          cases h
          intro hm
          obtain ⟨issued, hi, hcode⟩ := List.mem_map.mp hm
          rw [Bool.not_eq_true', List.any_eq_false] at hany
          exact hany issued hi (decide_eq_true hcode)
        · exact ih h
  exact loop draws h

/-- A join is refused and changes nothing, or it registers what was asked for. -/
theorem decideJoin_cases (state : ServerState) (request : JoinRequest) (token : DeviceToken)
    (tokenHash : TokenHash) (now : Int64) :
    (∃ e, Api.decideJoin state request token tokenHash now = (.error e, state)) ∨
      ∃ code name publicKey peer state' before issued after response,
        JoinCode.parse request.code = .ok code ∧ DeviceName.parse request.name = .ok name ∧
          parseKey request.publicKey = .ok publicKey ∧
          ServerState.Registered state ⟨code, name, publicKey, tokenHash⟩ now peer state'
            before issued after ∧
          Api.decideJoin state request token tokenHash now = (.ok response, state') ∧
          response.name = name.asStr ∧ response.token = token.asStr := by
  rw [Api.decideJoin]
  split
  · exact Or.inl ⟨_, rfl⟩
  next code hcode =>
  split
  · exact Or.inl ⟨_, rfl⟩
  next name hname =>
  split
  · exact Or.inl ⟨_, rfl⟩
  next publicKey hkey =>
  rcases state.addPeer_cases ⟨code, name, publicKey, tokenHash⟩ now with
    ⟨rejection, hadd⟩ | ⟨peer, state', before, issued, after, hadd, hreg⟩
  · rw [hadd]
    exact Or.inl ⟨_, rfl⟩
  · rw [hadd]
    refine Or.inr ⟨code, name, publicKey, peer, state', before, issued, after, _, hcode, hname,
      hkey, hreg, rfl, ?_, rfl⟩
    rw [hreg.entry]

theorem decideRemove_cases (state : ServerState) (name : String) :
    (∃ e, Api.decideRemove state name = (.error e, state) ∧
      ∀ parsed, DeviceName.parse name = .ok parsed → parsed ∉ state.peers.map Peer.name) ∨
      ∃ parsed before peer after response, DeviceName.parse name = .ok parsed ∧
        state.peers = before ++ peer :: after ∧ peer.name = parsed ∧
        (∀ p ∈ before, p.name ≠ parsed) ∧
        Api.decideRemove state name = (.ok response, { state with peers := before ++ after }) ∧
        response.name = parsed.asStr := by
  rw [Api.decideRemove]
  split
  · next e he =>
    refine Or.inl ⟨_, rfl, fun parsed hp => ?_⟩
    rw [hp] at he
    cases he
  · next parsed hparsed =>
    rcases state.removePeer_cases parsed with
      ⟨hfree, hrem⟩ | ⟨before, peer, after, hpeers, hname, hfirst, hrem⟩
    · rw [hrem]
      refine Or.inl ⟨_, rfl, fun other hother => ?_⟩
      rw [hparsed] at hother
      cases hother
      exact hfree
    · rw [hrem]
      exact Or.inr ⟨parsed, before, peer, after, _, hparsed, hpeers, hname, hfirst, rfl,
        congrArg DeviceName.asStr hname⟩

theorem touchLastSeen_cases (state : ServerState) (name : DeviceName) (now : Int64) :
    Api.touchLastSeen state name now = state ∨
      ∃ before peer after, state.peers = before ++ peer :: after ∧
        Api.touchLastSeen state name now =
          { state with peers := before ++ { peer with lastSeen := some now } :: after } := by
  rw [Api.touchLastSeen]
  split
  · exact Or.inl rfl
  · next index hindex =>
    obtain ⟨before, after, hpeers, _, _, hset⟩ :=
      FirstMatch.set_eq hindex { state.peers.get index with lastSeen := some now }
    exact Or.inr ⟨before, _, after, hpeers, by rw [hset]⟩

/-- All an operation can do to the state. -/
inductive Effect (state : ServerState) : ServerState → Prop
  | unchanged : Effect state state
  | issued {entry : IssuedCode} : entry.code ∉ state.codes.map IssuedCode.code →
    entry.usedAt = none → Effect state { state with codes := state.codes ++ [entry] }
  | registered {registration : Registration} {now : Int64} {peer : Peer} {state' : ServerState}
    {before : List IssuedCode} {entry : IssuedCode} {after : List IssuedCode} :
    ServerState.Registered state registration now peer state' before entry after →
    Effect state state'
  | removed {before : List Peer} {peer : Peer} {after : List Peer} :
    state.peers = before ++ peer :: after → Effect state { state with peers := before ++ after }
  | stamped {before : List Peer} {peer : Peer} {after : List Peer} {seen : Option Int64} :
    state.peers = before ++ peer :: after →
    Effect state { state with peers := before ++ { peer with lastSeen := seen } :: after }

theorem step_effect (state : ServerState) (op : Op) : Effect state (step state op) := by
  cases op with
  | issue draw draws now ttlSecs =>
    rw [step]
    split
    · next code hcode => exact .issued (chooseUnused_fresh hcode) rfl
    · exact .unchanged
  | join request token tokenHash now =>
    rw [step]
    rcases decideJoin_cases state request token tokenHash now with
      ⟨e, h⟩ | ⟨_, _, _, _, _, _, _, _, _, _, _, _, hreg, h, _, _⟩
    · rw [h]
      exact .unchanged
    · rw [h]
      exact .registered hreg
  | register registration now =>
    rw [step]
    rcases state.addPeer_cases registration now with
      ⟨rejection, h⟩ | ⟨peer, state', before, issued, after, h, hreg⟩
    · rw [h]
      exact .unchanged
    · rw [h]
      exact .registered hreg
  | remove name =>
    rw [step]
    rcases decideRemove_cases state name with
      ⟨e, h, _⟩ | ⟨_, before, peer, after, _, _, hpeers, _, _, h, _⟩
    · rw [h]
      exact .unchanged
    · rw [h]
      exact .removed hpeers
  | drop name =>
    rw [step]
    rcases state.removePeer_cases name with ⟨_, h⟩ | ⟨before, peer, after, hpeers, _, _, h⟩
    · rw [h]
      exact .unchanged
    · rw [h]
      exact .removed hpeers
  | touch name now =>
    rw [step]
    rcases touchLastSeen_cases state name now with h | ⟨before, peer, after, hpeers, h⟩
    · rw [h]
      exact .unchanged
    · rw [h]
      exact .stamped hpeers

/-- One hub at two moments: only the devices and the codes may differ. -/
def SameHub (state state' : ServerState) : Prop :=
  state' = { state with peers := state'.peers, codes := state'.codes }

theorem SameHub.refl (state : ServerState) : SameHub state state := rfl

theorem SameHub.trans {a b c : ServerState} (h : SameHub a b) (h' : SameHub b c) :
    SameHub a c := by
  simp only [SameHub] at h h' ⊢
  rw [h', h]

theorem SameHub.server {state state' : ServerState} (h : SameHub state state') :
    state'.server = state.server := by
  rw [SameHub] at h
  rw [h]

theorem SameHub.subnet {state state' : ServerState} (h : SameHub state state') :
    state'.subnet = state.subnet := by
  rw [SameHub] at h
  rw [h]

theorem SameHub.tls {state state' : ServerState} (h : SameHub state state') :
    state'.tls = state.tls := by
  rw [SameHub] at h
  rw [h]

/-- No operation touches anything else of the hub. -/
theorem Effect.sameHub {state state' : ServerState} (effect : Effect state state') :
    SameHub state state' := by
  cases effect with
  | unchanged => exact .refl state
  | issued _ _ => rfl
  | registered hreg =>
    rw [hreg.result]
    rfl
  | removed _ => rfl
  | stamped _ => rfl

/-- Joins the sample hub with its code. -/
def sampleJoin (name : String) (key : Char) (token : DeviceToken) (tokenHash : TokenHash)
    (now : Int64) : Op :=
  .join ⟨Init.sampleCode.asStr, name, String.ofList (List.replicate 43 key ++ ['='])⟩ token
    tokenHash now

end Registry
