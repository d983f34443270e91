import Anago.Interleaving
import Anago.Registry
import Anago.StateRoundTrip
import Anago.WgConf

/-!
# Requests served side by side

A request is served in two steps, each under the lock: one reads the state file, decides
and writes the file back; a later one reads the file again and pushes what it holds into
the interface. Between the two, and before them, any other request may take its steps.
-/

open StdText Proto WgConf Interleaving

namespace Handlers

variable [Unicode]

/-- A request that got past its body or its `Authorization` header. A join brings the
token that was minted for it. -/
inductive Request where
  | join (request : JoinRequest) (token : DeviceToken)
  | peers (token : DeviceToken)
  | remove (token : DeviceToken) (name : String)
  deriving DecidableEq

/-- The state file's text, and the config the interface holds. -/
structure Hub where
  file : String
  interface : Option SecretText

/-- How far the handler of a request is. -/
inductive Phase where
  | waiting (request : Request)
  | committed (body : Json.Value)
  | answered (answer : Except ApiError Json.Value)

/-- One step's clock and luck: whether the lock and the read succeed, and whether the
write or the push does. -/
structure Turn where
  now : Int64
  locked : Bool
  done : Bool

/-- What is worth remembering of a step. -/
inductive Note (ι : Type) where
  /-- The state file was written with the change of this handler's request. -/
  | committed (i : ι) (request : Request) (now : Int64)
  /-- An apply step ran, and installed this config if any. -/
  | applied (config : Option SecretText)

/-- `Store::lock`: takes the lock and reads the state. Why it could not is only printed. -/
def lock (locked : Bool) (file : String) : Option ServerState :=
  if locked then
    match ServerState.parse file with
    | .ok state => some state
    | _ => none
  else none

variable {ι : Type} (hashToken : DeviceToken → TokenHash)

/-- Authenticates and runs `change`. -/
def withCaller (state : ServerState) (token : DeviceToken)
    (change : DeviceName → Except ApiError Json.Value × ServerState) :
    Except ApiError Json.Value × ServerState :=
  match Api.authenticate hashToken state token with
  | .error e => (.error e, state)
  | .ok caller => change caller

/-- What a handler answers, and the state it would commit. -/
def answer (state : ServerState) (now : Int64) : Request →
    Except ApiError Json.Value × ServerState
  | .join request token =>
    match Api.decideJoin state request token (hashToken token) now with
    | (.ok response, state) => (.ok response.toJson, state)
    | (.error e, state) => (.error e, state)
  | .peers token =>
    withCaller hashToken state token fun caller =>
      let state := Api.touchLastSeen state caller now
      (.ok (Api.decidePeers state).toJson, state)
  | .remove token name =>
    withCaller hashToken state token fun caller =>
      match Api.decideRemove state name with
      | (.error e, state) => (.error e, state)
      | (.ok removed, state) =>
        -- a device that removed itself is gone; nothing is left to stamp
        if removed.name ≠ caller.asStr then
          (.ok removed.toJson, Api.touchLastSeen state caller now)
        else (.ok removed.toJson, state)

/-- Said when the write fails. -/
def notSaved : Request → String
  | .join _ _ => "the server could not save the new device"
  | _ => "the server could not save its state"

/-- One step of a handler. -/
def act (phase : Phase) (turn : Turn) (hub : Hub) : Hub × Phase :=
  match phase with
  | .waiting request =>
    match lock turn.locked hub.file with
    | none => (hub, .answered (.error ⟨.internal, "the server could not read its state"⟩))
    | some state =>
      match answer hashToken state turn.now request with
      | (.error e, _) => (hub, .answered (.error e))
      | (.ok body, state) =>
        if turn.done then ({ hub with file := state.toJsonString }, .committed body)
        else (hub, .answered (.error ⟨.internal, notSaved request⟩))
  | .committed body =>
    match lock turn.locked hub.file with
    | none => (hub, .answered (.ok body))
    | some state =>
      if turn.done then ({ hub with interface := some (serverConfig state) }, .answered (.ok body))
      else (hub, .answered (.ok body))
  | .answered answer => (hub, .answered answer)

def note (i : ι) (phase : Phase) (turn : Turn) (hub : Hub) : Option (Note ι) :=
  match phase with
  | .waiting request =>
    match (act hashToken (.waiting request) turn hub).2 with
    | .committed _ => some (.committed i request turn.now)
    | _ => none
  | .committed _ =>
    match lock turn.locked hub.file with
    | some state => some (.applied (if turn.done then some (serverConfig state) else none))
    | none => some (.applied none)
  | .answered _ => none

/-- Committed changes one after the other, each decided in the state the one before left. -/
def replay (start : ServerState) (commits : List (Request × Int64)) : Option ServerState :=
  commits.foldlM (fun state commit =>
    match answer hashToken state commit.2 commit.1 with
    | (.ok _, state) => some state
    | (.error _, _) => none) start

/-- The requests whose change was written, in the order of the writes. -/
def commits (past : List (Note ι)) : List (Request × Int64) :=
  past.filterMap fun
    | .committed _ request now => some (request, now)
    | .applied _ => none

/-- The handlers whose change was written, in the order of the writes. -/
def committers (past : List (Note ι)) : List ι :=
  past.filterMap fun
    | .committed i _ _ => some i
    | .applied _ => none

/-- The apply steps that ran, in order. -/
def pushes (past : List (Note ι)) : List (Option SecretText) :=
  past.filterMap fun
    | .committed _ _ _ => none
    | .applied config => some config

/-- The configs that were installed, in order. -/
def installs (past : List (Note ι)) : List SecretText := (pushes past).filterMap id

theorem lock_eq_some {locked : Bool} {file : String} {state : ServerState}
    (h : lock locked file = some state) : ServerState.parse file = .ok state := by
  rw [lock] at h
  split at h
  · split at h
    · next read =>
      cases h
      exact read
    · cases h
  · cases h

/-- Whatever is answered, it is about devices and codes only. -/
theorem answer_sameHub (state : ServerState) (now : Int64) (request : Request) :
    Registry.SameHub state (answer hashToken state now request).2 := by
  cases request with
  | join request token =>
    have h := (Registry.step_effect state
      (.join request token (hashToken token) now)).sameHub
    rw [Registry.step] at h
    rw [answer]
    split
    · next heq => rw [heq] at h; exact h
    · next heq => rw [heq] at h; exact h
  | peers token =>
    rw [answer, withCaller]
    split
    · exact .refl state
    · next caller _ => exact (Registry.step_effect state (.touch caller now)).sameHub
  | remove token name =>
    rw [answer, withCaller]
    split
    · exact .refl state
    next caller _ =>
    have h := (Registry.step_effect state (.remove name)).sameHub
    rw [Registry.step] at h
    split
    · next heq => rw [heq] at h; exact h
    · next removed left heq =>
      rw [heq] at h
      split
      · exact h.trans (Registry.step_effect left (.touch caller now)).sameHub
      · exact h

/-- What a step of handler `i` can come to. -/
inductive Took (i : ι) (phase : Phase) (turn : Turn) (hub : Hub) :
    Option (Note ι) → Hub × Phase → Prop
  | refused {request : Request} {e : ApiError} : phase = .waiting request →
    Took i phase turn hub none (hub, .answered (.error e))
  | committed {request : Request} {state : ServerState} {body : Json.Value} :
    phase = .waiting request → ServerState.parse hub.file = .ok state →
    (answer hashToken state turn.now request).1 = .ok body →
    Took i phase turn hub (some (.committed i request turn.now))
      ({ hub with file := (answer hashToken state turn.now request).2.toJsonString },
        .committed body)
  | missed {body : Json.Value} : phase = .committed body →
    Took i phase turn hub (some (.applied none)) (hub, .answered (.ok body))
  | applied {body : Json.Value} {state : ServerState} : phase = .committed body →
    ServerState.parse hub.file = .ok state →
    Took i phase turn hub (some (.applied (some (serverConfig state))))
      ({ hub with interface := some (serverConfig state) }, .answered (.ok body))
  | settled {result : Except ApiError Json.Value} : phase = .answered result →
    Took i phase turn hub none (hub, phase)

theorem act_took (i : ι) (phase : Phase) (turn : Turn) (hub : Hub) :
    Took hashToken i phase turn hub (note hashToken i phase turn hub)
      (act hashToken phase turn hub) := by
  cases phase with
  | waiting request =>
    rw [note, act]
    cases hlock : lock turn.locked hub.file with
    | none => exact .refused rfl
    | some state =>
      simp only
      cases hanswer : answer hashToken state turn.now request with
      | mk result left =>
        cases result with
        | error e => exact .refused rfl
        | ok body =>
          cases turn.done with
          | false => exact .refused rfl
          | true =>
            have took : Took hashToken i (.waiting request) turn hub _ _ :=
              @Took.committed _ _ _ _ _ _ _ _ _ body rfl (lock_eq_some hlock) (by rw [hanswer])
            rw [hanswer] at took
            exact took
  | committed body =>
    rw [note, act]
    cases hlock : lock turn.locked hub.file with
    | none => exact .missed rfl
    | some state =>
      simp only
      split
      · exact .applied rfl (lock_eq_some hlock)
      · exact .missed rfl
  | answered result => exact .settled rfl

end Handlers
