import Anago.Registry

/-!
# What a refused join tells

Whoever holds no usable code learns nothing from `decideJoin`: the answer is a function
of the request. The code is looked at before the names and before the addresses, and
the ways a code can fail are one error.
-/

open StdText Proto

namespace Api

variable [Unicode]

/-- The request's code was issued, has not been used and has not expired. -/
def Redeemable (state : ServerState) (request : JoinRequest) (now : Int64) : Prop :=
  ∃ code issued, JoinCode.parse request.code = .ok code ∧
    (state.codes.find? fun issued => issued.code = code) = some issued ∧
    issued.usedAt = none ∧ now < issued.expiresAt

/-- The answer to a request without a redeemable code. -/
def refusal (request : JoinRequest) : ApiError :=
  match JoinCode.parse request.code with
  | .error _ => ⟨.invalidCode, invalidCode⟩
  | .ok _ =>
    match DeviceName.parse request.name with
    | .error e => ⟨.invalidName, e.display⟩
    | .ok _ =>
      match parseKey request.publicKey with
      | .error _ =>
        ⟨.invalidPublicKey, "expected a WireGuard public key (44 base64 characters)"⟩
      | .ok _ => ⟨.invalidCode, invalidCode⟩

omit [Unicode] in
theorem ofRejection_code {rejection : JoinRejection} (h : rejection.errorCode = .invalidCode) :
    ofRejection rejection = ⟨.invalidCode, invalidCode⟩ := by
  rw [ofRejection, h]

/-- Without a usable code the registry asks nothing else about a registration. -/
theorem addPeer_unusable {state : ServerState} {registration : Registration} {now : Int64}
    (h : ∀ issued, (state.codes.find? fun issued => issued.code = registration.code) =
      some issued → ¬(issued.usedAt = none ∧ now < issued.expiresAt)) :
    ∃ rejection, state.addPeer registration now = (.error rejection, state) ∧
      rejection.errorCode = .invalidCode := by
  rw [ServerState.addPeer]
  split
  · exact ⟨.unknownCode, rfl, rfl⟩
  · next index hindex =>
    have husable : ((state.codes.get index).status now).isUsable = false :=
      eq_false_of_ne_true fun husable =>
        h _ (FirstMatch.find_eq hindex) (CodeStatus.isUsable_status.mp husable)
    exact ⟨.codeNotUsable ((state.codes.get index).status now),
      by simp only [husable, Bool.not_false, if_true], rfl⟩

theorem decideJoin_refusal {state : ServerState} {request : JoinRequest} {now : Int64}
    (h : ¬Redeemable state request now) (token : DeviceToken) (tokenHash : TokenHash) :
    decideJoin state request token tokenHash now = (.error (refusal request), state) := by
  rw [decideJoin, refusal]
  cases hcode : JoinCode.parse request.code with
  | error _ => rfl
  | ok code =>
    cases DeviceName.parse request.name with
    | error _ => rfl
    | ok name =>
      cases parseKey request.publicKey with
      | error _ => rfl
      | ok publicKey =>
        obtain ⟨rejection, hadd, hwire⟩ :=
          @addPeer_unusable _ state ⟨code, name, publicKey, tokenHash⟩ now
            fun issued hfind husable => h ⟨code, issued, hcode, hfind, husable⟩
        simp only [hadd, ofRejection_code hwire]

/-- Two hubs that cannot redeem the code of a request give it the same answer, whatever
else they hold and whatever time it is, and neither changes. -/
theorem unusable_code_reveals_nothing (request : JoinRequest) (state₁ state₂ : ServerState)
    (now₁ now₂ : Int64) (dead₁ : ¬Redeemable state₁ request now₁)
    (dead₂ : ¬Redeemable state₂ request now₂) (token₁ token₂ : DeviceToken)
    (tokenHash₁ tokenHash₂ : TokenHash) :
    ∃ e, decideJoin state₁ request token₁ tokenHash₁ now₁ = (.error e, state₁) ∧
      decideJoin state₂ request token₂ tokenHash₂ now₂ = (.error e, state₂) :=
  ⟨refusal request, decideJoin_refusal dead₁ token₁ tokenHash₁,
    decideJoin_refusal dead₂ token₂ tokenHash₂⟩

omit [Unicode] in
theorem unusable_code_reveals_nothing_sample :
    letI := asciiTables
    let request : JoinRequest :=
      ⟨Init.sampleCode.asStr, "macbook", String.ofList (List.replicate 43 'A' ++ ['='])⟩
    let emptied : ServerState := { Init.sampleHub with codes := [] }
    ∃ e, decideJoin Init.sampleHub request (.sample 'a' rfl) (.sample 'b' rfl) 900 =
        (.error e, Init.sampleHub) ∧
      decideJoin emptied request (.sample 'c' rfl) (.sample 'd' rfl) 0 = (.error e, emptied) := by
  let := asciiTables
  -- fifteen minutes after it was issued the code has expired
  refine unusable_code_reveals_nothing _ _ _ 900 0 ?_ ?_ _ _ _ _
  · rintro ⟨code, issued, -, hfind, -, hunexpired⟩
    obtain rfl := List.mem_singleton.mp (List.mem_of_find?_eq_some hfind)
    exact absurd hunexpired (by decide)
  · rintro ⟨code, issued, -, hfind, -⟩
    cases hfind

end Api
