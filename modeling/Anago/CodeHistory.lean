import Anago.RegistryInvariant
import Anago.SingleUse

/-!
# Join codes over whole runs

The list `codes` is a ledger: it only grows, and a registration spends one entry of
it. The history of a run says which codes were redeemed, and when.
-/

open StdText Proto

namespace Registry

/-- `codes` as a ledger. An entry may be redeemed before it expires. -/
def codeBook : SingleUse.Book IssuedCode (JoinCode × Int64 × Int64) JoinCode Int64 where
  terms issued := (issued.code, issued.issuedAt, issued.expiresAt)
  key terms := terms.1
  spent := IssuedCode.usedAt
  allows terms now := now < terms.2.2

variable [Unicode]

/-- The code a registration redeems when it succeeds, and when it does. -/
def redeemed (state : ServerState) : Op → Option (JoinCode × Int64)
  | .join request token tokenHash now =>
    match (Api.decideJoin state request token tokenHash now).1, JoinCode.parse request.code with
    | .ok _, .ok code => some (code, now)
    | _, _ => none
  | .register registration now =>
    match (state.addPeer registration now).1 with
    | .ok _ => some (registration.code, now)
    | .error _ => none
  | .issue .. | .remove _ | .drop _ | .touch .. => none

/-- Every redemption of a run, in order. -/
def redemptions (state : ServerState) (ops : List Op) : List (JoinCode × Int64) :=
  Runs.log step redeemed state ops

theorem registered_spends {state state' : ServerState} {registration : Registration}
    {now : Int64} {peer : Peer} {before after : List IssuedCode} {issued : IssuedCode}
    (h : ServerState.Registered state registration now peer state' before issued after) :
    codeBook.Step state.codes (some (registration.code, now)) state'.codes := by
  rw [h.codes, h.result, ← h.code]
  exact .spend h.unused h.unexpired rfl rfl

theorem step_redeems (state : ServerState) (op : Op) :
    codeBook.Step state.codes (redeemed state op) (step state op).codes := by
  cases op with
  | issue draw draws now ttlSecs =>
    rw [redeemed, step]
    split
    · next code hcode => exact .add (chooseUnused_fresh hcode) rfl
    · exact .keep
  | join request token tokenHash now =>
    rw [redeemed, step]
    rcases decideJoin_cases state request token tokenHash now with
      ⟨e, h⟩ | ⟨_, _, _, _, _, _, _, _, _, hcode, _, _, hreg, h, _, _⟩
    · rw [h]
      exact .keep
    · rw [h, hcode]
      exact registered_spends hreg
  | register registration now =>
    rw [redeemed, step]
    rcases state.addPeer_cases registration now with
      ⟨rejection, h⟩ | ⟨_, _, _, _, _, h, hreg⟩
    · rw [h]
      exact .keep
    · rw [h]
      exact registered_spends hreg
  | remove name =>
    rw [step]
    rcases decideRemove_cases state name with ⟨e, h, _⟩ | ⟨_, _, _, _, _, _, _, _, _, h, _⟩
    · rw [h]
      exact .keep
    · rw [h]
      exact .keep
  | drop name =>
    rw [step]
    rcases state.removePeer_cases name with ⟨_, h⟩ | ⟨_, _, _, _, _, _, h⟩
    · rw [h]
      exact .keep
    · rw [h]
      exact .keep
  | touch name now =>
    rw [step]
    rcases touchLastSeen_cases state name now with h | ⟨_, _, _, _, h⟩
    · rw [h]
      exact .keep
    · rw [h]
      exact .keep

theorem run_accounts {start : ServerState} (h : codeBook.Accounts [] start.codes)
    (ops : List Op) : codeBook.Accounts (redemptions start ops) (run start ops).codes := by
  have keep : ∀ (past : List (JoinCode × Int64)) (state : ServerState) (op : Op),
      codeBook.Accounts past state.codes →
        codeBook.Accounts (past ++ (redeemed state op).toList) (step state op).codes :=
    fun _ state op hpast => hpast.step (step_redeems state op)
  exact Runs.run_log
    (R := fun past (state : ServerState) => codeBook.Accounts past state.codes) keep h ops

theorem run_extends (state : ServerState) (ops : List Op) :
    codeBook.Extends state.codes (run state ops).codes :=
  Runs.run_relates (R := fun s s' => codeBook.Extends s.codes s'.codes)
    (fun s => SingleUse.Book.extends_refl s.codes) SingleUse.Book.extends_trans
    (fun state op => (step_redeems state op).extends) state ops

/-- Started with distinct unused codes, the registry redeems each code at most once and
before it expires, has one used entry for each redemption, and never takes an entry
or a use of it back. -/
theorem run_single_use (start : ServerState)
    (codes : (start.codes.map fun issued => issued.code.asStr).Nodup)
    (unused : ∀ issued ∈ start.codes, issued.usedAt = none) (ops : List Op) :
    let state := run start ops
    let joins := redemptions start ops
    (joins.map Prod.fst).Nodup ∧
      (∀ code now, (code, now) ∈ joins → ∃ issued ∈ state.codes, issued.code = code ∧
        issued.usedAt = some now ∧ now < issued.expiresAt) ∧
      (state.codes.map IssuedCode.code).Nodup ∧
      joins.length = state.codes.countP (fun issued => issued.usedAt.isSome) ∧
      ∀ (later : List Op) (i : Nat) (issued : IssuedCode), state.codes[i]? = some issued →
        ∃ kept, (run state later).codes[i]? = some kept ∧ kept.code = issued.code ∧
          kept.expiresAt = issued.expiresAt ∧
          ∀ t, issued.usedAt = some t → kept.usedAt = some t := by
  intro state joins
  have distinct : (start.codes.map codeBook.keyOf).Nodup := by
    apply List.Nodup.of_map JoinCode.asStr
    rwa [List.map_map]
  have h := run_accounts (SingleUse.Book.accounts_unspent distinct unused) ops
  refine ⟨h.once, h.recorded, h.distinct, h.counted, ?_⟩
  intro later i issued hi
  obtain ⟨kept, hkept, hterms, hused⟩ := run_extends state later i issued hi
  obtain ⟨hcode, hterms⟩ := Prod.mk.inj hterms
  exact ⟨kept, hkept, hcode, (Prod.mk.inj hterms).2, hused⟩

omit [Unicode] in
theorem run_single_use_sample :
    letI := asciiTables
    let joins := redemptions Init.sampleHub
      [sampleJoin "macbook" 'A' (.sample 'a' rfl) (.sample 'b' rfl) 7, .remove "macbook",
        sampleJoin "phone" 'B' (.sample 'c' rfl) (.sample 'd' rfl) 8]
    joins = [(Init.sampleCode, 7)] ∧ (joins.map Prod.fst).Nodup := by
  let := asciiTables
  refine ⟨by decide +kernel, ?_⟩
  have h := run_single_use Init.sampleHub (List.nodup_singleton _)
    (fun issued hi => by rw [List.mem_singleton.mp hi]; rfl)
    [sampleJoin "macbook" 'A' (.sample 'a' rfl) (.sample 'b' rfl) 7, .remove "macbook",
      sampleJoin "phone" 'B' (.sample 'c' rfl) (.sample 'd' rfl) 8]
  exact h.1

end Registry
