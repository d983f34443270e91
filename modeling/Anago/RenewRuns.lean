import Anago.AccountStep
import Anago.Handlers
import Anago.RenewalLoop

/-!
# One renewal, typed or timed

The command and the daemon both order first and write the state file last. The command
puts the account file and the pair back when it does not get that far; the daemon does
not. What else happens to the state file while the CA is asked is part of the input.
-/

open StdText AcmeClient Handlers RenewalLoop

namespace Renew

/-- The state file's text, and the files a renewal writes. -/
structure Hub where
  file : String
  disk : Disk
  deriving DecidableEq, Repr

/-- How one renewal turns out, step by step. `kept` and `pushed` are the Cloudflare half:
finding the token and the zone and keeping the token, and pushing the A record. -/
structure Luck where
  readable : Bool
  /-- What trying the issuance lock comes to: an error, another holder, or the lock. -/
  issuing : Except String Bool
  kept : Except RenewError (String × String)
  pushed : Except RenewError Pushed
  watched : Except RenewError Unit
  answers : Answers
  /-- What others put into the state file before it is read again. -/
  meanwhile : Option String
  locked : Bool
  /-- Whether the new pair can be served, and its expiry. -/
  loaded : Except String (Option Int64)
  written : Bool

/-- What a command brings back from the CA to its commit. -/
structure Ordered where
  keeping : Keeping
  issued : Option Renewed
  deriving DecidableEq, Repr

variable [Unicode] [Format]

/-- The middle of a command: it settles the token and orders if that is the plan. The
files are as before when it fails. -/
def order (state : ServerState) (plan : Plan) (asked : ServerRenew) (paths : ServerPaths)
    (now : Int64) (disk : Disk) (luck : Luck) : Except RenewError Ordered × Disk × List Call :=
  match settle (disposition state.tls asked) luck.kept with
  | .error e => (.error e, disk, [])
  | .ok keeping =>
    match plan with
    | .reissue _ =>
      match luck.watched with
      | .error e => (.error e, disk, [])
      | .ok () =>
        let attempt := AcmeClient.renew (apply state asked paths keeping) paths disk luck.answers
        match attempt.result with
        -- what the attempt wrote is put back
        | .error e => (.error (.acme e state.tls.notAfter now), disk, attempt.calls)
        | .ok issued => (.ok ⟨keeping, some issued⟩, attempt.disk, attempt.calls)
    | _ => (.ok ⟨keeping, none⟩, disk, [])

/-- What a command writes, given the state as the lock finds it. -/
def conclude (found : ServerState) (witness : Tls) (asked : ServerRenew) (paths : ServerPaths)
    (now : Int64) (ordered : Ordered) (loaded : Except String (Option Int64)) :
    Except RenewError ServerState :=
  if found.tls ≠ witness then .error .moved
  else
    let edited := apply found asked paths ordered.keeping
    match ordered.issued with
    | none => .ok edited
    | some issued =>
      match loaded with
      | .error detail => .error (.state detail)
      | .ok notAfter =>
        let recorded := record edited issued now
        .ok { recorded with tls := { recorded.tls with notAfter := notAfter } }

/-- The end of a command: lock, compare, edit, commit. Files go back unless it commits. -/
def commit (hub : Hub) (before : Disk) (witness : Tls) (asked : ServerRenew) (paths : ServerPaths)
    (now : Int64) (ordered : Ordered) (luck : Luck) : Except RenewError Unit × Hub :=
  match lock luck.locked hub.file with
  | none => (.error (.state "state"), { hub with disk := before })
  | some found =>
    match conclude found witness asked paths now ordered luck.loaded with
    | .error e => (.error e, { hub with disk := before })
    | .ok state =>
      if luck.written then (.ok (), { hub with file := state.toJsonString })
      else (.error (.state "state"), { hub with disk := before })

/-- `server renew`. -/
def run (hub : Hub) (asked : ServerRenew) (paths : ServerPaths) (now : Int64) (luck : Luck) :
    Except RenewError Plan × Hub × List Call :=
  match lock luck.readable hub.file with
  | none => (.error (.state "state"), hub, [])
  | some state =>
    match Renew.plan state asked now with
    | .error e => (.error e, hub, [])
    | .ok (.notDue dueAt) => (.ok (.notDue dueAt), hub, [])
    | .ok plan =>
      match luck.issuing with
      | .error detail => (.error (.state detail), hub, [])
      | .ok false => (.error .busy, hub, [])
      | .ok true =>
        let file := luck.meanwhile.getD hub.file
        if plan = .pushRecord then
          match luck.pushed with
          | .error e => (.error e, { hub with file := file }, [])
          | .ok pushed =>
            match lock luck.locked file with
            | none => (.error (.state "state"), { hub with file := file }, [])
            | some found =>
              if luck.written then
                (.ok plan, { hub with file := (remember found pushed).toJsonString }, [])
              else (.error (.state "state"), { hub with file := file }, [])
        else
          match order state plan asked paths now hub.disk luck with
          | (.error e, disk, calls) => (.error e, ⟨file, disk⟩, calls)
          | (.ok ordered, disk, calls) =>
            let (result, hub) :=
              commit ⟨file, disk⟩ hub.disk state.tls asked paths now ordered luck
            (result.map fun _ => plan, hub, calls)

/-- How an error of the CA is read for the schedule. -/
abbrev Classify := AcmeError → RenewalFailure

/-- The daemon's half of an order: the new pair is loaded at once, nothing is put back. -/
def orderOnce (classify : Classify) (state : ServerState) (paths : ServerPaths) (disk : Disk)
    (luck : Luck) : Except RenewalFailure Renewed × Disk × List Call :=
  let attempt := AcmeClient.renew state paths disk luck.answers
  match attempt.result with
  | .error e => (.error (classify e), attempt.disk, attempt.calls)
  | .ok renewed =>
    match luck.loaded with
    | .error detail => (.error (.localTo detail), attempt.disk, attempt.calls)
    | .ok _ => (.ok renewed, attempt.disk, attempt.calls)

/-- The daemon's commit. -/
def commitOnce (hub : Hub) (witness : Tls) (now : Int64) (renewed : Renewed) (luck : Luck) :
    Except RenewalFailure Unit × Hub :=
  match lock luck.locked hub.file with
  | none => (.error (.localTo "state"), hub)
  | some found =>
    if found.tls ≠ witness then
      (.error
        (.localTo ("the hub's TLS settings changed while the certificate was being issued; " ++
        "nothing was recorded")), hub)
    else if luck.written then
      (.ok (), { hub with file := (record found renewed now).toJsonString })
    else (.error (.localTo "state"), hub)

/-- `renew_once`. -/
def renewOnce (classify : Classify) (hub : Hub) (paths : ServerPaths) (now : Int64) (luck : Luck) :
    Except RenewalFailure Unit × Hub × List Call :=
  match luck.issuing with
  | .error detail => (.error (.localTo detail), hub, [])
  | .ok false => (.error .busy, hub, [])
  | .ok true =>
    match lock luck.readable hub.file with
    | none => (.error (.localTo "state"), hub, [])
    | some state =>
      let file := luck.meanwhile.getD hub.file
      match orderOnce classify state paths hub.disk luck with
      | (.error e, disk, calls) => (.error e, ⟨file, disk⟩, calls)
      | (.ok renewed, disk, calls) =>
        let (result, hub) := commitOnce ⟨file, disk⟩ state.tls now renewed luck
        (result, hub, calls)

/-- The state file as it is when a run comes back from the CA. -/
abbrev Hub.later (hub : Hub) (luck : Luck) : String := luck.meanwhile.getD hub.file

/-- A command that reaches the CA: what it read, what it wants, and how the order ends. -/
structure Asks (hub : Hub) (asked : ServerRenew) (paths : ServerPaths) (now : Int64) (luck : Luck)
    (state : ServerState) (why : Why) (keeping : Keeping)
    (attempt : AcmeClient.Attempt) : Prop where
  read : ServerState.parse hub.file = .ok state
  plan : Renew.plan state asked now = .ok (.reissue why)
  order : AcmeClient.renew (apply state asked paths keeping) paths hub.disk luck.answers = attempt

/-- A command gets its locks, settles the token and writes the state file. -/
structure Commits (hub : Hub) (asked : ServerRenew) (luck : Luck) (state : ServerState)
    (keeping : Keeping) : Prop where
  read : lock luck.readable hub.file = some state
  issuing : luck.issuing = .ok true
  settled : settle (disposition state.tls asked) luck.kept = .ok keeping
  locked : luck.locked = true
  written : luck.written = true

/-- The state a reissue writes. -/
def reissued (found : ServerState) (asked : ServerRenew) (paths : ServerPaths) (keeping : Keeping)
    (issued : Renewed) (now : Int64) (notAfter : Option Int64) : ServerState :=
  let recorded := record (apply found asked paths keeping) issued now
  { recorded with tls := { recorded.tls with notAfter := notAfter } }

/-- All a command can come to. -/
inductive Ran (hub : Hub) (asked : ServerRenew) (paths : ServerPaths) (now : Int64) (luck : Luck) :
    Except RenewError Plan × Hub × List Call → Prop
  | idle {result : Except RenewError Plan} : (∀ why, result ≠ .ok (.reissue why)) →
    Ran hub asked paths now luck (result, hub, [])
  | stopped {e : RenewError} : Ran hub asked paths now luck (.error e,
    ⟨hub.later luck, hub.disk⟩, [])
  | failed {e : RenewError} {state : ServerState} {why : Why} {keeping : Keeping}
    {attempt : AcmeClient.Attempt} : Asks hub asked paths now luck state why keeping attempt →
    Ran hub asked paths now luck (.error e, ⟨hub.later luck, hub.disk⟩, attempt.calls)
  | pushed {found : ServerState} {pushed : Pushed} :
    ServerState.parse (hub.later luck) = .ok found →
    Ran hub asked paths now luck
      (.ok .pushRecord, ⟨(remember found pushed).toJsonString, hub.disk⟩, [])
  | settings {state found : ServerState} {keeping : Keeping} :
    ServerState.parse hub.file = .ok state → Renew.plan state asked now = .ok .settings →
    Commits hub asked luck state keeping → ServerState.parse (hub.later luck) = .ok found →
    found.tls = state.tls →
    Ran hub asked paths now luck
      (.ok .settings, ⟨(apply found asked paths keeping).toJsonString, hub.disk⟩, [])
  | reissued {state found : ServerState} {why : Why} {keeping : Keeping} {issued : Renewed}
    {after : Disk} {calls : List Call} {notAfter : Option Int64} :
    Asks hub asked paths now luck state why keeping ⟨.ok issued, after, calls⟩ →
    Commits hub asked luck state keeping → luck.watched = .ok () → luck.loaded = .ok notAfter →
    ServerState.parse (hub.later luck) = .ok found → found.tls = state.tls →
    Ran hub asked paths now luck (.ok (.reissue why),
      ⟨(reissued found asked paths keeping issued now notAfter).toJsonString, after⟩, calls)

omit [Format] in
/-- What an edit writes is read back as it is. -/
theorem Untouched.parse_back {found state : ServerState} (untouched : Untouched found state)
    {file : String} (read : ServerState.parse file = .ok found) :
    ServerState.parse state.toJsonString = .ok state := by
  refine ServerState.parse_toJsonString ?_
  rw [untouched.server, untouched.subnet]
  exact ServerState.home_of_parse read

omit [Format] in
theorem conclude_cases {found state : ServerState} {witness : Tls} {asked : ServerRenew}
    {paths : ServerPaths} {now : Int64} {ordered : Ordered} {loaded : Except String (Option Int64)}
    (h : conclude found witness asked paths now ordered loaded = .ok state) :
    found.tls = witness ∧
      (ordered.issued = none ∧ state = apply found asked paths ordered.keeping ∨
        ∃ issued notAfter, ordered.issued = some issued ∧ loaded = .ok notAfter ∧
          state = reissued found asked paths ordered.keeping issued now notAfter) := by
  rw [conclude] at h
  split at h
  · cases h
  next same =>
  refine ⟨Decidable.byContradiction same, ?_⟩
  simp only at h
  split at h
  · next none => exact Or.inl ⟨none, (Except.ok.inj h).symm⟩
  · next issued some =>
    cases loaded with
    | error detail => cases h
    | ok notAfter => exact Or.inr ⟨issued, notAfter, some, rfl, (Except.ok.inj h).symm⟩

omit [Format] in
theorem locked_of_lock {locked : Bool} {file : String} {state : ServerState}
    (h : lock locked file = some state) : locked = true := by
  rw [lock] at h
  split at h
  · assumption
  · cases h

omit [Format] in
/-- The end of a command puts the files back, or commits what it concludes. -/
theorem commit_cases (hub : Hub) (before : Disk) (witness : Tls) (asked : ServerRenew)
    (paths : ServerPaths) (now : Int64) (ordered : Ordered) (luck : Luck) :
    (∃ e, commit hub before witness asked paths now ordered luck =
      (.error e, { hub with disk := before })) ∨
      ∃ found state, ServerState.parse hub.file = .ok found ∧ luck.locked = true ∧
        luck.written = true ∧ conclude found witness asked paths now ordered
          luck.loaded = .ok state ∧
        commit hub before witness asked paths now ordered luck =
          (.ok (), { hub with file := state.toJsonString }) := by
  rw [commit]
  split
  · exact Or.inl ⟨_, rfl⟩
  next found hlock =>
  split
  · exact Or.inl ⟨_, rfl⟩
  next state hstate =>
  split
  · next hwritten =>
    exact Or.inr ⟨found, state, lock_eq_some hlock, locked_of_lock hlock, hwritten, hstate, rfl⟩
  · exact Or.inl ⟨_, rfl⟩

/-- The middle of a command fails, has nothing to order, or brings back a certificate. -/
theorem order_cases (state : ServerState) (plan : Plan) (asked : ServerRenew) (paths : ServerPaths)
    (now : Int64) (disk : Disk) (luck : Luck) :
    (∃ e disk' calls, order state plan asked paths now disk luck = (.error e, disk', calls)) ∨
      (∃ keeping, (∀ why, plan ≠ .reissue why) ∧
        order state plan asked paths now disk luck = (.ok ⟨keeping, none⟩, disk, [])) ∨
      ∃ why keeping issued disk' calls, plan = .reissue why ∧
        order state plan asked paths now disk luck = (.ok ⟨keeping, some issued⟩,
          disk', calls) := by
  rw [order]
  split
  · exact Or.inl ⟨_, _, _, rfl⟩
  next keeping _ =>
  split
  · next why =>
    split
    · exact Or.inl ⟨_, _, _, rfl⟩
    · simp only
      split
      · exact Or.inl ⟨_, _, _, rfl⟩
      · exact Or.inr (Or.inr ⟨why, keeping, _, _, _, rfl, rfl⟩)
  · next other => exact Or.inr (Or.inl ⟨keeping, other, rfl⟩)

theorem run_ran (hub : Hub) (asked : ServerRenew) (paths : ServerPaths)
    (now : Int64) (luck : Luck) :
    Ran hub asked paths now luck (run hub asked paths now luck) := by
  rw [run]
  split
  · exact .idle (by simp)
  next state hread =>
  have read := lock_eq_some hread
  split
  · exact .idle (by simp)
  · exact .idle (by simp)
  next plan due hplan =>
  split
  · exact .idle (by simp)
  · exact .idle (by simp)
  next hissuing =>
  simp only
  split
  · next push =>
    subst push
    split
    · exact .stopped
    split
    · exact .stopped
    next found hfound =>
    split
    · exact .pushed (lock_eq_some hfound)
    · exact .stopped
  · next noPush =>
    rw [order]
    cases hsettled : settle (disposition state.tls asked) luck.kept with
    | error e => exact .stopped
    | ok keeping =>
      have commits : luck.locked = true → luck.written = true →
          Commits hub asked luck state keeping := fun hlocked hwritten =>
        ⟨hread, hissuing, hsettled, hlocked, hwritten⟩
      cases plan with
      | pushRecord => exact absurd rfl noPush
      | notDue dueAt => exact absurd rfl (due dueAt)
      | settings =>
        simp only
        rcases commit_cases ⟨hub.later luck, hub.disk⟩ hub.disk state.tls asked paths now
          ⟨keeping, none⟩ luck with ⟨e, h⟩ | ⟨found, left, hfound, hlocked, hwritten, hleft, h⟩
        · rw [h]
          exact .stopped
        · rw [h]
          obtain ⟨same, ⟨_, rfl⟩ | ⟨_, _, issued, _⟩⟩ := conclude_cases hleft
          · exact .settings read hplan (commits hlocked hwritten) hfound same
          · cases issued
      | reissue why =>
        cases hwatched : luck.watched with
        | error e => exact .stopped
        | ok =>
          simp only
          generalize hattempt : AcmeClient.renew (apply state asked paths keeping) paths hub.disk
            luck.answers = attempt
          have asks : Asks hub asked paths now luck state why keeping attempt :=
            ⟨read, hplan, hattempt⟩
          obtain ⟨result, after, calls⟩ := attempt
          cases result with
          | error e => exact .failed asks
          | ok issued =>
            simp only
            rcases commit_cases ⟨hub.later luck, after⟩ hub.disk state.tls asked paths now
              ⟨keeping, some issued⟩ luck with
              ⟨e, h⟩ | ⟨found, left, hfound, hlocked, hwritten, hleft, h⟩
            · rw [h]
              exact .failed asks
            · rw [h]
              obtain ⟨same, ⟨none, _⟩ | ⟨_, notAfter, some, hloaded, rfl⟩⟩ := conclude_cases hleft
              · cases none
              · cases some
                exact .reissued asks (commits hlocked hwritten) hwatched hloaded hfound same

/-- Something between the CA's answer and the commit of the daemon goes wrong. -/
def Unrecorded (hub : Hub) (luck : Luck) (witness : Tls) : Prop :=
  (∃ detail, luck.loaded = .error detail) ∨
    (∀ found, lock luck.locked (hub.later luck) = some found → found.tls ≠ witness) ∨
    luck.written = false

omit [Format] in
theorem commitOnce_cases (hub : Hub) (witness : Tls) (now : Int64)
    (renewed : Renewed) (luck : Luck) :
    (∃ e, commitOnce hub witness now renewed luck = (.error e, hub)) ∨
      ∃ found, ServerState.parse hub.file = .ok found ∧ found.tls = witness ∧
        commitOnce hub witness now renewed luck =
          (.ok (), { hub with file := (record found renewed now).toJsonString }) := by
  rw [commitOnce]
  split
  · exact Or.inl ⟨_, rfl⟩
  next found hlock =>
  split
  · exact Or.inl ⟨_, rfl⟩
  next same =>
  split
  · exact Or.inr ⟨found, lock_eq_some hlock, Decidable.byContradiction same, rfl⟩
  · exact Or.inl ⟨_, rfl⟩

/-- All one renewal of the daemon can come to. -/
inductive RanOnce (hub : Hub) (paths : ServerPaths) (now : Int64) (luck : Luck) :
    Except RenewalFailure Unit × Hub × List Call → Prop
  | idle {e : RenewalFailure} : luck.issuing ≠ .ok true ∨ lock luck.readable hub.file = none →
    RanOnce hub paths now luck (.error e, hub, [])
  | failed {e : RenewalFailure} {state : ServerState} : luck.issuing = .ok true →
    lock luck.readable hub.file = some state →
    (∃ e, (AcmeClient.renew state paths hub.disk luck.answers).result = .error e) ∨
      Unrecorded hub luck state.tls →
    RanOnce hub paths now luck (.error e,
      ⟨hub.later luck, (AcmeClient.renew state paths hub.disk luck.answers).disk⟩,
      (AcmeClient.renew state paths hub.disk luck.answers).calls)
  | renewed {state found : ServerState} {renewed : Renewed} {after : Disk} {calls : List Call} :
    lock luck.readable hub.file = some state →
    AcmeClient.renew state paths hub.disk luck.answers = ⟨.ok renewed, after, calls⟩ →
    lock luck.locked (hub.later luck) = some found → found.tls = state.tls →
    ¬Unrecorded hub luck state.tls →
    RanOnce hub paths now luck (.ok (), ⟨(record found renewed now).toJsonString, after⟩, calls)

theorem renewOnce_ran (classify : Classify) (hub : Hub) (paths : ServerPaths) (now : Int64)
    (luck : Luck) : RanOnce hub paths now luck (renewOnce classify hub paths now luck) := by
  rw [renewOnce]
  cases hissuing : luck.issuing with
  | error detail => exact .idle (Or.inl (by simp [hissuing]))
  | ok mine =>
    cases mine with
    | false => exact .idle (Or.inl (by simp [hissuing]))
    | true =>
      simp only
      cases hread : lock luck.readable hub.file with
      | none => exact .idle (Or.inr hread)
      | some state =>
        have failed : ∀ e, (∃ e, (AcmeClient.renew state paths hub.disk luck.answers).result =
            .error e) ∨ Unrecorded hub luck state.tls → RanOnce hub paths now luck _ :=
          fun e => RanOnce.failed (e := e) hissuing hread
        simp only [orderOnce]
        generalize hattempt : AcmeClient.renew state paths hub.disk luck.answers = attempt at *
        obtain ⟨result, after, calls⟩ := attempt
        cases result with
        | error e => exact failed _ (Or.inl ⟨e, rfl⟩)
        | ok renewed =>
          simp only
          cases hloaded : luck.loaded with
          | error detail => exact failed _ (Or.inr (Or.inl ⟨detail, hloaded⟩))
          | ok notAfter =>
            simp only [commitOnce]
            cases hfound : lock luck.locked (hub.later luck) with
            | none => exact failed _ (Or.inr (Or.inr (Or.inl (by simp [hfound]))))
            | some found =>
              simp only
              split
              · next other =>
                exact failed _ (Or.inr (Or.inr (Or.inl (by simpa [hfound] using other))))
              · next same =>
                have same : found.tls = state.tls := Decidable.byContradiction same
                cases hwritten : luck.written with
                | false => exact failed _ (Or.inr (Or.inr (Or.inr hwritten)))
                | true =>
                  refine .renewed hread hattempt hfound same ?_
                  rintro (⟨_, h⟩ | h | h)
                  · cases hloaded.symm.trans h
                  · exact h found hfound same
                  · cases hwritten.symm.trans h

/-- A CA that registers `new` and issues for ninety days. -/
def sampleAnswers : Answers :=
  ⟨.ok (), .ok (), .ok (), .ok ("new", "..."), .ok ⟨"certificate", "key", some 7776000, []⟩, "",
    .ok (), .ok ()⟩

/-- A renewal in whose way nothing stands. -/
def sampleLuck : Luck where
  readable := true
  issuing := .ok true
  kept := .error .noTokenForDns01
  pushed := .error .noToken
  watched := .ok ()
  answers := sampleAnswers
  meanwhile := none
  locked := true
  loaded := .ok (some 7776000)
  written := true

end Renew
