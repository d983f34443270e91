import Anago.AcmeAccount
import Anago.Init

/-!
# The hub's renewal loop

Look at the certificate, renew when it is time, back off when that fails. One round of
the loop is a function of what it remembers, the clock, the state file and the outcome
of the renewal.
-/

open StdText AcmeClient Schedule

namespace RenewalLoop

/-- A `Duration` in nanoseconds. -/
abbrev Duration := Nat

def Duration.ofSecs (secs : Nat) : Duration := secs * 1000000000

/-- `as_secs() as i64`. -/
def Duration.toI64 (duration : Duration) : Int64 := Int64.ofNat (duration / 1000000000)

def checkEvery : Duration := .ofSecs (60 * 60)

def retryBase : Duration := .ofSecs (15 * 60)

def retryCap : Duration := .ofSecs (24 * 60 * 60)

def rateLimitedFloor : Duration := .ofSecs (60 * 60)

inductive FailureKind where
  | ordinary
  | rateLimited
  deriving DecidableEq, Repr

/-- The ordinary backoff. -/
def retryDelay (failures : Nat) : Duration :=
  let doublings := min (failures - 1) 16
  min (retryBase * Nat.shiftLeft 1 doublings) retryCap

/-- The part of the wait that belongs to the CA. -/
def caCooldown (kind : FailureKind) (retryAfter : Option Duration) : Duration :=
  let floor := match kind with
    | .ordinary => 0
    | .rateLimited => rateLimitedFloor
  max floor (retryAfter.getD 0)

structure RenewalFailure where
  detail : String
  kind : FailureKind
  retryAfter : Option Duration
  deriving DecidableEq, Repr

namespace RenewalFailure

/-- Something that went wrong on this machine. -/
def localTo (detail : String) : RenewalFailure := ⟨detail, .ordinary, none⟩

def busy : RenewalFailure := localTo "another renewal is already running on this hub"

end RenewalFailure

/-- What a failure was against. -/
structure Attempt where
  directory : Option String
  account : Option String
  issuedAt : Option Int64
  deriving DecidableEq, Repr

def Attempt.of (tls : Tls) : Attempt :=
  match tls.renewable with
  | some acme => ⟨some acme.directory, some acme.accountUrl, some acme.issuedAt⟩
  | none => ⟨none, none, none⟩

inductive Forgotten where
  | nothing
  | certificate
  | scope
  deriving DecidableEq, Repr

/-- A wait the CA asked for, and the directory it was met at. -/
structure Cooldown where
  until_ : Int64
  directory : Option String
  deriving DecidableEq, Repr

/-- What the loop remembers between attempts. -/
structure Renewals where
  failures : Nat
  notBefore : Int64
  against : Option Attempt
  cooldown : Option Cooldown
  deriving DecidableEq, Repr

namespace Renewals

/-- `Renewals::new`; a success also goes back to it. -/
def new : Renewals := ⟨0, 0, none, none⟩

/-- The later of the backoff and anything the CA asked for. -/
def allowedFrom (renewals : Renewals) : Int64 :=
  max renewals.notBefore ((renewals.cooldown.map Cooldown.until_).getD 0)

/-- Records a failure; returns how many seconds the next attempt waits. -/
def failed (renewals : Renewals) (now : Int64) (kind : FailureKind) (retryAfter : Option Duration)
    (against : Option Tls) : Nat × Renewals :=
  let failures := min (renewals.failures + 1) 0xFFFFFFFF
  let against := against.map Attempt.of
  let imposed := caCooldown kind retryAfter
  let cooldown :=
    if imposed = 0 then renewals.cooldown
    else
      let until_ := Saturating.add now imposed.toI64
      match renewals.cooldown with
      | some existing =>
        if existing.until_ ≥ until_ then some existing
        else some ⟨until_, against.bind Attempt.directory⟩
      | none => some ⟨until_, against.bind Attempt.directory⟩
  let next : Renewals := {
    failures := failures
    notBefore := Saturating.add now (retryDelay failures).toI64
    against := against
    cooldown := cooldown }
  ((Saturating.sub next.allowedFrom now).toInt.toNat, next)

/-- Forgets a backoff that belongs to settings the hub no longer has. -/
def settingsChanged (renewals : Renewals) (tls : Tls) : Forgotten × Renewals :=
  let now := Attempt.of tls
  let elsewhere := match renewals.cooldown with
    | none => false
    | some cooldown =>
      match cooldown.directory, now.directory with
      | some refusedAt, some directory => decide (directory ≠ refusedAt)
      | _, _ => false
  let renewals := if elsewhere then { renewals with cooldown := none } else renewals
  match renewals.against with
  | none => (.nothing, renewals)
  | some against =>
    if against.issuedAt ≠ now.issuedAt then (.certificate, new)
    else if against.directory ≠ now.directory ∨ against.account ≠ now.account then
      (.scope, { new with cooldown := renewals.cooldown })
    else (.nothing, renewals)

end Renewals

/-- What the loop should do on this tick. -/
inductive Tick where
  | renew
  | notDue (dueAt : Int64)
  | waiting (until_ : Int64)
  | notOurs
  deriving DecidableEq, Repr

def tick (tls : Tls) (now : Int64) (renewals : Renewals) : Tick :=
  match tls.renewalDue renewalLeadSecs with
  | none => .notOurs
  | some dueAt =>
    if !tls.needsRenewal now renewalLeadSecs then .notDue dueAt
    else if now < renewals.allowedFrom then .waiting renewals.allowedFrom
    else .renew

/-- How long to sleep before looking again. -/
def sleepFor (step : Tick) (now : Int64) : Duration :=
  let capped (until_ : Int64) : Duration :=
    min (.ofSecs (max (Saturating.sub until_ now).toInt 1).toNat) checkEvery
  match step with
  | .renew => 0
  | .notOurs => checkEvery
  | .notDue dueAt => capped dueAt
  | .waiting until_ => capped until_

/-- What the loop carries from round to round. -/
structure Loop where
  renewals : Renewals
  unreadable : Renewals
  deriving DecidableEq, Repr

def Loop.new : Loop := ⟨.new, .new⟩

/-- The first half of a round: reads the state and decides. -/
def look (loop : Loop) (now : Int64) (read : Except String Tls) : Tick × Loop :=
  match read with
  | .ok tls =>
    let (_, renewals) := loop.renewals.settingsChanged tls
    (tick tls now renewals, ⟨renewals, .new⟩)
  | .error _ =>
    let (_, unreadable) := loop.unreadable.failed now .ordinary none none
    (.waiting unreadable.allowedFrom, { loop with unreadable := unreadable })

/-- One round: the tick, what the loop remembers afterwards, and how long it sleeps.
`renewed` is what the renewal comes to when there is one, and `later` the clock then. -/
def round (loop : Loop) (now : Int64) (read : Except String Tls)
    (renewed : Except RenewalFailure Unit) (later : Int64) : Tick × Loop × Duration :=
  let (step, loop) := look loop now read
  if step = .renew then
    match renewed with
    -- no sleep: the certificate is new, and the next look will find it
    | .ok () => (step, { loop with renewals := .new }, 0)
    | .error failure =>
      let (_, renewals) := loop.renewals.failed later failure.kind failure.retryAfter read.toOption
      (step, { loop with renewals := renewals }, sleepFor step now)
  else (step, loop, sleepFor step now)

theorem tick_eq_renew {tls : Tls} {now : Int64} {renewals : Renewals} :
    tick tls now renewals = .renew ↔
      tls.needsRenewal now renewalLeadSecs = true ∧ ¬now < renewals.allowedFrom := by
  rw [tick]
  cases hdue : tls.renewalDue renewalLeadSecs with
  | none => simp [Tls.needsRenewal, hdue]
  | some due =>
    simp only
    by_cases hneeds : tls.needsRenewal now renewalLeadSecs = true
    · rw [hneeds]
      by_cases hwait : now < renewals.allowedFrom
      · simp [hwait]
      · simp [hwait]
    · rw [Bool.not_eq_true] at hneeds
      simp [hneeds]

variable [Unicode]

theorem record_due {state : ServerState} {acme : Acme} (h : state.tls.source = .acme acme)
    (renewed : Renewed) (now leadSecs : Int64) :
    (record state renewed now).tls.needsRenewal now leadSecs =
      decide (renewalDue (renewAfter now renewed.notAfter) renewed.notAfter leadSecs ≤ now) := by
  have source : (record state renewed now).tls.source =
      .acme ({ acme with accountUrl := renewed.accountUrl }.issued now renewed.notAfter) := by
    rw [record, Tls.modifyAcme, h]
  have notAfter : (record state renewed now).tls.notAfter = renewed.notAfter := by
    rw [record, Tls.modifyAcme, h]
  rw [Tls.needsRenewal_acme source, notAfter]
  rfl

omit [Unicode] in
/-- After a success nothing is remembered, so only the clock before 1970 makes it wait. -/
theorem look_fresh (unreadable : Renewals) (now : Int64) (tls : Tls) :
    (look ⟨.new, unreadable⟩ now (.ok tls)).1 = .renew ↔
      tls.needsRenewal now renewalLeadSecs = true ∧ 0 ≤ now := by
  have kept : (Renewals.new.settingsChanged tls).2 = .new := rfl
  have start : Renewals.new.allowedFrom = 0 := rfl
  rw [look]
  simp only
  rw [kept, tick_eq_renew, start, Int64.not_lt]

/-- After a renewal the next look orders nothing exactly when the new certificate has
more than the safety net left (or its expiry could not be read). -/
theorem next_look (state : ServerState) (acme : Acme) (ours : state.tls.source = .acme acme)
    (loop : Loop) (read : Except String Tls) (now later : Int64) (renewed : Renewed)
    (due : (look loop now read).1 = .renew) :
    let after := (round loop now read (.ok ()) later).2.1
    (look after now (.ok (record state renewed now).tls)).1 ≠ .renew ↔
      now < 0 ∨ Outlasts now renewed.notAfter := by
  intro after
  have fresh : after = ⟨.new, (look loop now read).2.unreadable⟩ := by
    show (round loop now read (.ok ()) later).2.1 = _
    rw [round]
    simp only [due, if_true]
  rw [fresh, ne_eq, look_fresh, record_due ours, decide_eq_true_eq, ← Int64.not_lt,
    lt_due_issued, ← Int64.not_lt]
  by_cases hnow : now < 0
  · simp [hnow]
  · simp [hnow]

omit [Unicode] in
theorem next_look_sample :
    letI := asciiTables
    let acme : Acme := ⟨production, some "jo@example.com", "/account.key", "", .http01, 0, 0⟩
    let state := { Init.sampleHub with tls := ⟨"/c.pem", "/k.pem", none, .acme acme⟩ }
    let renewed : Renewed := ⟨"/c.pem", "/k.pem", none, "url", some 10000000, []⟩
    let after := (round .new 1000 (.ok state.tls) (.ok ()) 1000).2.1
    (look after 1000 (.ok (record state renewed 1000).tls)).1 ≠ .renew := by
  let := asciiTables
  intro acme state renewed
  refine (next_look state acme rfl .new (.ok state.tls) 1000 1000 renewed ?_).mpr (Or.inr ?_)
  · decide +kernel
  · decide +kernel

omit [Unicode] in
/-- A certificate of six days is due as soon as it is recorded. -/
theorem next_look_orders_again :
    letI := asciiTables
    ¬∀ (state : ServerState) (acme : Acme) (now : Int64) (renewed : Renewed),
      state.tls.source = .acme acme →
      (∀ notAfter, renewed.notAfter = some notAfter → now < notAfter) →
        (look .new now (.ok (record state renewed now).tls)).1 ≠ .renew := by
  let := asciiTables
  intro claim
  let acme : Acme := ⟨production, some "jo@example.com", "/account.key", "", .http01, 0, 0⟩
  let state := { Init.sampleHub with tls := ⟨"/c.pem", "/k.pem", none, .acme acme⟩ }
  refine claim state acme 1000 ⟨"/c.pem", "/k.pem", none, "url", some 519400, []⟩ rfl ?_ ?_
  · intro notAfter h
    cases h
    decide
  · decide +kernel

end RenewalLoop
