import Mathlib.Algebra.Ring.Nat
import Mathlib.Data.List.Induction
import Anago.RenewalLoop

/-!
# The waits of the renewal loop over whole histories

A failure sets two waits. The CA's own stands until the CA or the certificate is another one,
the backoff until the account is, too. A history here is the rounds of the loop in order.
-/

open StdText AcmeClient Schedule

namespace RenewalLoop

/-- A round: when the state was read and what it was, what a renewal would come to, and the
clock after it. -/
structure Entry where
  now : Int64
  read : Except String Tls
  renewed : Except RenewalFailure Unit
  later : Int64

namespace Entry

def tick (entry : Entry) (loop : Loop) : Tick := (look loop entry.now entry.read).1

/-- What the loop carries on with. -/
def next (loop : Loop) (entry : Entry) : Loop :=
  (round loop entry.now entry.read entry.renewed entry.later).2.1

/-- The round tries to renew, and fails. -/
structure Fails (entry : Entry) (loop : Loop) (tls : Tls) (failure : RenewalFailure) : Prop where
  read : entry.read = .ok tls
  tick : entry.tick loop = .renew
  renewed : entry.renewed = .error failure

def Succeeds (entry : Entry) (loop : Loop) : Prop :=
  entry.tick loop = .renew ∧ entry.renewed = .ok ()

/-- The same CA, and nobody got a certificate. -/
def SameCa (tls : Tls) (entry : Entry) : Prop :=
  ∀ tls', entry.read = .ok tls' → (Attempt.of tls').directory = (Attempt.of tls).directory ∧
    (Attempt.of tls').issuedAt = (Attempt.of tls).issuedAt

/-- The same account, too. -/
def SameAttempt (tls : Tls) (entry : Entry) : Prop :=
  ∀ tls', entry.read = .ok tls' → Attempt.of tls' = Attempt.of tls

end Entry

/-- The CA that refused, where it is a CA at all. -/
def Entry.AtCa (tls : Tls) (entry : Entry) : Prop :=
  ∀ tls' directory, entry.read = .ok tls' → (Attempt.of tls').directory = some directory →
    (Attempt.of tls).directory = some directory

def run (loop : Loop) (entries : List Entry) : Loop := entries.foldl Entry.next loop

/-- One for a round that failed. -/
def Entry.failures (entry : Entry) (loop : Loop) : Nat :=
  match entry.tick loop, entry.renewed with
  | .renew, .error _ => 1
  | _, _ => 0

/-- How many rounds failed. -/
def failuresIn : Loop → List Entry → Nat
  | _, [] => 0
  | loop, entry :: entries => entry.failures loop + failuresIn (entry.next loop) entries

/-- No round succeeded. -/
def Unlucky : Loop → List Entry → Prop
  | _, [] => True
  | loop, entry :: entries => ¬entry.Succeeds loop ∧ Unlucky (entry.next loop) entries

/-- The clock does not go back. -/
structure InOrder (entries : List Entry) : Prop where
  within : ∀ entry ∈ entries, entry.now ≤ entry.later
  between : entries.Pairwise fun entry entry' => entry.later ≤ entry'.now

/-- A wait that began at `since` is over, to the nanosecond. -/
def Over (now since : Int64) (wait : Duration) : Prop :=
  since.toInt * 1000000000 + wait ≤ now.toInt * 1000000000

instance (now since : Int64) (wait : Duration) : Decidable (Over now since wait) :=
  inferInstanceAs (Decidable (_ ≤ _))

/-- A wait of whole seconds that ends within the clock's range. -/
def Countable (since : Int64) (wait : Duration) : Prop :=
  ∃ secs : Nat, wait = .ofSecs secs ∧ (secs : Int) ≤ Saturating.maxI64 ∧
    since.toInt + secs ≤ Saturating.maxI64

/-- A wait that is counted in seconds ends when it should. -/
theorem Countable.toInt_add {since : Int64} {wait : Duration} (h : Countable since wait) :
    (Saturating.add since wait.toI64).toInt * 1000000000 = since.toInt * 1000000000 + wait := by
  obtain ⟨secs, rfl, small, fits⟩ := h
  have low := (Saturating.range since).1
  have whole : (Duration.ofSecs secs).toI64.toInt = secs := by
    rw [Duration.toI64, Duration.ofSecs, Nat.mul_div_cancel secs (by decide)]
    rw [Saturating.maxI64] at small
    exact Int64.toInt_ofNat_of_lt (by omega)
  rw [Saturating.toInt_add, whole, Saturating.clamp]
  rw [Saturating.minI64] at low ⊢
  rw [Saturating.maxI64] at fits ⊢
  have exact : max (-0x8000000000000000) (min 0x7FFFFFFFFFFFFFFF (since.toInt + secs)) =
      since.toInt + secs := by omega
  rw [exact, Duration.ofSecs, Int.add_mul]
  rfl

theorem toInt_toI64_le (wait : Duration) : wait.toI64.toInt ≤ (wait / 1000000000 : Nat) := by
  have size : Int64.size = 18446744073709551616 := rfl
  rw [Duration.toI64, Int64.toInt_ofNat', Int.bmod_def, size]
  split <;> omega

/-- However it is counted, a wait is never counted longer than it is. -/
theorem toInt_add_le {now since : Int64} {wait : Duration} (h : Over now since wait) :
    (Saturating.add since wait.toI64).toInt ≤ now.toInt := by
  have counted := toInt_toI64_le wait
  have low := (Saturating.range now).1
  rw [Over] at h
  rw [Saturating.toInt_add, Saturating.clamp]
  omega

namespace Renewals

/-- The CA's wait, where another CA does not lift it. -/
def standing (renewals : Renewals) (tls : Tls) : Option Cooldown :=
  match renewals.cooldown with
  | none => none
  | some cooldown =>
    match cooldown.directory, (Attempt.of tls).directory with
    | some refusedAt, some directory => if directory = refusedAt then some cooldown else none
    | _, _ => some cooldown

/-- What `settings_changed` leaves. -/
inductive Settled (renewals : Renewals) (tls : Tls) : Renewals → Prop
  | arrived {against : Attempt} : renewals.against = some against →
    against.issuedAt ≠ (Attempt.of tls).issuedAt → Settled renewals tls .new
  | moved {against : Attempt} : renewals.against = some against →
    against.directory ≠ (Attempt.of tls).directory ∨ against.account ≠ (Attempt.of tls).account →
    Settled renewals tls { new with cooldown := renewals.standing tls }
  | same : renewals.against = some (Attempt.of tls) →
    Settled renewals tls { renewals with cooldown := renewals.standing tls }
  | free : renewals.against = none →
    Settled renewals tls { renewals with cooldown := renewals.standing tls }

/-- The CA's wait is looked at first, and on its own. -/
theorem settingsChanged_eq (renewals : Renewals) (tls : Tls) :
    renewals.settingsChanged tls =
      match renewals.against with
      | none => (.nothing, { renewals with cooldown := renewals.standing tls })
      | some against =>
        if against.issuedAt ≠ (Attempt.of tls).issuedAt then (.certificate, new)
        else if against.directory ≠ (Attempt.of tls).directory ∨
            against.account ≠ (Attempt.of tls).account then
          (.scope, { new with cooldown := renewals.standing tls })
        else (.nothing, { renewals with cooldown := renewals.standing tls }) := by
  obtain ⟨failures, notBefore, against, cooldown⟩ := renewals
  cases cooldown with
  | none => rfl
  | some cooldown =>
    obtain ⟨until_, directory⟩ := cooldown
    cases directory with
    | none => rfl
    | some refusedAt =>
      rw [settingsChanged, standing]
      cases (Attempt.of tls).directory with
      | none => rfl
      | some directory =>
        by_cases same : directory = refusedAt
        · cases against <;> simp [same]
        · cases against <;> simp [same]

theorem settingsChanged_settled (renewals : Renewals) (tls : Tls) :
    Settled renewals tls (renewals.settingsChanged tls).2 := by
  rw [settingsChanged_eq]
  split
  · next free => exact .free free
  next against hagainst =>
  split
  · next arrived => exact .arrived hagainst arrived
  next sameDate =>
  split
  · next moved => exact .moved hagainst moved
  next sameScope =>
  have same : against = Attempt.of tls := by
    obtain ⟨directory, account, issuedAt⟩ := against
    simp only [not_not, not_or] at sameDate sameScope
    simp only [sameDate, sameScope]
  exact .same (hagainst.trans (congrArg some same))

end Renewals

/-- What a round leaves of the schedule. -/
inductive Entry.Leaves (entry : Entry) (loop : Loop) : Renewals → Prop
  | unread {detail : String} : entry.read = .error detail → entry.tick loop ≠ .renew →
    entry.Leaves loop loop.renewals
  | quiet {tls : Tls} : entry.read = .ok tls → entry.tick loop ≠ .renew →
    entry.Leaves loop (loop.renewals.settingsChanged tls).2
  | succeeded {tls : Tls} : entry.read = .ok tls → entry.Succeeds loop → entry.Leaves loop .new
  | failed {tls : Tls} {failure : RenewalFailure} : entry.Fails loop tls failure →
    entry.Leaves loop ((loop.renewals.settingsChanged tls).2.failed entry.later failure.kind
      failure.retryAfter (some tls)).2

theorem Entry.next_leaves (entry : Entry) (loop : Loop) :
    entry.Leaves loop (entry.next loop).renewals := by
  obtain ⟨now, read, renewed, later⟩ := entry
  cases read with
  | error detail => exact .unread rfl nofun
  | ok tls =>
    let settled := (loop.renewals.settingsChanged tls).2
    by_cases due : RenewalLoop.tick tls now settled = .renew
    · cases renewed with
      | ok done =>
        have left : (next loop ⟨now, .ok tls, .ok done, later⟩).renewals = .new := by
          simp only [next, round, look, settled] at due ⊢
          simp only [due, if_true]
        rw [left]
        exact .succeeded rfl ⟨due, rfl⟩
      | error failure =>
        have left : (next loop ⟨now, .ok tls, .error failure, later⟩).renewals =
            (settled.failed later failure.kind failure.retryAfter (some tls)).2 := by
          simp only [next, round, look, settled] at due ⊢
          simp only [due, if_true, Except.toOption]
        rw [left]
        exact .failed ⟨rfl, due, rfl⟩
    · have left : (next loop ⟨now, .ok tls, renewed, later⟩).renewals = settled := by
        simp only [next, round, look, settled] at due ⊢
        simp only [due, if_false]
      rw [left]
      exact .quiet rfl due

/-- An attempt is made only when nothing stands in its way any more. -/
theorem Entry.allowed {entry : Entry} {loop : Loop} {tls : Tls} (read : entry.read = .ok tls)
    (renews : entry.tick loop = .renew) :
    (loop.renewals.settingsChanged tls).2.allowedFrom ≤ entry.now := by
  rw [Entry.tick, read, look] at renews
  exact Int64.not_lt.mp (tick_eq_renew.mp renews).2

theorem InOrder.tail {entry : Entry} {entries : List Entry} (h : InOrder (entry :: entries)) :
    InOrder entries where
  within := fun other mem => h.within other (List.mem_cons_of_mem entry mem)
  between := (List.pairwise_cons.mp h.between).2

theorem InOrder.drop {before entries : List Entry} (h : InOrder (before ++ entries)) :
    InOrder entries where
  within := fun entry mem => h.within entry (List.mem_append_right before mem)
  between := (List.pairwise_append.mp h.between).2.1

theorem InOrder.le_last {entry last : Entry} {entries : List Entry}
    (h : InOrder (entry :: (entries ++ [last]))) : entry.later ≤ last.now :=
  (List.pairwise_cons.mp h.between).1 last (by simp)

/-- What stands until `limit` as long as the looks are alike keeps every round from an attempt. -/
theorem held {limit : Int} (Holds : Renewals → Prop) (Alike : Entry → Prop) {last : Entry}
    (keeps : ∀ renewals entry tls, Alike entry → entry.read = .ok tls → Holds renewals →
      Holds (renewals.settingsChanged tls).2)
    (waits : ∀ renewals, Holds renewals → limit ≤ renewals.allowedFrom.toInt) :
    ∀ (entries : List Entry) (loop : Loop), InOrder (entries ++ [last]) →
      (∀ entry ∈ entries ++ [last], Alike entry) → Holds loop.renewals →
        last.tick (run loop entries) = .renew → limit ≤ last.now.toInt := by
  have stops : ∀ entry loop, Alike entry → Holds loop.renewals → entry.tick loop = .renew →
      limit ≤ entry.now.toInt := by
    intro entry loop alike holds renews
    cases hread : entry.read with
    | error detail =>
      rw [Entry.tick, hread] at renews
      cases renews
    | ok tls =>
      have limited := waits _ (keeps loop.renewals entry tls alike hread holds)
      exact Int.le_trans limited (Int64.le_iff_toInt_le.mp (Entry.allowed hread renews))
  intro entries
  induction entries with
  | nil =>
    exact fun loop _ alike holds renews => stops last loop (alike last (by simp)) holds renews
  | cons entry entries ih =>
    intro loop inOrder alike holds renews
    have alikeNow := alike entry (by simp)
    by_cases tries : entry.tick loop = .renew
    · have limited := stops entry loop alikeNow holds tries
      have within := Int64.le_iff_toInt_le.mp (inOrder.within entry (by simp))
      have before := Int64.le_iff_toInt_le.mp inOrder.le_last
      omega
    · refine ih (entry.next loop) inOrder.tail
        (fun other mem => alike other (by simp_all)) ?_ renews
      have leaves := entry.next_leaves loop
      generalize (entry.next loop).renewals = left at leaves
      cases leaves with
      | unread => exact holds
      | quiet read => exact keeps loop.renewals entry _ alikeNow read holds
      | succeeded _ succeeds => exact absurd succeeds.1 tries
      | failed fails => exact absurd fails.tick tries

namespace Renewals

/-- Everything that is waited for was met at one CA. -/
structure MetAt (renewals : Renewals) (directory : String) : Prop where
  cooldown : ∀ cooldown, renewals.cooldown = some cooldown → cooldown.directory = some directory
  against : ∀ against, renewals.against = some against → against.directory = some directory
  free : renewals.against = none → renewals.notBefore = 0

theorem new_metAt (directory : String) : new.MetAt directory := ⟨nofun, nofun, fun _ => rfl⟩

theorem standing_eq_some {renewals : Renewals} {tls : Tls} {cooldown : Cooldown}
    (h : renewals.standing tls = some cooldown) :
    renewals.cooldown = some cooldown ∧ ∀ refusedAt directory, cooldown.directory = some refusedAt →
      (Attempt.of tls).directory = some directory → directory = refusedAt := by
  rw [standing] at h
  split at h
  · cases h
  next known hknown =>
  split at h
  · next refusedAt directory hrefused hdirectory =>
    split at h
    · next same =>
      cases h
      refine ⟨hknown, fun refusedAt' directory' hrefused' hdirectory' => ?_⟩
      cases hrefused.symm.trans hrefused'
      cases hdirectory.symm.trans hdirectory'
      exact same
    · cases h
  · next other =>
    cases h
    exact ⟨hknown, fun refusedAt directory hrefused hdirectory =>
      absurd hdirectory (other refusedAt directory hrefused)⟩

theorem MetAt.settled {renewals : Renewals} {directory : String}
    (h : renewals.MetAt directory) (tls : Tls) :
    (renewals.settingsChanged tls).2.MetAt directory := by
  have standing : ∀ cooldown, renewals.standing tls = some cooldown →
      cooldown.directory = some directory := fun cooldown hcooldown =>
    h.cooldown cooldown (standing_eq_some hcooldown).1
  have settled := renewals.settingsChanged_settled tls
  generalize (renewals.settingsChanged tls).2 = left at settled
  cases settled with
  | arrived => exact new_metAt directory
  | moved => exact ⟨standing, nofun, fun _ => rfl⟩
  | same => exact ⟨standing, h.against, h.free⟩
  | free => exact ⟨standing, h.against, h.free⟩

/-- At another CA nothing is waited for. -/
theorem MetAt.elsewhere {renewals : Renewals} {directory directory' : String}
    (h : renewals.MetAt directory) {tls : Tls} (here : (Attempt.of tls).directory = some directory')
    (differs : directory' ≠ directory) : (renewals.settingsChanged tls).2.cooldown = none ∧
      (renewals.settingsChanged tls).2.notBefore = 0 := by
  have lifted : renewals.standing tls = none := by
    cases hstanding : renewals.standing tls with
    | none => rfl
    | some cooldown =>
      obtain ⟨hcooldown, same⟩ := standing_eq_some hstanding
      exact absurd (same directory directory' (h.cooldown cooldown hcooldown) here) differs
  have settled := renewals.settingsChanged_settled tls
  generalize (renewals.settingsChanged tls).2 = left at settled
  cases settled with
  | arrived => exact ⟨rfl, rfl⟩
  | moved => exact ⟨lifted, rfl⟩
  | same against =>
    cases here.symm.trans (h.against _ against)
    exact absurd rfl differs
  | free free => exact ⟨lifted, h.free free⟩

/-- What is waited for after a failure was met where it failed. -/
theorem MetAt.failed {renewals : Renewals} {directory directory' : String}
    (h : renewals.MetAt directory) {tls : Tls} (here : (Attempt.of tls).directory = some directory')
    (now : Int64) (kind : FailureKind) (retryAfter : Option Duration) :
    ((renewals.settingsChanged tls).2.failed now kind retryAfter
      (some tls)).2.MetAt directory' := by
  have cooldown : ∀ cooldown, (renewals.settingsChanged tls).2.cooldown = some cooldown →
      cooldown.directory = some directory' := by
    intro cooldown hcooldown
    by_cases same : directory' = directory
    · subst same
      exact (h.settled tls).cooldown cooldown hcooldown
    · cases (h.elsewhere here same).1.symm.trans hcooldown
  refine ⟨fun after hafter => ?_, ?_, nofun⟩
  · rw [Renewals.failed] at hafter
    simp only [Option.map_some, Option.bind_some] at hafter
    split at hafter
    · exact cooldown after hafter
    split at hafter
    · next existing hexisting =>
      split at hafter
      · cases hafter
        exact cooldown _ hexisting
      · cases hafter
        exact here
    · cases hafter
      exact here
  · rintro _ ⟨⟩
    exact here

end Renewals

/-- A CA is tried only where there is one. -/
theorem Entry.Fails.directory {entry : Entry} {loop : Loop} {tls : Tls} {failure : RenewalFailure}
    (h : entry.Fails loop tls failure) : ∃ directory, (Attempt.of tls).directory =
      some directory := by
  have renews := h.tick
  rw [Entry.tick, h.read, look] at renews
  have due := (tick_eq_renew.mp renews).1
  cases htls : tls.renewable with
  | none =>
    rw [Tls.needsRenewal, Tls.renewalDue, htls] at due
    cases due
  | some acme => exact ⟨acme.directory, by rw [Attempt.of, htls]⟩

theorem Entry.Fails.metAt {entry : Entry} {loop : Loop} {tls : Tls} {failure : RenewalFailure}
    {directory directory' : String} (h : entry.Fails loop tls failure)
    (met : loop.renewals.MetAt directory) (here : (Attempt.of tls).directory = some directory') :
    (entry.next loop).renewals.MetAt directory' := by
  have leaves := entry.next_leaves loop
  generalize (entry.next loop).renewals = left at leaves
  cases leaves with
  | unread unread => cases unread.symm.trans h.read
  | quiet _ idle => exact absurd h.tick idle
  | succeeded _ succeeds => cases succeeds.2.symm.trans h.renewed
  | failed fails =>
    cases fails.read.symm.trans h.read
    exact met.failed here _ _ _

theorem metAt_next {entry : Entry} {loop : Loop} {directory : String}
    (h : loop.renewals.MetAt directory) :
    ∃ directory', (entry.next loop).renewals.MetAt directory' := by
  have leaves := entry.next_leaves loop
  generalize hleft : (entry.next loop).renewals = left at leaves
  cases leaves with
  | unread => exact ⟨directory, h⟩
  | quiet => exact ⟨directory, h.settled _⟩
  | succeeded => exact ⟨directory, Renewals.new_metAt directory⟩
  | failed fails =>
    obtain ⟨directory', here⟩ := fails.directory
    exact ⟨directory', h.failed here _ _ _⟩

theorem metAt_run (entries : List Entry) :
    ∃ directory, (run .new entries).renewals.MetAt directory := by
  induction entries using List.reverseRecOn with
  | nil => exact ⟨"", Renewals.new_metAt ""⟩
  | append_singleton entries entry ih =>
    obtain ⟨directory, met⟩ := ih
    rw [run, List.foldl_append]
    exact metAt_next met

/-- What a failing round leaves. -/
theorem Entry.Fails.next {entry : Entry} {loop : Loop} {tls : Tls} {failure : RenewalFailure}
    (h : entry.Fails loop tls failure) :
    (entry.next loop).renewals =
    ((loop.renewals.settingsChanged tls).2.failed entry.later failure.kind
      failure.retryAfter (some tls)).2 := by
  have leaves := entry.next_leaves loop
  generalize (entry.next loop).renewals = left at leaves
  cases leaves with
  | unread unread => cases unread.symm.trans h.read
  | quiet _ idle => exact absurd h.tick idle
  | succeeded _ succeeds => cases succeeds.2.symm.trans h.renewed
  | failed fails =>
    cases fails.read.symm.trans h.read
    cases fails.renewed.symm.trans h.renewed
    rfl

theorem run_snoc (loop : Loop) (entries : List Entry) (entry : Entry) :
    run loop (entries ++ [entry]) = entry.next (run loop entries) := by
  rw [run, List.foldl_append]
  rfl

theorem run_split (loop : Loop) (before after : List Entry) (entry : Entry) :
    run loop (before ++ entry :: after) = run (entry.next (run loop before)) after := by
  rw [run, List.foldl_append]
  rfl

namespace Renewals

/-- A wait of the CA for a certificate that is still the one it refused to renew. -/
structure Refused (renewals : Renewals) (tls : Tls) (limit : Int) : Prop where
  cooldown : ∃ until_, renewals.cooldown = some ⟨until_, (Attempt.of tls).directory⟩ ∧
    limit ≤ until_.toInt
  against : ∀ against, renewals.against = some against →
    against.issuedAt = (Attempt.of tls).issuedAt

theorem Refused.settled {renewals : Renewals} {tls tls' : Tls} {limit : Int}
    (h : renewals.Refused tls limit)
    (directory : (Attempt.of tls').directory = (Attempt.of tls).directory)
    (issuedAt : (Attempt.of tls').issuedAt = (Attempt.of tls).issuedAt) :
    (renewals.settingsChanged tls').2.Refused tls limit := by
  obtain ⟨until_, hcooldown, hlimit⟩ := h.cooldown
  have standing : renewals.standing tls' = some ⟨until_, (Attempt.of tls).directory⟩ := by
    rw [Renewals.standing, hcooldown, directory]
    cases (Attempt.of tls).directory with
    | none => rfl
    | some directory => simp
  have settled := renewals.settingsChanged_settled tls'
  generalize (renewals.settingsChanged tls').2 = left at settled
  cases settled with
  | arrived against differs => exact absurd ((h.against _ against).trans issuedAt.symm) differs
  | moved => exact ⟨⟨until_, standing, hlimit⟩, nofun⟩
  | same => exact ⟨⟨until_, standing, hlimit⟩, h.against⟩
  | free => exact ⟨⟨until_, standing, hlimit⟩, h.against⟩

theorem toInt_allowedFrom (renewals : Renewals) :
    renewals.allowedFrom.toInt =
      max renewals.notBefore.toInt ((renewals.cooldown.map Cooldown.until_).getD 0).toInt := by
  have order : ∀ a b : Int64, (max a b).toInt = max a.toInt b.toInt := by
    intro a b
    show (if a ≤ b then b else a).toInt = _
    split
    · next le =>
      have le := Int64.le_iff_toInt_le.mp le
      omega
    · next lt =>
      have lt := Int64.lt_iff_toInt_lt.mp (Int64.not_le.mp lt)
      omega
  exact order _ _

theorem Refused.allowedFrom {renewals : Renewals} {tls : Tls} {limit : Int}
    (h : renewals.Refused tls limit) : limit ≤ renewals.allowedFrom.toInt := by
  obtain ⟨until_, hcooldown, hlimit⟩ := h.cooldown
  rw [toInt_allowedFrom, hcooldown, Option.map_some, Option.getD_some]
  exact Int.le_trans hlimit (Int.le_max_right _ _)

end Renewals

theorem Entry.Fails.refused {entry : Entry} {before : List Entry} {tls : Tls}
    {failure : RenewalFailure} (h : entry.Fails (run .new before) tls failure)
    (imposed : caCooldown failure.kind failure.retryAfter ≠ 0) :
    (entry.next (run .new before)).renewals.Refused tls
      (Saturating.add entry.later (caCooldown failure.kind failure.retryAfter).toI64).toInt := by
  obtain ⟨directory, met⟩ := metAt_run before
  obtain ⟨here, hhere⟩ := h.directory
  have met' := h.metAt met hhere
  rw [h.next] at met' ⊢
  refine ⟨?_, ?_⟩
  · generalize hleft : (Renewals.failed _ _ _ _ _).2 = left at met' ⊢
    have longest : ∃ cooldown, left.cooldown = some cooldown ∧
        Saturating.add entry.later (caCooldown failure.kind failure.retryAfter).toI64 ≤
          cooldown.until_ := by
      rw [← hleft, Renewals.failed]
      simp only [if_neg imposed]
      split
      · next existing _ =>
        split
        · next longer => exact ⟨existing, rfl, longer⟩
        · exact ⟨_, rfl, Int64.le_refl _⟩
      · exact ⟨_, rfl, Int64.le_refl _⟩
    obtain ⟨⟨until_, directory⟩, hcooldown, longest⟩ := longest
    cases (met'.cooldown _ hcooldown).trans hhere.symm
    exact ⟨until_, hcooldown, Int64.le_iff_toInt_le.mp longest⟩
  · rintro _ ⟨⟩
    rfl

/-- The CA's wait is kept. -/
theorem ca_wait_kept {before after : List Entry} {entry last : Entry} {tls : Tls}
    {failure : RenewalFailure} (inOrder : InOrder (before ++ entry :: after ++ [last]))
    (fails : entry.Fails (run .new before) tls failure)
    (alike : ∀ entry' ∈ after ++ [last], entry'.SameCa tls)
    (countable : Countable entry.later (caCooldown failure.kind failure.retryAfter))
    (renews : last.tick (run .new (before ++ entry :: after)) = .renew) :
    Over last.now entry.later (caCooldown failure.kind failure.retryAfter) := by
  rw [List.append_assoc] at inOrder
  have inOrder := inOrder.drop
  by_cases imposed : caCooldown failure.kind failure.retryAfter = 0
  · have later := Int64.le_iff_toInt_le.mp inOrder.le_last
    rw [Over, imposed]
    omega
  · have limited := held (fun renewals => renewals.Refused tls _) (fun entry => entry.SameCa tls)
      (fun renewals entry' tls' same read refused =>
        refused.settled (same tls' read).1 (same tls' read).2)
      (fun renewals refused => refused.allowedFrom) after
        (entry.next (run .new before)) inOrder.tail alike
      (fails.refused imposed) (by rwa [← run_split])
    have ends := countable.toInt_add
    rw [Over]
    omega

namespace Renewals

/-- A backoff that was earned against what would be tried again. -/
structure BackedOff (renewals : Renewals) (tls : Tls) (limit : Int) : Prop where
  against : renewals.against = some (Attempt.of tls)
  notBefore : limit ≤ renewals.notBefore.toInt

end Renewals

/-- The doublings that are left out would pass the cap. -/
theorem retryDelay_eq (failures : Nat) :
    retryDelay failures = min (retryBase * 2 ^ (failures - 1)) retryCap := by
  rw [retryDelay]
  simp only [Nat.shiftLeft_eq', Nat.one_shiftLeft]
  by_cases few : failures - 1 ≤ 16
  · rw [Nat.min_eq_left few]
  · have many : 2 ^ 16 ≤ 2 ^ (failures - 1) := Nat.pow_le_pow_right (by decide) (by omega)
    have capped : retryCap ≤ retryBase * 2 ^ 16 := by decide
    have beyond : retryBase * 2 ^ 16 ≤ retryBase * 2 ^ (failures - 1) := Nat.mul_le_mul_left _ many
    have few : min (failures - 1) 16 = 16 := by omega
    have left : min (retryBase * 2 ^ 16) retryCap = retryCap := Nat.min_eq_right capped
    have right : min (retryBase * 2 ^ (failures - 1)) retryCap = retryCap :=
      Nat.min_eq_right (Nat.le_trans capped beyond)
    rw [few, left, right]

theorem retryDelay_mono {failures failures' : Nat} (h : failures ≤ failures') :
    retryDelay failures ≤ retryDelay failures' := by
  have powers : 2 ^ (failures - 1) ≤ 2 ^ (failures' - 1) :=
    Nat.pow_le_pow_right (by decide) (by omega)
  have grows := Nat.mul_le_mul_left retryBase powers
  rw [retryDelay_eq, retryDelay_eq]
  exact Nat.le_min.mpr ⟨Nat.le_trans (Nat.min_le_left _ _) grows, Nat.min_le_right _ _⟩

theorem retryDelay_le (failures : Nat) : retryDelay failures ≤ retryCap := Nat.min_le_right _ _

/-- Counting further than `u32` goes makes no difference. -/
theorem retryDelay_saturated {failures counted : Nat} (h : min failures 0xFFFFFFFF ≤ counted) :
    retryDelay failures ≤ retryDelay counted := by
  by_cases fits : failures ≤ 0xFFFFFFFF
  · exact retryDelay_mono (by omega)
  · have most : retryCap ≤ retryDelay 0xFFFFFFFF := by decide
    have counts := retryDelay_mono (show 0xFFFFFFFF ≤ counted by omega)
    exact Nat.le_trans (retryDelay_le failures) (Nat.le_trans most counts)

/-- A backoff is counted in seconds, and longer ones end later. -/
theorem toInt_add_le_of_le (since : Int64) {wait wait' : Nat} (h : wait ≤ wait')
    (capped : wait' ≤ 86400000000000) :
    (Saturating.add since (Duration.toI64 wait)).toInt ≤
    (Saturating.add since (Duration.toI64 wait')).toInt := by
  have whole : ∀ wait : Nat, wait ≤ 86400000000000 →
      (Duration.toI64 wait).toInt = (wait / 1000000000 : Nat) := fun wait capped =>
    Int64.toInt_ofNat_of_lt (by omega)
  have longer := Nat.div_le_div_right (c := 1000000000) h
  rw [Saturating.toInt_add, Saturating.toInt_add, whole wait (by omega), whole wait' capped,
    Saturating.clamp, Saturating.clamp]
  omega

/-- Looks that are alike touch nothing but the CA's wait. -/
theorem Renewals.settled_alike {renewals : Renewals} {tls tls' : Tls}
    (hagainst : renewals.against = some (Attempt.of tls))
    (alike : Attempt.of tls' = Attempt.of tls) :
    (renewals.settingsChanged tls').2 = { renewals with cooldown := renewals.standing tls' } := by
  have settled := renewals.settingsChanged_settled tls'
  generalize (renewals.settingsChanged tls').2 = left at settled
  cases settled with
  | arrived against differs =>
    cases hagainst.symm.trans against
    exact absurd (congrArg Attempt.issuedAt alike.symm) differs
  | moved against differs =>
    cases hagainst.symm.trans against
    rw [alike] at differs
    simp at differs
  | same => rfl
  | free => rfl

/-- How many failures a schedule knows of that are against the same. -/
def Counted (tls : Tls) (failures : Nat) (renewals : Renewals) : Prop :=
  failures = 0 ∨
    (renewals.against = some (Attempt.of tls) ∧ min failures 0xFFFFFFFF ≤ renewals.failures)

/-- Looks that are alike leave the count alone. -/
theorem Counted.settled {tls tls' : Tls} {failures : Nat} {renewals : Renewals}
    (h : Counted tls failures renewals) (alike : Attempt.of tls' = Attempt.of tls) :
    Counted tls failures (renewals.settingsChanged tls').2 := by
  rcases h with rfl | ⟨hagainst, count⟩
  · exact Or.inl rfl
  · rw [Renewals.settled_alike hagainst alike]
    exact Or.inr ⟨hagainst, count⟩

/-- One more failure is one more counted. -/
theorem Entry.Fails.counted {entry : Entry} {loop : Loop} {tls tls' : Tls}
    {failure : RenewalFailure} {failures : Nat} (fails : entry.Fails loop tls' failure)
    (alike : Attempt.of tls' = Attempt.of tls) (h : Counted tls failures loop.renewals) :
    (entry.next loop).renewals.against = some (Attempt.of tls) ∧
      min (failures + 1) 0xFFFFFFFF ≤ (entry.next loop).renewals.failures := by
  rw [fails.next]
  refine ⟨congrArg some alike, ?_⟩
  rw [Renewals.failed]
  simp only
  rcases h.settled alike with rfl | ⟨_, count⟩
  · omega
  · omega

theorem Entry.failures_eq_zero {entry : Entry} {loop : Loop} (idle : entry.tick loop ≠ .renew) :
    entry.failures loop = 0 := by
  rw [Entry.failures]
  split
  · next renews _ => exact absurd renews idle
  · rfl

theorem Entry.Fails.failures {entry : Entry} {loop : Loop} {tls : Tls} {failure : RenewalFailure}
    (h : entry.Fails loop tls failure) : entry.failures loop = 1 := by
  rw [Entry.failures, h.tick, h.renewed]

theorem Counted.next {entry : Entry} {loop : Loop} {tls : Tls} {failures : Nat}
    (h : Counted tls failures loop.renewals) (alike : entry.SameAttempt tls)
    (unlucky : ¬entry.Succeeds loop) :
    Counted tls (failures + entry.failures loop) (entry.next loop).renewals := by
  have leaves := entry.next_leaves loop
  generalize hleft : (entry.next loop).renewals = left at leaves
  cases leaves with
  | unread _ idle =>
    rw [Entry.failures_eq_zero idle]
    exact h
  | quiet read idle =>
    rw [Entry.failures_eq_zero idle]
    exact h.settled (alike _ read)
  | succeeded _ succeeds => exact absurd succeeds unlucky
  | failed fails =>
    rw [fails.failures]
    have counted := fails.counted (alike _ fails.read) h
    rw [hleft] at counted
    exact Or.inr counted

theorem Counted.run {tls : Tls} : ∀ (entries : List Entry) (loop : Loop) (failures : Nat),
    Counted tls failures loop.renewals → (∀ entry ∈ entries, entry.SameAttempt tls) →
      Unlucky loop entries →
        Counted tls (failures + failuresIn loop entries)
          (RenewalLoop.run loop entries).renewals := by
  intro entries
  induction entries with
  | nil => exact fun loop failures h _ _ => h
  | cons entry entries ih =>
    intro loop failures h alike unlucky
    have next := h.next (alike entry (by simp)) unlucky.1
    have rest := ih (entry.next loop) _ next
      (fun other mem => alike other (by simp [mem])) unlucky.2
    rw [Nat.add_assoc] at rest
    exact rest

theorem Renewals.BackedOff.settled {renewals : Renewals} {tls tls' : Tls} {limit : Int}
    (h : renewals.BackedOff tls limit) (alike : Attempt.of tls' = Attempt.of tls) :
    (renewals.settingsChanged tls').2.BackedOff tls limit := by
  rw [Renewals.settled_alike h.against alike]
  exact ⟨h.against, h.notBefore⟩

theorem Renewals.BackedOff.allowedFrom {renewals : Renewals} {tls : Tls} {limit : Int}
    (h : renewals.BackedOff tls limit) : limit ≤ renewals.allowedFrom.toInt := by
  rw [Renewals.toInt_allowedFrom]
  exact Int.le_trans h.notBefore (Int.le_max_left _ _)

/-- The backoff is kept. -/
theorem backoff_kept {before between after : List Entry} {entry last : Entry} {tls : Tls}
    {failure : RenewalFailure}
    (inOrder : InOrder (before ++ between ++ entry :: after ++ [last]))
    (fails : entry.Fails (run .new (before ++ between)) tls failure)
    (unlucky : Unlucky (run .new before) between)
    (alike : ∀ entry' ∈ between ++ entry :: after ++ [last], entry'.SameAttempt tls)
    (countable : Countable entry.later (retryDelay (failuresIn (run .new before) between + 1)))
    (renews : last.tick (run .new (before ++ between ++ entry :: after)) = .renew) :
    Over last.now entry.later (retryDelay (failuresIn (run .new before) between + 1)) := by
  have split : run .new (before ++ between) = run (run .new before) between := by
    rw [run, List.foldl_append]
    rfl
  have counted : Counted tls (failuresIn (run .new before) between)
      (run .new (before ++ between)).renewals := by
    have counted := Counted.run between (run .new before) 0 (Or.inl rfl)
      (fun entry' mem => alike entry' (by simp [mem])) unlucky
    rw [Nat.zero_add, ← split] at counted
    exact counted
  obtain ⟨against, count⟩ := fails.counted rfl counted
  have stands : (entry.next (run .new (before ++ between))).renewals.BackedOff tls
      (Saturating.add entry.later
        (retryDelay (failuresIn (run .new before) between + 1)).toI64).toInt := by
    refine ⟨against, ?_⟩
    have longer := retryDelay_saturated count
    rw [fails.next] at longer ⊢
    exact toInt_add_le_of_le entry.later longer (retryDelay_le _)
  rw [List.append_assoc] at inOrder
  have limited := held (fun renewals => renewals.BackedOff tls _)
    (fun entry => entry.SameAttempt tls)
    (fun renewals entry' tls' same read stands => stands.settled (same tls' read))
    (fun renewals stands => stands.allowedFrom) after (entry.next (run .new (before ++ between)))
    inOrder.drop.tail (fun entry' mem => alike entry' (by simp_all)) stands (by rwa [← run_split])
  have ends := countable.toInt_add
  rw [Over]
  omega

/-- A failure in a history. -/
structure FailedAt (entries before : List Entry) (entry : Entry) (after : List Entry) (tls : Tls)
    (failure : RenewalFailure) : Prop where
  split : entries = before ++ entry :: after
  fails : entry.Fails (run .new before) tls failure

theorem FailedAt.snoc {entries before after : List Entry} {entry : Entry} {tls : Tls}
    {failure : RenewalFailure}
    (h : FailedAt entries before entry after tls failure) (last : Entry) :
    FailedAt (entries ++ [last]) before entry (after ++ [last]) tls failure where
  split := by rw [h.split, List.append_assoc, List.cons_append]
  fails := h.fails

/-- Where the waits of a schedule come from: a failure since which, up to `more`, nothing happened
that lifts them. -/
structure Traced (entries more : List Entry) (renewals : Renewals) : Prop where
  backoff : renewals.notBefore = 0 ∨ ∃ before entry after tls failure,
    FailedAt entries before entry after tls failure ∧ renewals.against = some (Attempt.of tls) ∧
      (∀ entry' ∈ after ++ more, entry'.SameAttempt tls) ∧
      renewals.notBefore =
        Saturating.add entry.later
          (retryDelay (entry.next (run .new before)).renewals.failures).toI64
  cooldown : renewals.cooldown = none ∨ ∃ before entry after tls failure,
    FailedAt entries before entry after tls failure ∧
      (∀ entry' ∈ after ++ more, entry'.AtCa tls) ∧
      renewals.cooldown = some ⟨Saturating.add entry.later
        (caCooldown failure.kind failure.retryAfter).toI64, (Attempt.of tls).directory⟩

namespace Traced

variable {entries : List Entry} {renewals : Renewals}

theorem new (entries more : List Entry) : Traced entries more .new := ⟨Or.inl rfl, Or.inl rfl⟩

theorem forall_snoc {P : Entry → Prop} {after : List Entry} {last : Entry}
    (h : ∀ entry ∈ after ++ [], P entry) (now : P last) : ∀ entry ∈ after ++ [last], P entry := by
  rw [List.append_nil] at h
  exact List.forall_mem_append.mpr ⟨h, List.forall_mem_singleton.mpr now⟩

/-- Nothing is learnt from a state that cannot be read. -/
theorem unread {last : Entry} {detail : String} (h : Traced entries [] renewals)
    (read : last.read = .error detail) : Traced entries [last] renewals := by
  refine ⟨h.backoff.imp_right ?_, h.cooldown.imp_right ?_⟩
  · rintro ⟨before, entry, after, tls, failure, failed, against, alike, notBefore⟩
    refine ⟨before, entry, after, tls, failure, failed, against, forall_snoc alike ?_, notBefore⟩
    intro tls' read'
    cases read.symm.trans read'
  · rintro ⟨before, entry, after, tls, failure, failed, alike, cooldown⟩
    refine ⟨before, entry, after, tls, failure, failed, forall_snoc alike ?_, cooldown⟩
    intro tls' directory read'
    cases read.symm.trans read'

/-- A wait of the CA that still stands was met where the hub still is. -/
theorem standing {last : Entry} {tls : Tls} (h : Traced entries [] renewals)
    (read : last.read = .ok tls) :
    renewals.standing tls = none ∨ ∃ before entry after tls' failure,
      FailedAt entries before entry after tls' failure ∧
        (∀ entry' ∈ after ++ [last], entry'.AtCa tls') ∧
        renewals.standing tls = some ⟨Saturating.add entry.later
          (caCooldown failure.kind failure.retryAfter).toI64, (Attempt.of tls').directory⟩ := by
  cases hstanding : renewals.standing tls with
  | none => exact Or.inl rfl
  | some cooldown =>
    obtain ⟨known, same⟩ := Renewals.standing_eq_some hstanding
    rcases h.cooldown with free | ⟨before, entry, after, tls', failure, failed, alike, hcooldown⟩
    · cases free.symm.trans known
    cases hcooldown.symm.trans known
    refine Or.inr ⟨before, entry, after, tls', failure, failed, forall_snoc alike ?_, rfl⟩
    intro tls'' directory read' here
    cases read.symm.trans read'
    obtain ⟨refusedAt, hrefused⟩ := failed.fails.directory
    rw [same refusedAt directory hrefused here]
    exact hrefused

theorem settled {last : Entry} {tls : Tls} (h : Traced entries [] renewals)
    (read : last.read = .ok tls) :
    Traced entries [last] (renewals.settingsChanged tls).2 := by
  have standing := h.standing read
  have settled := renewals.settingsChanged_settled tls
  generalize (renewals.settingsChanged tls).2 = left at settled
  cases settled with
  | arrived => exact .new entries [last]
  | moved => exact ⟨Or.inl rfl, standing⟩
  | same here =>
    refine ⟨h.backoff.imp_right ?_, standing⟩
    rintro ⟨before, entry, after, tls', failure, failed, against, alike, notBefore⟩
    refine ⟨before, entry, after, tls', failure, failed, against, forall_snoc alike ?_, notBefore⟩
    intro tls'' read'
    cases read.symm.trans read'
    exact Option.some.inj (here.symm.trans against)
  | free free =>
    refine ⟨h.backoff.imp_right ?_, standing⟩
    rintro ⟨before, entry, after, tls', failure, failed, against, _⟩
    cases free.symm.trans against

theorem advance {last : Entry} (h : Traced entries [last] renewals) :
    Traced (entries ++ [last]) [] renewals := by
  refine ⟨h.backoff.imp_right ?_, h.cooldown.imp_right ?_⟩
  · rintro ⟨before, entry, after, tls, failure, failed, against, alike, notBefore⟩
    exact ⟨before, entry, after ++ [last], tls, failure, failed.snoc last,
      against, by simpa using alike, notBefore⟩
  · rintro ⟨before, entry, after, tls, failure, failed, alike, cooldown⟩
    exact ⟨before, entry, after ++ [last], tls, failure,
      failed.snoc last, by simpa using alike, cooldown⟩

theorem failed {last : Entry} {tls : Tls} {failure : RenewalFailure}
    (h : Traced entries [] (run .new entries).renewals)
    (fails : last.Fails (run .new entries) tls failure) :
    Traced (entries ++ [last]) [] (last.next (run .new entries)).renewals := by
  have here : FailedAt (entries ++ [last]) entries last [] tls failure := ⟨rfl, fails⟩
  have before := (h.settled fails.read).advance
  refine ⟨Or.inr ⟨entries, last, [], tls, failure, here, ?_, nofun, ?_⟩, ?_⟩
  · rw [fails.next]
    rfl
  · rw [fails.next]
    rfl
  · rw [fails.next, Renewals.failed]
    simp only
    split
    · exact before.cooldown
    split
    · next existing hexisting =>
      split
      · rw [← hexisting]
        exact before.cooldown
      · exact Or.inr ⟨entries, last, [], tls, failure, here, nofun, rfl⟩
    · exact Or.inr ⟨entries, last, [], tls, failure, here, nofun, rfl⟩

/-- Every wait of a run is that of a failure in it. -/
theorem run (entries : List Entry) : Traced entries [] (run .new entries).renewals := by
  induction entries using List.reverseRecOn with
  | nil => exact .new [] []
  | append_singleton entries last ih =>
    rw [run_snoc]
    have leaves := last.next_leaves (RenewalLoop.run .new entries)
    generalize hleft : (last.next (RenewalLoop.run .new entries)).renewals = left at leaves
    cases leaves with
    | unread read => exact (ih.unread read).advance
    | quiet read => exact (ih.settled read).advance
    | succeeded => exact .new _ []
    | failed fails =>
      rw [← fails.next]
      exact ih.failed fails

end Traced

theorem metAt_unfailing {directory : String} : ∀ (entries : List Entry) (loop : Loop),
    loop.renewals.MetAt directory → failuresIn loop entries = 0 →
      (run loop entries).renewals.MetAt directory := by
  intro entries
  induction entries with
  | nil => exact fun loop met _ => met
  | cons entry entries ih =>
    intro loop met quiet
    rw [failuresIn] at quiet
    refine ih (entry.next loop) ?_ (by omega)
    have leaves := entry.next_leaves loop
    generalize (entry.next loop).renewals = left at leaves
    cases leaves with
    | unread => exact met
    | quiet => exact met.settled _
    | succeeded => exact Renewals.new_metAt directory
    | failed fails =>
      rw [fails.failures] at quiet
      omega

/-- A certificate that is due is renewed once nothing is waited for. -/
theorem Entry.renews {entry : Entry} {loop : Loop} {tls : Tls} (read : entry.read = .ok tls)
    (due : tls.needsRenewal entry.now renewalLeadSecs = true) (epoch : 0 ≤ entry.now)
    (backoff : (loop.renewals.settingsChanged tls).2.notBefore.toInt ≤ entry.now.toInt)
    (cooldown : ∀ cooldown, (loop.renewals.settingsChanged tls).2.cooldown = some cooldown →
      cooldown.until_.toInt ≤ entry.now.toInt) : entry.tick loop = .renew := by
  rw [Entry.tick, read, look]
  refine tick_eq_renew.mpr ⟨due, ?_⟩
  rw [Int64.not_lt, Int64.le_iff_toInt_le, Renewals.toInt_allowedFrom]
  refine Int.max_le.mpr ⟨backoff, ?_⟩
  cases hcooldown : (loop.renewals.settingsChanged tls).2.cooldown with
  | none => exact Int64.le_iff_toInt_le.mp epoch
  | some known => exact cooldown known hcooldown

/-- The waits that were not lifted are all there is to wait for. -/
theorem renews_after_waits {entries : List Entry} {last : Entry} {tls : Tls}
    (read : last.read = .ok tls) (due : tls.needsRenewal last.now renewalLeadSecs = true)
    (epoch : 0 ≤ last.now) (waits : ∀ before entry after tls' failure,
      FailedAt entries before entry after tls' failure →
      ((∀ entry' ∈ after ++ [last], entry'.SameAttempt tls') → Over last.now entry.later
        (retryDelay (entry.next (run .new before)).renewals.failures)) ∧
      ((∀ entry' ∈ after ++ [last], entry'.AtCa tls') → Over last.now entry.later
        (caCooldown failure.kind failure.retryAfter))) :
    last.tick (run .new entries) = .renew := by
  have traced := (Traced.run entries).settled read
  refine Entry.renews read due epoch ?_ ?_
  · rcases traced.backoff with none | ⟨before, entry, after, tls', failure, failed,
      _, alike, notBefore⟩
    · rw [none]
      exact Int64.le_iff_toInt_le.mp epoch
    · rw [notBefore]
      exact toInt_add_le ((waits before entry after tls' failure failed).1 alike)
  · intro cooldown hcooldown
    rcases traced.cooldown with none | ⟨before, entry, after, tls', failure, failed, alike, known⟩
    · cases none.symm.trans hcooldown
    · cases known.symm.trans hcooldown
      exact toInt_add_le ((waits before entry after tls' failure failed).2 alike)

/-- Another CA knows nothing of the last failure, nor of those before it. -/
theorem renews_elsewhere {entries before after : List Entry} {entry last : Entry} {tls tls' : Tls}
    {failure : RenewalFailure} {directory : String}
    (failed : FailedAt entries before entry after tls' failure)
    (quiet : failuresIn (run .new (before ++ [entry])) after = 0) (read : last.read = .ok tls)
    (due : tls.needsRenewal last.now renewalLeadSecs = true) (epoch : 0 ≤ last.now)
    (here : (Attempt.of tls).directory = some directory)
    (differs : (Attempt.of tls').directory ≠ some directory) :
    last.tick (run .new entries) = .renew := by
  obtain ⟨directory', there⟩ := failed.fails.directory
  obtain ⟨_, met⟩ := metAt_run before
  rw [run_snoc] at quiet
  have met' := metAt_unfailing after (entry.next (run .new before))
    (failed.fails.metAt met there) quiet
  rw [← run_split, ← failed.split] at met'
  rw [there] at differs
  obtain ⟨cooldown, notBefore⟩ :=
    met'.elsewhere here (fun same => differs (congrArg some same.symm))
  refine Entry.renews read due epoch ?_ ?_
  · rw [notBefore]
    exact Int64.le_iff_toInt_le.mp epoch
  · intro known hknown
    cases cooldown.symm.trans hknown

/-- The longest multiple fits, and so does the factor. -/
theorem retryDelay_fits (failures : Nat) :
    Nat.shiftLeft 1 (min (failures - 1) 16) < 2 ^ 32 ∧
      retryBase * Nat.shiftLeft 1 (min (failures - 1) 16) ≤ .ofSecs (2 ^ 64 - 1) ∧
      retryDelay failures ≤ retryCap := by
  have factor : Nat.shiftLeft 1 (min (failures - 1) 16) ≤ 2 ^ 16 := by
    rw [Nat.shiftLeft_eq', Nat.one_shiftLeft]
    exact Nat.pow_le_pow_right (by decide) (by omega)
  refine ⟨by omega, ?_, retryDelay_le failures⟩
  exact Nat.le_trans (Nat.mul_le_mul_left retryBase factor) (by decide)

/-- The loop keeps to its waits over every history, as far as the clock can count them, and to
nothing else. -/
theorem waits_kept {entries : List Entry} {last : Entry} (inOrder : InOrder (entries ++ [last])) :
    (∀ before entry after tls failure, FailedAt entries before entry after tls failure →
      (∀ entry' ∈ after ++ [last], entry'.SameCa tls) →
      Countable entry.later (caCooldown failure.kind failure.retryAfter) →
      last.tick (run .new entries) = .renew →
        Over last.now entry.later (caCooldown failure.kind failure.retryAfter)) ∧
    (∀ before between entry after tls failure,
      FailedAt entries (before ++ between) entry after tls failure →
      Unlucky (run .new before) between →
      (∀ entry' ∈ between ++ entry :: after ++ [last], entry'.SameAttempt tls) →
      let failures := failuresIn (run .new before) between + 1
      let wait := min (.ofSecs (15 * 60) * 2 ^ (failures - 1)) (.ofSecs (24 * 60 * 60))
      Countable entry.later wait → last.tick (run .new entries) = .renew →
        Over last.now entry.later wait) ∧
    (∀ tls, last.read = .ok tls → tls.needsRenewal last.now renewalLeadSecs = true → 0 ≤ last.now →
      ((∀ before entry after tls' failure, FailedAt entries before entry after tls' failure →
          ((∀ entry' ∈ after ++ [last], entry'.SameAttempt tls') → Over last.now entry.later
            (retryDelay (entry.next (run .new before)).renewals.failures)) ∧
          ((∀ entry' ∈ after ++ [last], entry'.AtCa tls') → Over last.now entry.later
            (caCooldown failure.kind failure.retryAfter))) →
        last.tick (run .new entries) = .renew) ∧
      (∀ before entry after tls' failure directory,
        FailedAt entries before entry after tls' failure →
        failuresIn (run .new (before ++ [entry])) after = 0 →
        (Attempt.of tls).directory = some directory → (Attempt.of tls').directory ≠ some directory →
          last.tick (run .new entries) = .renew)) ∧
    (∀ failures failures', failures ≤ failures' → retryDelay failures ≤ retryDelay failures') ∧
    ∀ failures, Nat.shiftLeft 1 (min (failures - 1) 16) < 2 ^ 32 ∧
      retryBase * Nat.shiftLeft 1 (min (failures - 1) 16) ≤ .ofSecs (2 ^ 64 - 1) ∧
      retryDelay failures ≤ retryCap := by
  refine ⟨?_, ?_, ?_, fun _ _ => retryDelay_mono, retryDelay_fits⟩
  · intro before entry after tls failure failed alike countable renews
    rw [failed.split] at inOrder renews
    exact ca_wait_kept inOrder failed.fails alike countable renews
  · intro before between entry after tls failure failed unlucky alike failures wait countable renews
    have doubled : wait = retryDelay failures := (retryDelay_eq failures).symm
    rw [failed.split] at inOrder renews
    rw [doubled] at countable ⊢
    exact backoff_kept inOrder failed.fails unlucky alike countable renews
  · intro tls read due epoch
    refine ⟨renews_after_waits read due epoch, ?_⟩
    intro before entry after tls' failure directory failed quiet here differs
    exact renews_elsewhere failed quiet read due epoch here differs

/-- A hub whose certificate has been due since the epoch. -/
def sampleDue : Tls :=
  ⟨"/acme/c.pem", "/acme/k.pem", none, .acme ⟨production, none, "/acme/account.json",
    "u", .http01, 0, 0⟩⟩

/-- It fails at the thousandth second, and the CA names a wait. -/
def sampleFailure (retryAfter : Duration) : Entry :=
  ⟨1000, .ok sampleDue, .error ⟨"", .ordinary, some retryAfter⟩, 1000⟩

def sampleLook (now : Int64) : Entry := ⟨now, .ok sampleDue, .ok (), now⟩

theorem sample_inOrder (retryAfter : Duration) {now : Int64} (h : 1000 ≤ now) :
    InOrder ([sampleFailure retryAfter] ++ [sampleLook now]) where
  within := by
    intro entry mem
    simp only [List.cons_append, List.nil_append, List.mem_cons, List.not_mem_nil, or_false] at mem
    rcases mem with rfl | rfl
    · exact Int64.le_refl _
    · exact Int64.le_refl _
  between := by
    refine List.pairwise_cons.mpr ⟨fun entry mem => ?_, List.pairwise_singleton _ _⟩
    cases List.mem_singleton.mp mem
    exact h

theorem sample_failedAt (retryAfter : Duration) :
    FailedAt [sampleFailure retryAfter] [] (sampleFailure retryAfter) [] sampleDue
      ⟨"", .ordinary, some retryAfter⟩ where
  split := rfl
  fails := by
    have due : (look .new 1000 (.ok sampleDue)).1 = .renew := by decide +kernel
    exact ⟨rfl, due, rfl⟩

theorem sample_sameCa (now : Int64) : ∀ entry ∈ [] ++ [sampleLook now], entry.SameCa sampleDue := by
  intro entry mem tls read
  cases List.mem_singleton.mp mem
  cases read
  exact ⟨rfl, rfl⟩

/-- Told to come back in an hour, the loop is still waiting after fifty minutes. -/
theorem waits_kept_sample :
    (sampleLook 4000).tick (run .new [sampleFailure (.ofSecs 3600)]) ≠ .renew := by
  intro renews
  have exceeds := (waits_kept (sample_inOrder (.ofSecs 3600) (by decide))).1 _ _ _ _ _
    (sample_failedAt (.ofSecs 3600)) (sample_sameCa 4000)
      ⟨3600, by decide, by decide, by decide⟩ renews
  exact absurd exceeds (by decide)

/-- Told to come back in an hour and half a second, it comes back in an hour. -/
theorem fraction_dropped :
    ¬∀ (entries before after : List Entry) (entry last : Entry) (tls : Tls)
      (failure : RenewalFailure), InOrder (entries ++ [last]) →
        FailedAt entries before entry after tls failure →
        (∀ entry' ∈ after ++ [last], entry'.SameCa tls) → last.tick (run .new entries) = .renew →
          Over last.now entry.later (caCooldown failure.kind failure.retryAfter) := by
  intro claim
  have exceeds := claim [sampleFailure 3600500000000] [] []
    (sampleFailure 3600500000000) (sampleLook 4600)
    sampleDue ⟨"", .ordinary, some 3600500000000⟩ (sample_inOrder 3600500000000 (by decide))
    (sample_failedAt 3600500000000) (sample_sameCa 4600) (by decide +kernel)
  exact absurd exceeds (by decide)

end RenewalLoop
