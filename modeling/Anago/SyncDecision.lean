import Anago.SyncHistory

/-!
# A device decides for itself

What the hub says of other devices does not matter, and what a rewrite writes is what the
same answer confirms.
-/

open StdText DecimalText Json Proto WgConf

namespace Sync

variable [Unicode]

/-- Rosters with the same entries for this device. -/
theorem find_of_filter {own : Local} {roster roster' : List Member}
    (h : roster'.filter (fun member => member.name = own.name) =
      roster.filter fun member => member.name = own.name) :
    roster'.find? (fun member => member.name = own.name) =
      roster.find? fun member => member.name = own.name := by
  rw [← List.head?_filter, ← List.head?_filter, h]

/-- A hub that agrees with the device, and lists it, is left alone. -/
theorem decide_of_agrees {own : Local} {known : Reported} {roster : List Member}
    (agrees : Agrees own known) (listed : Listed own roster) :
    Sync.decide own (some known) roster = .unchanged := by
  obtain ⟨subnet, key, endpoint, address⟩ := agrees
  obtain ⟨member, hfind, at_⟩ := listed
  have same : (some known).filter (fun reported => reported.subnet ≠ own.subnet) = none := by
    rw [Option.filter_some, if_neg]
    simpa using subnet
  have nothing : (changesOf own known).any = false := by
    simp [changesOf, Changes.any, key, endpoint, address]
  rw [Sync.decide.eq_def, same, hfind]
  simp [at_, nothing]

/-- The hub's values, written down and read back. -/
theorem localOf_updated {config : DeviceConfig} {own : Local} {known : Reported}
    (h : localOf config = .ok own) : localOf (updated config (some known)) = .ok { own with
      serverPublicKey := known.serverPublicKey
      serverEndpoint := known.serverEndpoint
      serverAddress := known.serverAddress } := by
  rw [localOf] at h
  obtain ⟨name, hname, h⟩ := except_bind_eq_ok h
  obtain ⟨address, haddress, h⟩ := except_bind_eq_ok h
  obtain ⟨subnet, hsubnet, h⟩ := except_bind_eq_ok h
  obtain ⟨serverAddress, _, h⟩ := except_bind_eq_ok h
  cases h
  have sameName := Outcome.mapError_eq_ok hname
  have sameAddress := okOr_eq_ok haddress
  have sameSubnet := Outcome.mapError_eq_ok hsubnet
  simp only [localOf, updated, sameName, sameAddress, sameSubnet, Ipv4Addr.parse_toString, okOr,
    Except.mapError, except_ok_bind]

/-- The decision rests on this device's entries alone; a rewrite is confirmed by the answer that
asked for it; and only a hub that describes itself with the device's subnet, and lists the device
at its address, gets either. -/
theorem decision_settles {config : DeviceConfig} {own : Local} (hown : localOf config = .ok own)
    {response : PeersResponse} {reported : Option Reported} {roster : List Member}
    (_hreported : reportedOf response = .ok reported) (_hroster : rosterOf response = .ok roster) :
    (∀ roster', roster'.filter (fun member => member.name = own.name) =
        roster.filter (fun member => member.name = own.name) →
      Sync.decide own reported roster' = Sync.decide own reported roster) ∧
    (∀ changes, Sync.decide own reported roster = .rewrite changes →
      ∃ own', localOf (updated config reported) = .ok own' ∧
        Sync.decide own' reported roster = .unchanged) ∧
    (∀ verdict, Sync.decide own reported roster = verdict →
      verdict = .unchanged ∨ (∃ changes, verdict = .rewrite changes) →
        ∃ known, reported = some known ∧ known.subnet = own.subnet ∧ Listed own roster ∧
          (verdict = .unchanged → Agrees own known)) := by
  refine ⟨fun roster' h => ?_, fun changes h => ?_, fun verdict h hverdict => ?_⟩
  · rw [Sync.decide.eq_def, Sync.decide.eq_def, find_of_filter h]
  · rcases decide_cases own reported roster with ⟨_, heq⟩ | ⟨_, heq⟩ | ⟨known, rfl,
      subnet, listed, _⟩
    · cases h.symm.trans heq
    · cases h.symm.trans heq
    · refine ⟨_, localOf_updated hown, ?_⟩
      exact decide_of_agrees ⟨subnet, rfl, rfl, rfl⟩ listed
  · subst h
    rcases decide_cases own reported roster with ⟨_, heq⟩ | ⟨_, heq⟩ | ⟨known, rfl,
      subnet, listed, heq⟩
    · rw [heq] at hverdict
      rcases hverdict with h | ⟨_, h⟩ <;> cases h
    · rw [heq] at hverdict
      rcases hverdict with h | ⟨_, h⟩ <;> cases h
    · refine ⟨known, rfl, subnet, listed, fun unchanged => ?_⟩
      obtain ⟨known', hknown, agrees, _⟩ := known_of_unchanged unchanged
      cases hknown
      exact agrees

omit [Unicode] in
theorem decision_settles_sample :
    letI := asciiTables
    ∃ own', localOf (updated sampleConfig (some (sampleReported true))) = .ok own' ∧
      Sync.decide own' (some (sampleReported true)) [⟨sampleOwn.name, ⟨10, 44, 0, 2⟩⟩] =
        .unchanged := by
  have asked : letI := asciiTables
      Sync.decide sampleOwn (some (sampleReported true)) [⟨sampleOwn.name, ⟨10, 44, 0, 2⟩⟩] =
        .rewrite ⟨false, true, false⟩ := by
    decide +kernel
  have hown : letI := asciiTables; localOf sampleConfig = .ok sampleOwn := by decide +kernel
  have reported : letI := asciiTables
      reportedOf (sampleRoster true) = .ok (some (sampleReported true)) := by
    decide +kernel
  have roster : letI := asciiTables
      rosterOf (sampleRoster true) = .ok [⟨sampleOwn.name, ⟨10, 44, 0, 2⟩⟩] := by
    decide +kernel
  let := asciiTables
  exact (decision_settles hown reported roster).2.1 _ asked

end Sync
