import Anago.TlsSchedule

/-!
# The renewal schedule at every time value

Nothing wraps: the stored decision is a clamped expression over the integers, and so is the
net. Their order properties hold up to both ends of the range, for lifetimes that are
negative and for leads that are.
-/

namespace Schedule

open Saturating

/-- Two thirds of a lifetime, with what saturates on the way. -/
def share (lifetime : Int) : Int := (clamp (clamp lifetime * 2)).tdiv 3

/-- The division rounds towards zero. -/
theorem third (n : Int) :
    (0 ≤ n → 3 * n.tdiv 3 ≤ n ∧ n < 3 * n.tdiv 3 + 3) ∧
    (n < 0 → n ≤ 3 * n.tdiv 3 ∧ 3 * n.tdiv 3 < n + 3) := by
  constructor
  · intro nonneg
    rw [Int.tdiv_eq_ediv_of_nonneg nonneg]
    omega
  · intro neg
    have flipped : n.tdiv 3 = -((-n).tdiv 3) := by rw [Int.neg_tdiv, Int.neg_neg]
    rw [flipped, Int.tdiv_eq_ediv_of_nonneg (by omega)]
    omega

theorem share_mono {lifetime longer : Int} (h : lifetime ≤ longer) :
    share lifetime ≤ share longer := by
  have low := third (clamp (clamp lifetime * 2))
  have high := third (clamp (clamp longer * 2))
  simp only [share]
  simp only [clamp, minI64, maxI64] at *
  omega

theorem share_nonneg {lifetime : Int} (h : 0 ≤ lifetime) :
    0 ≤ share lifetime ∧ share lifetime ≤ lifetime := by
  have bounds := third (clamp (clamp lifetime * 2))
  simp only [share]
  simp only [clamp, minI64, maxI64] at *
  omega

theorem share_nonpos {lifetime : Int} (h : lifetime ≤ 0) : share lifetime ≤ 0 := by
  have bounds := third (clamp (clamp lifetime * 2))
  simp only [share]
  simp only [clamp, minI64, maxI64] at *
  omega

/-- The arithmetic of the stored decision is exact up to the clamps. -/
theorem toInt_renewAfter (issuedAt notAfter : Int64) :
    (renewAfter issuedAt (some notAfter)).toInt =
      clamp (issuedAt.toInt + share (notAfter.toInt - issuedAt.toInt)) := by
  have two : (2 : Int64).toInt = 2 := rfl
  have three : (3 : Int64).toInt = 3 := rfl
  rw [renewAfter, toInt_add, Int64.toInt_div_of_ne_right _ 3 (by decide), toInt_mul, toInt_sub,
    two, three, share]

theorem toInt_renewAfter_none (issuedAt : Int64) :
    (renewAfter issuedAt none).toInt = clamp (issuedAt.toInt + 30 * 86400) := by
  rw [renewAfter, toInt_add]
  rfl

/-- A lead that is negative counts as none. -/
theorem toInt_lead (leadSecs : Int64) : (max leadSecs 0).toInt = max leadSecs.toInt 0 := by
  have chosen : max leadSecs 0 = if leadSecs ≤ 0 then 0 else leadSecs := rfl
  have zero : (0 : Int64).toInt = 0 := rfl
  rw [chosen]
  split
  · next h =>
    rw [Int64.le_iff_toInt_le, zero] at h
    omega
  · next h =>
    rw [Int64.le_iff_toInt_le, zero] at h
    omega

theorem toInt_safetyNet (notAfter leadSecs : Int64) :
    (safetyNetAt notAfter leadSecs).toInt = clamp (notAfter.toInt - max leadSecs.toInt 0) := by
  rw [safetyNetAt, toInt_sub, toInt_lead]

theorem renewAfter_mono (issuedAt : Int64) {notAfter later : Int64} (h : notAfter ≤ later) :
    renewAfter issuedAt (some notAfter) ≤ renewAfter issuedAt (some later) := by
  rw [Int64.le_iff_toInt_le] at h ⊢
  have shares :=
    share_mono (show notAfter.toInt - issuedAt.toInt ≤ later.toInt - issuedAt.toInt by omega)
  rw [toInt_renewAfter, toInt_renewAfter]
  simp only [clamp, minI64, maxI64]
  omega

/-- The decision lies between the issuance and the expiry. -/
theorem renewAfter_between {issuedAt notAfter : Int64} (h : issuedAt ≤ notAfter) :
    issuedAt ≤ renewAfter issuedAt (some notAfter) ∧
      renewAfter issuedAt (some notAfter) ≤ notAfter := by
  have issued := range issuedAt
  have expires := range notAfter
  rw [Int64.le_iff_toInt_le] at h
  have part := share_nonneg (show 0 ≤ notAfter.toInt - issuedAt.toInt by omega)
  rw [Int64.le_iff_toInt_le, Int64.le_iff_toInt_le, toInt_renewAfter]
  simp only [clamp, minI64, maxI64] at *
  omega

/-- A certificate that expired before it was issued is to be renewed by its issuance. -/
theorem renewAfter_past {issuedAt notAfter : Int64} (h : notAfter < issuedAt) :
    renewAfter issuedAt (some notAfter) ≤ issuedAt := by
  have issued := range issuedAt
  rw [Int64.lt_iff_toInt_lt] at h
  have part := share_nonpos (show notAfter.toInt - issuedAt.toInt ≤ 0 by omega)
  rw [Int64.le_iff_toInt_le, toInt_renewAfter]
  simp only [clamp, minI64, maxI64] at *
  omega

/-- The earlier of two instants has passed when one of them has. -/
theorem min_le_iff (a b now : Int64) : min a b ≤ now ↔ a ≤ now ∨ b ≤ now := by
  have chosen : min a b = if a ≤ b then a else b := rfl
  rw [chosen]
  split
  · next h =>
    constructor
    · exact Or.inl
    · rintro (h' | h')
      · exact h'
      · exact Int64.le_trans h h'
  · next h =>
    constructor
    · exact Or.inr
    · rintro (h' | h')
      · rw [Int64.le_iff_toInt_le] at *
        omega
      · exact h'

theorem needsRenewal_iff {tls : Tls} {acme : Acme} {notAfter : Int64}
    (ours : tls.renewable = some acme) (known : tls.notAfter = some notAfter)
    (now leadSecs : Int64) :
    tls.needsRenewal now leadSecs = true ↔
      acme.renewAfter ≤ now ∨ notAfter.toInt - max leadSecs.toInt 0 ≤ now.toInt := by
  have instant := range now
  have expires := range notAfter
  rw [Tls.needsRenewal_acme (Tls.renewable_eq_some.mp ours), known, renewalDue,
    decide_eq_true_eq, min_le_iff]
  refine or_congr_right ?_
  rw [Int64.le_iff_toInt_le, toInt_safetyNet]
  simp only [clamp, minI64, maxI64] at *
  omega

/-- The stored decision and the net at every instant: no step of the arithmetic wraps, the
decision grows with the expiry and stays on the right side of it, and what is due stays due. -/
theorem schedule_sane :
    (∀ issuedAt notAfter leadSecs : Int64,
      (renewAfter issuedAt (some notAfter)).toInt =
        clamp (issuedAt.toInt + (clamp (clamp (notAfter.toInt - issuedAt.toInt) * 2)).tdiv 3) ∧
      (renewAfter issuedAt none).toInt = clamp (issuedAt.toInt + 30 * 86400) ∧
      (safetyNetAt notAfter leadSecs).toInt = clamp (notAfter.toInt - max leadSecs.toInt 0)) ∧
    (∀ issuedAt notAfter later : Int64, notAfter ≤ later →
      renewAfter issuedAt (some notAfter) ≤ renewAfter issuedAt (some later)) ∧
    (∀ issuedAt notAfter : Int64, issuedAt ≤ notAfter →
      issuedAt ≤ renewAfter issuedAt (some notAfter) ∧
      renewAfter issuedAt (some notAfter) ≤ notAfter) ∧
    (∀ issuedAt notAfter : Int64, notAfter < issuedAt →
      renewAfter issuedAt (some notAfter) ≤ issuedAt) ∧
    (∀ (tls : Tls) (acme : Acme) (notAfter leadSecs : Int64), tls.source = .acme acme →
      tls.notAfter = some notAfter →
      (∀ now later : Int64, now ≤ later → tls.needsRenewal now leadSecs = true →
        tls.needsRenewal later leadSecs = true) ∧
      (∀ now : Int64, notAfter ≤ now → tls.needsRenewal now leadSecs = true) ∧
      (∀ now : Int64, notAfter.toInt - max leadSecs.toInt 0 ≤ now.toInt →
        tls.needsRenewal now leadSecs = true) ∧
      ∀ now : Int64, now < acme.renewAfter → now.toInt < notAfter.toInt - max leadSecs.toInt 0 →
        tls.needsRenewal now leadSecs = false) ∧
    ∀ (tls : Tls) (now leadSecs : Int64), tls.source = .manual →
    tls.needsRenewal now leadSecs = false := by
  refine ⟨?_, ?_, ?_, ?_, ?_, ?_⟩
  · intro issuedAt notAfter leadSecs
    exact ⟨toInt_renewAfter issuedAt notAfter, toInt_renewAfter_none issuedAt,
      toInt_safetyNet notAfter leadSecs⟩
  · exact fun issuedAt _ _ h => renewAfter_mono issuedAt h
  · exact fun _ _ h => renewAfter_between h
  · exact fun _ _ h => renewAfter_past h
  · intro tls acme notAfter leadSecs source known
    have due := needsRenewal_iff (Tls.renewable_eq_some.mpr source) known
    refine ⟨?_, ?_, ?_, ?_⟩
    · intro now later h
      rw [due, due]
      rintro (planned | net)
      · exact Or.inl (Int64.le_trans planned h)
      · rw [Int64.le_iff_toInt_le] at h
        exact Or.inr (Int.le_trans net h)
    · intro now h
      rw [Int64.le_iff_toInt_le] at h
      exact (due now leadSecs).mpr (Or.inr (by omega))
    · exact fun now h => (due now leadSecs).mpr (Or.inr h)
    · intro now early outside
      rw [← Bool.not_eq_true, due]
      rintro (planned | net)
      · exact Int64.not_le.mpr early planned
      · omega
  · intro tls now leadSecs manual
    rw [Tls.needsRenewal, Tls.renewalDue, Tls.renewable, manual]
    rfl

end Schedule
