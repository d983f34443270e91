import Anago.Saturating
import Anago.State

/-!
# When a certificate is renewed

The stored decision is two thirds of the lifetime, and the last seven days before the
expiry are a net under it.
-/

namespace Schedule

def daySecs : Int64 := 86400

/-- How long before `notAfter` the safety net fires. -/
def renewalLeadSecs : Int64 := 7 * daySecs

/-- What to assume when the expiry could not be read. -/
def unknownLifetimeRenewSecs : Int64 := 30 * daySecs

/-- When a certificate received at `issuedAt` and expiring at `notAfter` is renewed. -/
def renewAfter (issuedAt : Int64) (notAfter : Option Int64) : Int64 :=
  match notAfter with
  | none => Saturating.add issuedAt unknownLifetimeRenewSecs
  | some notAfter =>
    let lifetime := Saturating.sub notAfter issuedAt
    Saturating.add issuedAt (Saturating.mul lifetime 2 / 3)

/-- The instant the expiry net starts. -/
def safetyNetAt (expiresAt leadSecs : Int64) : Int64 := Saturating.sub expiresAt (max leadSecs 0)

/-- The stored decision, pulled earlier if it falls inside the net. -/
def renewalDue (renewAfter : Int64) (notAfter : Option Int64) (leadSecs : Int64) : Int64 :=
  match notAfter with
  | none => renewAfter
  | some notAfter => min renewAfter (safetyNetAt notAfter leadSecs)

end Schedule

/-- Records a fresh issuance and when to come back. -/
def Acme.issued (acme : Acme) (at' : Int64) (notAfter : Option Int64) : Acme :=
  { acme with issuedAt := at', renewAfter := Schedule.renewAfter at' notAfter }

namespace Tls

/-- The ACME details when the certificate is anago's to renew. -/
def renewable (tls : Tls) : Option Acme :=
  match tls.source with
  | .manual => none
  | .acme acme => some acme

/-- Changes the ACME details, if there are any: what is done through `renewable_mut`. -/
def modifyAcme (tls : Tls) (change : Acme → Acme) : Tls :=
  match tls.source with
  | .manual => tls
  | .acme acme => { tls with source := .acme (change acme) }

def renewalDue (tls : Tls) (leadSecs : Int64) : Option Int64 :=
  tls.renewable.map fun acme => Schedule.renewalDue acme.renewAfter tls.notAfter leadSecs

/-- Whether the certificate is to be renewed now. A manual one never is. -/
def needsRenewal (tls : Tls) (now leadSecs : Int64) : Bool :=
  match tls.renewalDue leadSecs with
  | none => false
  | some due => decide (due ≤ now)

theorem renewable_eq_some {tls : Tls} {acme : Acme} :
    tls.renewable = some acme ↔ tls.source = .acme acme := by
  rw [renewable]
  cases tls.source <;> simp

@[simp] theorem renewable_acme {tls : Tls} {acme : Acme} (h : tls.source = .acme acme) :
    tls.renewable = some acme := by
  rw [renewable, h]

theorem needsRenewal_acme {tls : Tls} {acme : Acme} (h : tls.source = .acme acme)
    (now leadSecs : Int64) :
    tls.needsRenewal now leadSecs =
      decide (Schedule.renewalDue acme.renewAfter tls.notAfter leadSecs ≤ now) := by
  rw [needsRenewal, renewalDue, renewable_acme h]
  rfl

end Tls

namespace Schedule

/-- The certificate outlives the net, or its expiry is not known. -/
def Outlasts (now : Int64) : Option Int64 → Prop
  | none => now.toInt < Saturating.maxI64
  | some notAfter => now.toInt + renewalLeadSecs.toInt < notAfter.toInt

instance (now : Int64) (notAfter : Option Int64) : Decidable (Outlasts now notAfter) :=
  match notAfter with
  | none => inferInstanceAs (Decidable (_ < _))
  | some _ => inferInstanceAs (Decidable (_ < _))

theorem toInt_safetyNetAt (notAfter : Int64) :
    (safetyNetAt notAfter renewalLeadSecs).toInt = Saturating.clamp (notAfter.toInt - 604800) := by
  rw [safetyNetAt, Saturating.toInt_sub]
  rfl

/-- The two-thirds decision comes strictly later when there is lifetime to divide. -/
theorem lt_renewAfter {now notAfter : Int64} (h : now.toInt + 1 < notAfter.toInt) :
    now.toInt < (renewAfter now (some notAfter)).toInt := by
  have hlow := Saturating.range now
  have hhigh := Saturating.range notAfter
  have two : (2 : Int64).toInt = 2 := rfl
  have three : (3 : Int64).toInt = 3 := rfl
  rw [renewAfter, Saturating.toInt_add, Int64.toInt_div_of_ne_right _ 3 (by decide),
    Saturating.toInt_mul, Saturating.toInt_sub, two, three]
  simp only [Saturating.clamp, Saturating.minI64, Saturating.maxI64] at *
  rw [Int.tdiv_eq_ediv_of_nonneg (by omega)]
  omega

/-- A freshly issued certificate is not due exactly when it outlasts the net. -/
theorem lt_due_issued (now : Int64) (notAfter : Option Int64) :
    now < renewalDue (renewAfter now notAfter) notAfter renewalLeadSecs ↔
      Outlasts now notAfter := by
  cases notAfter with
  | none =>
    have hnow := Saturating.range now
    rw [renewalDue, renewAfter, Int64.lt_iff_toInt_lt, Saturating.toInt_add, Outlasts]
    have days : unknownLifetimeRenewSecs.toInt = 2592000 := rfl
    rw [days]
    simp only [Saturating.clamp, Saturating.minI64, Saturating.maxI64] at *
    omega
  | some notAfter =>
    have hnow := Saturating.range now
    have hafter := Saturating.range notAfter
    have week : renewalLeadSecs.toInt = 604800 := rfl
    have net := toInt_safetyNetAt notAfter
    have least : ∀ a b : Int64, now < min a b ↔ now.toInt < a.toInt ∧ now.toInt < b.toInt := by
      intro a b
      have hmin : min a b = if a ≤ b then a else b := rfl
      rw [hmin]
      split
      · next h =>
        rw [Int64.le_iff_toInt_le] at h
        rw [Int64.lt_iff_toInt_lt]
        omega
      · next h =>
        rw [Int64.le_iff_toInt_le] at h
        rw [Int64.lt_iff_toInt_lt]
        omega
    rw [renewalDue, Outlasts, week, least, net]
    simp only [Saturating.clamp, Saturating.minI64, Saturating.maxI64] at *
    constructor
    · omega
    · intro h
      exact ⟨lt_renewAfter (by omega), by omega⟩

end Schedule
