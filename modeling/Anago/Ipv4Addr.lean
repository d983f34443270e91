import Mathlib.Data.List.Basic
import Anago.DecimalText

/-!
# IPv4 addresses

The four octets, `Display`, and `FromStr`: exactly four decimal groups of at most
three digits, none with a leading zero.
-/

open DecimalText

structure Ipv4Addr where
  a : UInt8
  b : UInt8
  c : UInt8
  d : UInt8
  deriving DecidableEq, Repr

namespace Ipv4Addr

def octets (addr : Ipv4Addr) : List UInt8 := [addr.a, addr.b, addr.c, addr.d]

def display (addr : Ipv4Addr) : List Char :=
  showNat addr.a.toNat ++ '.' :: (showNat addr.b.toNat ++ '.' ::
    (showNat addr.c.toNat ++ '.' :: showNat addr.d.toNat))

protected def toString (addr : Ipv4Addr) : String := String.ofList addr.display

/-- One group: `read_number(10, Some(3), false)` for a `u8`. -/
def parseOctet (ds : List Char) : Option UInt8 :=
  if ds.length ≤ 3 ∧ (ds.head? = some '0' → ds.length ≤ 1) then
    (parseDigits ds).bind fitU8
  else none

/-- `text.parse::<Ipv4Addr>()`, with the error dropped. -/
def parse (text : String) : Option Ipv4Addr :=
  match text.toList.splitOn '.' with
  | [a, b, c, d] => do
    let a ← parseOctet a
    let b ← parseOctet b
    let c ← parseOctet c
    let d ← parseOctet d
    some ⟨a, b, c, d⟩
  | _ => none

theorem not_mem_showNat (n : Nat) {c : Char} (hc : c.isDigit = false) : c ∉ showNat n := by
  intro hm
  have := List.all_eq_true.mp (all_isDigit_showNat n) c hm
  rw [hc] at this
  cases this

theorem length_showNat_octet (n : UInt8) : (showNat n.toNat).length ≤ 3 := by
  have bound : ∀ k < 256, (showNat k).length ≤ 3 := by decide +kernel
  exact bound n.toNat n.toNat_lt

theorem parseOctet_showNat (n : UInt8) : parseOctet (showNat n.toNat) = some n := by
  have hn : n.toNat < 256 := n.toNat_lt
  have lead : (showNat n.toNat).head? = some '0' → (showNat n.toNat).length ≤ 1 := by
    intro hz
    rw [showNat_leading_zero hz]
    decide
  rw [parseOctet, if_pos ⟨length_showNat_octet n, lead⟩, parseDigits_showNat, Option.bind_some,
    fitU8, if_pos hn, UInt8.ofNat_toNat]

theorem splitOn_display (addr : Ipv4Addr) :
    addr.display.splitOn '.' = [showNat addr.a.toNat, showNat addr.b.toNat,
      showNat addr.c.toNat, showNat addr.d.toNat] := by
  have digits : ∀ n : Nat, ∀ c ∈ showNat n, (c == '.') = false := by
    intro n c hc
    rw [beq_eq_false_iff_ne]
    rintro rfl
    exact not_mem_showNat n (by decide) hc
  rw [display, List.splitOn_eq_splitOnP,
    List.splitOnP_append_cons_of_forall_mem (digits _) '.' (by decide),
    List.splitOnP_append_cons_of_forall_mem (digits _) '.' (by decide),
    List.splitOnP_append_cons_of_forall_mem (digits _) '.' (by decide),
    List.splitOnP_eq_singleton (digits _)]

@[simp] theorem parse_toString (addr : Ipv4Addr) : parse addr.toString = some addr := by
  rw [parse, Ipv4Addr.toString, String.toList_ofList, splitOn_display]
  simp only [parseOctet_showNat]
  rfl

/-- What an address is written with. -/
theorem display_chars (addr : Ipv4Addr) :
    ∀ c ∈ addr.display, c.isDigit = true ∨ c = '.' := by
  have digits : ∀ n : Nat, ∀ c ∈ showNat n, c.isDigit = true :=
    fun n => List.all_eq_true.mp (all_isDigit_showNat n)
  intro c hc
  simp only [display, List.mem_append, List.mem_cons] at hc
  rcases hc with hc | rfl | hc | rfl | hc | rfl | hc
  · exact Or.inl (digits _ c hc)
  · exact Or.inr rfl
  · exact Or.inl (digits _ c hc)
  · exact Or.inr rfl
  · exact Or.inl (digits _ c hc)
  · exact Or.inr rfl
  · exact Or.inl (digits _ c hc)

/-- Different addresses are written differently. -/
theorem display_injective : Function.Injective display := by
  intro x y h
  have hs : x.toString = y.toString := by rw [Ipv4Addr.toString, h, Ipv4Addr.toString]
  have hp := parse_toString x
  rw [hs, parse_toString] at hp
  exact (Option.some.inj hp).symm

end Ipv4Addr
