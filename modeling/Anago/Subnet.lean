import Anago.Ipv4Addr

/-!
# The subnet and its address allocation

A `Subnet` is a `/24` held by its network address, whose last octet is 0. The server
has `.1`; a device gets the lowest octet of `2..=254` that is not in use.
-/

open DecimalText

def prefixLen : UInt8 := 24

structure Subnet where
  network : Ipv4Addr
  /-- `parse` refuses an address with host bits. -/
  is_network : network.d = 0
  deriving DecidableEq

inductive SubnetError where
  | missingPrefix
  | badAddress
  | badPrefix
  | unsupportedPrefix (length : UInt8)
  | notNetworkAddress (addr : Ipv4Addr)
  deriving DecidableEq, Repr

namespace SubnetError

def display : SubnetError → String
  | missingPrefix => "subnet needs a prefix length, e.g. 10.100.0.0/24"
  | badAddress => "subnet does not start with an IPv4 address"
  | badPrefix => "prefix length must be a number in 0..=32"
  | unsupportedPrefix length =>
    "anago supports /24 only, got /" ++ String.ofList (showNat length.toNat)
  | notNetworkAddress addr =>
    addr.toString ++ "/24 is not a network address; use " ++
      ({ addr with d := 0 } : Ipv4Addr).toString ++ "/24"

end SubnetError

/-- Lowest free host address in a `/24`. -/
def nextFreeOctet (used : List UInt8) : Option UInt8 :=
  ((List.range' 2 253).map UInt8.ofNat).find? fun o => !used.contains o

namespace Subnet

/-- `text.split_once(c)`. -/
def splitOnce (c : Char) (text : List Char) : Option (List Char × List Char) :=
  match text.dropWhile (· ≠ c) with
  | [] => none
  | _ :: after => some (text.takeWhile (· ≠ c), after)

def parse (text : String) : Except SubnetError Subnet :=
  match splitOnce '/' text.toList with
  | none => .error .missingPrefix
  | some (address, pref) =>
    match Ipv4Addr.parse (String.ofList address) with
    | none => .error .badAddress
    | some network =>
      if pref = [] ∨ ¬pref.all Char.isDigit then .error .badPrefix
      else if pref.length > 1 ∧ pref.head? = some '0' then .error .badPrefix
      else
        match parseU8 pref with
        | none => .error .badPrefix
        | some length =>
          if length > 32 then .error .badPrefix
          else if length ≠ prefixLen then .error (.unsupportedPrefix length)
          else if zero : network.d = 0 then .ok ⟨network, zero⟩
          else .error (.notNetworkAddress network)

def addressOf (subnet : Subnet) (octet : UInt8) : Ipv4Addr := { subnet.network with d := octet }

def serverAddress (subnet : Subnet) : Ipv4Addr := subnet.addressOf 1

def contains (subnet : Subnet) (addr : Ipv4Addr) : Bool :=
  addr.octets.take 3 = subnet.network.octets.take 3

def hostOctet (subnet : Subnet) (addr : Ipv4Addr) : Option UInt8 :=
  if subnet.contains addr then some addr.d else none

/-- The lowest free device address. Used addresses of another network are ignored. -/
def allocate (subnet : Subnet) (used : List Ipv4Addr) : Option Ipv4Addr :=
  (nextFreeOctet (used.filterMap subnet.hostOctet)).map subnet.addressOf

def display (subnet : Subnet) : List Char :=
  subnet.network.display ++ '/' :: showNat prefixLen.toNat

protected def toString (subnet : Subnet) : String := String.ofList subnet.display

@[simp] theorem addressOf_d (subnet : Subnet) (octet : UInt8) :
    (subnet.addressOf octet).d = octet :=
  rfl

@[simp] theorem contains_addressOf (subnet : Subnet) (octet : UInt8) :
    subnet.contains (subnet.addressOf octet) = true := by
  simp [contains, addressOf, Ipv4Addr.octets]

@[simp] theorem hostOctet_addressOf (subnet : Subnet) (octet : UInt8) :
    subnet.hostOctet (subnet.addressOf octet) = some octet := by
  simp [hostOctet]

theorem mem_deviceOctets {o : UInt8} :
    o ∈ (List.range' 2 253).map UInt8.ofNat ↔ 2 ≤ o ∧ o ≤ 254 := by
  rw [List.mem_map, UInt8.le_iff_toNat_le, UInt8.le_iff_toNat_le]
  have low : (2 : UInt8).toNat = 2 := rfl
  have high : (254 : UInt8).toNat = 254 := rfl
  constructor
  · rintro ⟨n, hn, rfl⟩
    have := List.mem_range'_1.mp hn
    rw [UInt8.toNat_ofNat']
    omega
  · rintro ⟨hl, hh⟩
    exact ⟨o.toNat, List.mem_range'_1.mpr (by omega), UInt8.ofNat_toNat⟩

theorem deviceOctets_sorted : ((List.range' 2 253).map UInt8.ofNat).Pairwise (· < ·) := by
  rw [List.pairwise_map]
  refine List.Pairwise.imp_of_mem (fun {m n} hm hn hlt => ?_) List.pairwise_lt_range'
  have := List.mem_range'_1.mp hm
  have := List.mem_range'_1.mp hn
  rw [UInt8.lt_iff_toNat_lt, UInt8.toNat_ofNat', UInt8.toNat_ofNat']
  omega

/-- An octet is handed out only when it is a device octet and free, and then every
lower device octet is in use. -/
theorem nextFreeOctet_eq_some {used : List UInt8} {o : UInt8} (h : nextFreeOctet used = some o) :
    2 ≤ o ∧ o ≤ 254 ∧ o ∉ used ∧ ∀ o' : UInt8, 2 ≤ o' → o' < o → o' ∈ used := by
  have hmem := mem_deviceOctets.mp (List.mem_of_find?_eq_some h)
  obtain ⟨free, before, after, hsplit, hbefore⟩ := List.find?_eq_some_iff_append.mp h
  refine ⟨hmem.1, hmem.2, by simpa using free, fun o' hlow hlt => ?_⟩
  have hin : o' ∈ (List.range' 2 253).map UInt8.ofNat :=
    mem_deviceOctets.mpr ⟨hlow, UInt8.le_trans (UInt8.le_of_lt hlt) hmem.2⟩
  have sorted := deviceOctets_sorted
  rw [hsplit] at hin sorted
  rcases List.mem_append.mp hin with hb | ha
  · simpa using hbefore o' hb
  · rcases List.mem_cons.mp ha with rfl | ha
    · exact absurd hlt (UInt8.lt_irrefl _)
    · have := List.rel_of_pairwise_cons (List.pairwise_append.mp sorted).2.1 ha
      exact absurd (UInt8.lt_trans hlt this) (UInt8.lt_irrefl _)

theorem nextFreeOctet_eq_none {used : List UInt8} :
    nextFreeOctet used = none ↔ ∀ o : UInt8, 2 ≤ o → o ≤ 254 → o ∈ used := by
  rw [nextFreeOctet, List.find?_eq_none]
  constructor
  · intro h o hl hh
    simpa using h o (mem_deviceOctets.mpr ⟨hl, hh⟩)
  · intro h o ho
    have := mem_deviceOctets.mp ho
    simpa using h o this.1 this.2

/-- An allocated address is a device address of the subnet, and was free. -/
theorem allocate_eq_some {subnet : Subnet} {used : List Ipv4Addr} {addr : Ipv4Addr}
    (h : subnet.allocate used = some addr) :
    subnet.contains addr = true ∧ 2 ≤ addr.d ∧ addr.d ≤ 254 ∧ addr ∉ used := by
  rw [allocate, Option.map_eq_some_iff] at h
  obtain ⟨o, ho, rfl⟩ := h
  obtain ⟨hl, hh, hfree, _⟩ := nextFreeOctet_eq_some ho
  refine ⟨contains_addressOf subnet o, hl, hh, fun hm => hfree ?_⟩
  exact List.mem_filterMap.mpr ⟨_, hm, hostOctet_addressOf subnet o⟩

/-- Addresses of one subnet are told apart by their host octet. -/
theorem eq_of_octet {subnet : Subnet} {x y : Ipv4Addr} (hx : subnet.contains x = true)
    (hy : subnet.contains y = true) (hd : x.d = y.d) : x = y := by
  obtain ⟨a, b, c, d⟩ := x
  obtain ⟨a', b', c', d'⟩ := y
  simp only [Subnet.contains, Ipv4Addr.octets, List.take_succ_cons, List.take_zero,
    List.cons.injEq, and_true, decide_eq_true_eq] at hx hy
  obtain ⟨ha, hb, hc⟩ := hx
  obtain ⟨ha', hb', hc'⟩ := hy
  rw [ha, hb, hc, ha', hb', hc', show d = d' from hd]

theorem splitOnce_append {c : Char} {pre post : List Char} (h : c ∉ pre) :
    splitOnce c (pre ++ c :: post) = some (pre, post) := by
  have before : ∀ x ∈ pre, decide (x ≠ c) = true := by
    intro x hx
    exact decide_eq_true fun hxc => h (hxc ▸ hx)
  rw [splitOnce, List.dropWhile_append_of_pos before, List.dropWhile_cons_of_neg (by simp),
    List.takeWhile_append_of_pos before, List.takeWhile_cons_of_neg (by simp), List.append_nil]

@[simp] theorem parse_toString (subnet : Subnet) : parse subnet.toString = .ok subnet := by
  have hslash : '/' ∉ subnet.network.display := by
    intro hm
    rcases Ipv4Addr.display_chars subnet.network '/' hm with h | h <;> revert h <;> decide
  have haddr : Ipv4Addr.parse (String.ofList subnet.network.display) = some subnet.network :=
    Ipv4Addr.parse_toString subnet.network
  have hprefix : parseU8 (showNat prefixLen.toNat) = some prefixLen := parseU8_showNat prefixLen
  rw [parse, Subnet.toString, String.toList_ofList, display, splitOnce_append hslash]
  simp only [haddr, hprefix]
  rw [if_neg (by decide), if_neg (by decide), if_neg (by decide), if_neg (by decide),
    dif_pos subnet.is_network]

end Subnet
