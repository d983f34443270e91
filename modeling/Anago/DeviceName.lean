import Anago.StdText

/-!
# Device names

A name is trimmed and lower-cased, and then checked; a `DeviceName` is what passed. The
stored form is canonical, so names are compared as they are.
-/

open StdText DecimalText

inductive NameError where
  | empty
  | tooLong (length : Nat)
  | badChar (c : Char)
  | badEdge (c : Char)
  | reserved
  | taken
  deriving DecidableEq, Repr

namespace DeviceName

def maxLen : Nat := 32

def reserved : List String := ["server"]

variable [Unicode]

def isAllowed (c : Char) : Bool := Unicode.isAlphanumeric c || c = '-' || c = '_'

/-- What `parse` checks of the lower-cased name. The two `expect`s for the ends of the
name hold because the name is not empty. -/
def check (name : List Char) (nonempty : name ≠ []) : Except NameError Unit :=
  let len := name.length
  if len > maxLen then .error (.tooLong len)
  else
    match name.find? fun c => !isAllowed c with
    | some c => .error (.badChar c)
    | none =>
      let first := name.head nonempty
      let last := name.getLast nonempty
      if !Unicode.isAlphanumeric first then .error (.badEdge first)
      else if !Unicode.isAlphanumeric last then .error (.badEdge last)
      else if reserved.contains (String.ofList name) then .error .reserved
      else .ok ()

end DeviceName

structure DeviceName [Unicode] where
  text : String
  lower : Unicode.toLowercase text.toList = text.toList
  nonempty : text.toList ≠ []
  checked : DeviceName.check text.toList nonempty = .ok ()
  deriving DecidableEq

namespace DeviceName

variable [Unicode]

def parse (input : String) : Except NameError DeviceName :=
  let trimmed := trim input.toList
  if empty : trimmed = [] then .error .empty
  else
    let name := Unicode.toLowercase trimmed
    have nonempty : name ≠ [] := mt (Unicode.toLowercase_eq_nil trimmed) empty
    match h : check name nonempty with
    | .error e => .error e
    | .ok () => .ok {
        text := String.ofList name
        lower := by rw [String.toList_ofList]; exact Unicode.toLowercase_idem trimmed
        nonempty := by rwa [String.toList_ofList]
        checked := by simpa only [String.toList_ofList] using h }

def asStr (name : DeviceName) : String := name.text

/-- Whether the name collides with one already in the state file. -/
def isTaken (existing : List String) (candidate : DeviceName) : Bool :=
  existing.any fun name => name == candidate.asStr

theorem ext_text {m n : DeviceName} (h : m.asStr = n.asStr) : m = n := by
  cases m
  cases n
  cases h
  rfl

@[simp] theorem isTaken_iff {existing : List DeviceName} {candidate : DeviceName} :
    isTaken (existing.map asStr) candidate = true ↔ candidate ∈ existing := by
  rw [isTaken, List.any_eq_true]
  constructor
  · rintro ⟨_, hm, heq⟩
    obtain ⟨name, hn, rfl⟩ := List.mem_map.mp hm
    rw [← ext_text (eq_of_beq heq)]
    exact hn
  · intro h
    exact ⟨candidate.asStr, List.mem_map_of_mem h, beq_self_eq_true _⟩

theorem check_ok {name : List Char} {nonempty : name ≠ []} (h : check name nonempty = .ok ()) :
    (∀ c ∈ name, isAllowed c = true) ∧
      Unicode.isAlphanumeric (name.head nonempty) = true ∧
      Unicode.isAlphanumeric (name.getLast nonempty) = true := by
  rw [check] at h
  simp only at h
  split at h
  · cases h
  split at h
  · cases h
  next hfind =>
  split at h
  · cases h
  next hfirst =>
  split at h
  · cases h
  next hlast =>
  refine ⟨fun c hc => ?_, by simpa using hfirst, by simpa using hlast⟩
  have := List.find?_eq_none.mp hfind c hc
  simpa using this

/-- A character of a name is no whitespace, so no line break either. -/
theorem not_whitespace_of_mem (name : DeviceName) {c : Char} (hc : c ∈ name.text.toList) :
    isWhitespace c = false := by
  have allowed := (check_ok name.checked).1 c hc
  rw [isAllowed, Bool.or_eq_true, Bool.or_eq_true] at allowed
  rcases allowed with (h | h) | h
  · exact Unicode.not_whitespace c h
  · rw [of_decide_eq_true h]; decide
  · rw [of_decide_eq_true h]; decide

theorem parse_of_check (input : String) {name : List Char} {nonempty : name ≠ []}
    (canon : Unicode.toLowercase (trim input.toList) = name)
    (h : check name nonempty = .ok ()) :
    ∃ n, parse input = .ok n ∧ n.asStr = String.ofList name := by
  subst canon
  have some : trim input.toList ≠ [] := by
    intro hnil
    rw [hnil] at nonempty
    exact nonempty (by simpa using Unicode.toLowercase_ascii [] (by simp))
  rw [parse]
  simp only
  rw [dif_neg some]
  split
  · next e he => cases h.symm.trans he
  · exact ⟨_, rfl, rfl⟩

/-- The canonical form is read back as itself. -/
@[simp] theorem parse_asStr (name : DeviceName) : parse name.asStr = .ok name := by
  have htrim : trim name.text.toList = name.text.toList := by
    refine trim_of_ends (fun c hc => ?_) fun c hc => ?_
    · exact name.not_whitespace_of_mem (List.mem_of_head? hc)
    · exact name.not_whitespace_of_mem (List.mem_of_getLast? hc)
  obtain ⟨n, hn, htext⟩ := parse_of_check name.asStr
    (by rw [asStr, htrim, name.lower]) name.checked
  rw [hn, ext_text (m := n) (n := name) (by rw [htext, String.ofList_toList]; rfl)]

end DeviceName

namespace NameError

def display [Unicode] : NameError → String
  | empty => "device name is empty"
  | tooLong len =>
    "device name is " ++ String.ofList (showNat len) ++ " characters, the limit is 32"
  | badChar c =>
    "device names cannot contain " ++ debugChar c ++ "; use letters, digits, '-' or '_'"
  | badEdge c => "device names cannot start or end with " ++ debugChar c
  | reserved => "that device name is reserved"
  | taken => "a device with that name is already registered"

end NameError
