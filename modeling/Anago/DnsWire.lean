import Anago.ClientConf
import Anago.Utf8Lossy

/-!
# DNS messages

A question for the TXT values at a name, and what an answer says there. A message is its
bytes; a name in it may go on elsewhere, by a pointer.
-/

open StdText Utf8Text Utf8Lossy

namespace DnsWire

def typeTxt : Nat := 16

def classIn : Nat := 1

def typeOpt : Nat := 41

def udpPayload : Nat := 1232

def rcodeOk : Nat := 0

def rcodeNameError : Nat := 3

def headerLen : Nat := 12

def maxName : Nat := 255

def maxLabel : Nat := 63

/-- How many compression pointers one name may follow. -/
def maxJumps : Nat := 32

inductive DnsError where
  | badName (why : String)
  | notOurQuestion
  | malformed (what : String)
  deriving DecidableEq, Repr

/-- `u16::to_be_bytes`. -/
def beBytes (n : Nat) : List UInt8 := [UInt8.ofNat (n / 256), UInt8.ofNat n]

/-- `trim_end_matches('.')`. -/
def trimEndDots (cs : List Char) : List Char := (cs.reverse.dropWhile (· = '.')).reverse

/-- The labels of a name, as it is spelled with dots. -/
def labelsOf (name : String) : List (List Char) := (trimEndDots name.toList).splitOn '.'

/-- A name in wire form. -/
def encodeName (name : String) : Except DnsError (List UInt8) :=
  let trimmed := trimEndDots name.toList
  if trimmed = [] then .error (.badName "empty")
  else if ¬trimmed.all (·.toNat < 128) then .error (.badName "not ASCII — needs its xn-- form")
  else
    let labels := labelsOf name
    -- the first label that is wrong tells why
    match labels.find? fun label => label = [] || maxLabel < label.length with
    | some [] => .error (.badName "an empty label")
    | some _ => .error (.badName "a label longer than 63 bytes")
    | none =>
      let wire := labels.flatMap (fun label => UInt8.ofNat label.length :: utf8 label) ++ [0]
      if maxName < wire.length then .error (.badName "longer than 255 bytes") else .ok wire

/-- A TXT question, with an `OPT` record that asks for long answers. -/
def txtQuery (id : UInt16) (name : String) : Except DnsError (List UInt8) :=
  (encodeName name).map fun question =>
    beBytes id.toNat ++ [0, 0] ++ beBytes 1 ++ [0, 0] ++ [0, 0] ++ beBytes 1 ++
      question ++ beBytes typeTxt ++ beBytes classIn ++
      [0] ++ beBytes typeOpt ++ beBytes udpPayload ++ [0, 0, 0, 0] ++ [0, 0]

/-- What a server said. -/
structure Reply where
  rcode : Nat
  truncated : Bool
  values : List String
  deriving DecidableEq, Repr

namespace Reply

/-- `NXDOMAIN` is an answer, too. -/
def answered (reply : Reply) : Bool := reply.rcode = rcodeOk || reply.rcode = rcodeNameError

def holds (reply : Reply) (value : String) : Bool := reply.values.any (· = value)

end Reply

/-- Names compare without case, and without a trailing root dot. -/
def fold (name : List Char) : List Char := (trimEndDots name).map toAsciiLowercase

/-- `message.get(from..to)`. -/
def slice (message : List UInt8) (start stop : Nat) : Option (List UInt8) :=
  if start ≤ stop ∧ stop ≤ message.length
    then some ((message.drop start).take (stop - start)) else none

/-- Two bytes of a message that has them. -/
def u16At (message : List UInt8) (i : Nat) : Nat :=
  (message.getD i 0).toNat * 256 + (message.getD (i + 1) 0).toNat

/-- Where a pointer leads: the low six bits of its first byte, and its second. -/
def target (high low : UInt8) : Nat := high.toNat % 64 * 256 + low.toNat

/-- The text of a name with one more label. -/
def push (name : List Char) (label : List UInt8) : List Char :=
  if name = [] then lossy label else name ++ '.' :: lossy label

theorem get_lt {message : List UInt8} {i : Nat} {b : UInt8} (h : message[i]? = some b) :
    i < message.length := by
  obtain ⟨lt, _⟩ := List.getElem?_eq_some_iff.mp h
  exact lt

theorem slice_eq_some {message label : List UInt8} {start stop : Nat}
    (h : slice message start stop = some label) :
    start ≤ stop ∧ stop ≤ message.length ∧ label = (message.drop start).take (stop - start) := by
  rw [slice] at h
  split at h
  · next bounds => exact ⟨bounds.1, bounds.2, (Option.some.inj h).symm⟩
  · cases h

/-- `read_name` from `pos`, with what it has read so far. `after` is where the name ends in the
stream once a pointer was followed. -/
def readNameLoop (message : List UInt8) (pos : Nat) (after : Option Nat) (jumps : Nat)
    (name : List Char) :
    Except DnsError (List Char × Nat) :=
  match _hbyte : message[pos]? with
  | none => .error (.malformed "a name runs past the end")
  | some length =>
    -- the two high bits tell what it is
    if length.toNat / 64 = 0 then
      if length.toNat = 0 then .ok (name, after.getD (pos + 1))
      else
        match hslice : slice message (pos + 1) (pos + 1 + length.toNat) with
        | none => .error (.malformed "a label runs past the end")
        | some label => readNameLoop message (pos + 1 + length.toNat) after jumps (push name label)
    else if length.toNat / 64 = 3 then
      match message[pos + 1]? with
      | none => .error (.malformed "a pointer runs past the end")
      | some low =>
        if maxJumps < jumps + 1 then .error (.malformed "compression pointers in a loop")
        else readNameLoop message (target length low) (some (after.getD (pos + 2))) (jumps + 1) name
    else .error (.malformed "a label length that is not one")
termination_by (maxJumps - jumps, message.length - pos)
decreasing_by
  · have lt := get_lt _hbyte
    have bounds := slice_eq_some hslice
    exact Prod.Lex.right _ (by omega)
  · exact Prod.Lex.left _ _ (by omega)

/-- Reads a name, and tells where it ends in the stream. -/
def readName (message : List UInt8) (start : Nat) : Except DnsError (List Char × Nat) :=
  readNameLoop message start none 0 []

def skipName (message : List UInt8) (pos : Nat) : Except DnsError Nat :=
  (readName message pos).map Prod.snd

/-- A length-prefixed string and what follows it. The last one may be cut off. -/
def readCharacterStrings : List UInt8 → List Char
  | [] => []
  | length :: rest =>
    lossy (rest.take length.toNat) ++ readCharacterStrings (rest.drop length.toNat)
termination_by rdata => rdata.length
decreasing_by
  rw [List.length_drop, List.length_cons]
  omega

/-- The questions are passed over. -/
def skipQuestions (message : List UInt8) : Nat → Nat → Except DnsError Nat
  | 0, pos => .ok pos
  | questions + 1, pos =>
    match skipName message pos with
    | .error e => .error e
    | .ok after =>
      if after + 4 ≤ message.length then skipQuestions message questions (after + 4)
      else .error (.malformed "a question runs past the end")

/-- The values at the name among so many answers. A record that is cut short ends them. -/
def readAnswers (message : List UInt8) (wanted : List Char) :
    Nat → Nat → List String → Except DnsError (List String)
  | 0, _, values => .ok values
  | answers + 1, pos, values =>
    match readName message pos with
    | .error e => .error e
    | .ok (owner, after) =>
      let rdata := after + 10
      if message.length < rdata then .ok values
      else
        let kind := u16At message after
        let class' := u16At message (after + 2)
        let stop := rdata + u16At message (rdata - 2)
        if message.length < stop then .ok values
        else
          let values :=
            if kind = typeTxt ∧ class' = classIn ∧ fold owner = wanted then
              values ++
                [String.ofList (readCharacterStrings ((message.drop rdata).take (stop - rdata)))]
            else values
          readAnswers message wanted answers stop values

/-- Reads an answer to `txtQuery`. -/
def readTxt (message : List UInt8) (id : UInt16) (name : String) : Except DnsError Reply :=
  if message.length < headerLen then .error (.malformed "shorter than a header")
  else if u16At message 0 ≠ id.toNat then .error .notOurQuestion
  else if (message.getD 2 0).toNat / 128 = 0 then .error (.malformed "not marked as an answer")
  else
    let truncated := decide ((message.getD 2 0).toNat / 2 % 2 = 1)
    let rcode := (message.getD 3 0).toNat % 16
    match skipQuestions message (u16At message 4) headerLen with
    | .error e => .error e
    | .ok pos =>
      (readAnswers message (fold name.toList) (u16At message 6) pos []).map fun values =>
        ⟨rcode, truncated, values⟩

end DnsWire
