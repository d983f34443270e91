import Anago.DeviceToken
import Anago.HttpReader

/-!
# The client's requests

A request is one text: a request line, its headers, each on a line, and the body behind an
empty one. A secret goes into a header only as a `HeaderValue`, and what a person chose
goes into a path only as an encoded segment.
-/

open StdText Utf8Text

namespace Client

inductive Method where
  | get
  | post
  | patch
  | delete
  deriving DecidableEq, Repr

def Method.asStr : Method → String
  | .get => "GET"
  | .post => "POST"
  | .patch => "PATCH"
  | .delete => "DELETE"

/-- A tab, or a character of ASCII that prints. -/
def headerChar (c : Char) : Bool := c == '\t' || !(isControl c || 128 ≤ c.toNat)

structure HeaderValue where
  text : String
  printable : text.toList.all headerChar = true
  deriving DecidableEq

/-- What is wrong with a header value. -/
structure BadHeaderValue where
  reason : String
  deriving DecidableEq, Repr

def HeaderValue.parse (value : String) : Except BadHeaderValue HeaderValue :=
  if value.isEmpty then .error ⟨"it is empty"⟩
  else if value.toList.any fun c => c == '\r' || c == '\n' then
    .error ⟨"it contains a line break — check for a trailing newline"⟩
  else if h : value.toList.all headerChar = true then .ok ⟨value, h⟩
  else .error ⟨"it contains a character that is not printable ASCII"⟩

/-- `Bearer <secret>`, for a token that came from outside. -/
def HeaderValue.bearer (secret : String) : Except BadHeaderValue HeaderValue :=
  HeaderValue.parse ("Bearer " ++ secret)

theorem all_headerChar_token (token : DeviceToken) :
    ("Bearer " ++ token.text).toList.all headerChar = true := by
  have hex : ∀ c, isLowerHex c = true → headerChar c = true := by
    intro c hc
    simp only [isLowerHex, Bool.or_eq_true, Bool.and_eq_true, decide_eq_true_eq, Char.le_def,
      UInt32.le_iff_toNat_le, Char.reduceVal] at hc
    have bounds : 48 ≤ c.toNat ∧ c.toNat < 103 := by
      rcases hc with ⟨low, high⟩ | ⟨low, high⟩
      · exact ⟨low, Nat.lt_of_le_of_lt high (by decide)⟩
      · exact ⟨Nat.le_trans (by decide) low, Nat.lt_of_le_of_lt high (by decide)⟩
    have safe : isControl c = false := by
      rw [isControl]
      simp
      omega
    rw [headerChar, safe]
    simp
    omega
  rw [String.toList_append, List.all_append, Bool.and_eq_true]
  refine ⟨by decide, ?_⟩
  rw [List.all_eq_true]
  exact fun c hc => hex c (token.all_isLowerHex c hc)

/-- A device token needs no check. -/
def HeaderValue.deviceToken (token : DeviceToken) : HeaderValue :=
  ⟨"Bearer " ++ token.text, all_headerChar_token token⟩

structure Body where
  contentType : String
  content : String
  deriving DecidableEq, Repr

def Body.json (content : String) : Body := ⟨"application/json", content⟩

structure Request where
  method : Method
  host : String
  port : UInt16
  path : String
  body : Option Body
  authorization : Option HeaderValue
  deriving DecidableEq

/-- The port is left out where it is the default. -/
def hostHeader (host : String) (port : UInt16) : String :=
  if port = 443 then host else host ++ ":" ++ String.ofList (DecimalText.showNat port.toNat)

def version : String := "0.0.1"

/-- The line of a secret, if there is one. -/
def authorizationLine : Option HeaderValue → String
  | some value => "Authorization: " ++ value.text ++ "\r\n"
  | none => ""

/-- The lines of a body, whose length is in bytes. -/
def Body.lines (body : Body) : String :=
  "Content-Type: " ++ body.contentType ++ "\r\n" ++
    "Content-Length: " ++ String.ofList
      (DecimalText.showNat (asBytes body.content).length) ++ "\r\n"

def bodyLines : Option Body → String
  | some body => body.lines
  | none => ""

def bodyBytes : Option Body → List UInt8
  | some body => asBytes body.content
  | none => []

def requestBytes (request : Request) : List UInt8 :=
  asBytes (request.method.asStr ++ " " ++ request.path ++ " HTTP/1.1\r\n" ++
      "Host: " ++ hostHeader request.host request.port ++ "\r\n" ++
      "User-Agent: anago/" ++ version ++ "\r\n" ++
      "Accept: application/json\r\n" ++
      "Connection: close\r\n" ++
      authorizationLine request.authorization ++ bodyLines request.body ++ "\r\n") ++
    bodyBytes request.body

def unreserved (b : UInt8) : Bool :=
  (97 ≤ b && b ≤ 122) || (65 ≤ b && b ≤ 90) || (48 ≤ b && b ≤ 57) || b == 45 || b == 95 ||
    b == 46 || b == 126

/-- An upper-case hexadecimal digit. -/
def upperHex (n : Nat) : Char := Char.ofNat (if n < 10 then 48 + n else 55 + n)

def encodeByte (b : UInt8) : List Char :=
  if unreserved b then [Char.ofUInt8 b] else ['%', upperHex (b.toNat / 16), upperHex (b.toNat % 16)]

/-- Percent-encodes one path segment. -/
def encodeSegment (segment : String) : String :=
  String.ofList ((asBytes segment).flatMap encodeByte)

/-- What an encoded segment is made of. -/
inductive Escape : List Char → Prop
  | kept (b : UInt8) : unreserved b = true → Escape [Char.ofUInt8 b]
  | escaped (b : UInt8) : Escape ['%', upperHex (b.toNat / 16), upperHex (b.toNat % 16)]

theorem escape_encodeByte (b : UInt8) : Escape (encodeByte b) := by
  rw [encodeByte]
  split
  · next h => exact .kept b h
  · exact .escaped b

end Client
