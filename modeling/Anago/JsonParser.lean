import Anago.Outcome
import Anago.Utf8Text
import Anago.Json

/-!
# The JSON parser

A recursive descent over the bytes of the input. Indexing and slicing panic outside
the buffer, as in the source; the loops carry fuel, and `parse` gives them enough
for any input (`JsonSafety`).
-/

namespace Json

open StdText DecimalText Utf8Text

def maxDepth : Nat := 64

structure Parser where
  b : List UInt8
  i : Nat
  deriving DecidableEq, Repr

def isWs (c : UInt8) : Bool :=
  c = ' '.toUInt8 || c = '\t'.toUInt8 || c = '\n'.toUInt8 || c = '\r'.toUInt8

def isAsciiDigit (c : UInt8) : Bool := '0'.toUInt8 ≤ c && c ≤ '9'.toUInt8

def hexDigit (c : UInt8) : Option Nat :=
  if '0'.toUInt8 ≤ c ∧ c ≤ '9'.toUInt8 then some (c.toNat - '0'.toNat)
  else if 'a'.toUInt8 ≤ c ∧ c ≤ 'f'.toUInt8 then some (c.toNat - 'a'.toNat + 10)
  else if 'A'.toUInt8 ≤ c ∧ c ≤ 'F'.toUInt8 then some (c.toNat - 'A'.toNat + 10)
  else none

/-- `char::from_u32`. -/
def fromU32 (n : Nat) : Option Char := if n.isValidChar then some (Char.ofNat n) else none

/-- `0xD800..=0xDBFF`. -/
def isHighSurrogate (n : Nat) : Bool := 0xD800 ≤ n && n ≤ 0xDBFF

/-- `0xDC00..=0xDFFF`. -/
def isLowSurrogate (n : Nat) : Bool := 0xDC00 ≤ n && n ≤ 0xDFFF

/-- The code point of a high and a low surrogate. -/
def pairCode (first low : Nat) : Nat := 0x10000 + (first - 0xD800) * 0x400 + (low - 0xDC00)

/-- The byte a one-letter escape stands for. -/
def shortEscape (esc : UInt8) : Option UInt8 :=
  if esc = '"'.toUInt8 then some '"'.toUInt8
  else if esc = '\\'.toUInt8 then some '\\'.toUInt8
  else if esc = '/'.toUInt8 then some '/'.toUInt8
  else if esc = 'b'.toUInt8 then some 0x08
  else if esc = 'f'.toUInt8 then some 0x0c
  else if esc = 'n'.toUInt8 then some '\n'.toUInt8
  else if esc = 'r'.toUInt8 then some '\r'.toUInt8
  else if esc = 't'.toUInt8 then some '\t'.toUInt8
  else none

namespace Parser

def err (p : Parser) (msg : String) : Error := ⟨msg, p.i⟩

def peek (p : Parser) : Option UInt8 := p.b[p.i]?

/-- `self.i += n`. -/
def advance (p : Parser) (n : Nat) : Parser := { p with i := p.i + n }

/-- What is left to read. -/
def rest (p : Parser) : List UInt8 := p.b.drop p.i

/-- `&b[start..stop]`, which panics out of range. -/
def slice (p : Parser) (start stop : Nat) : Outcome Error (List UInt8) :=
  if start ≤ stop ∧ stop ≤ p.b.length then .ok ((p.b.drop start).take (stop - start))
  else .panic

/-- `b[at]`, which panics out of range. -/
def index (p : Parser) (at' : Nat) : Outcome Error UInt8 :=
  match p.b[at']? with
  | some c => .ok c
  | none => .panic

/-- `while` the next byte passes the test, step over it. -/
def skipWhile (p : Parser) (test : UInt8 → Bool) : Parser :=
  p.advance (p.rest.takeWhile test).length

def skipWs (p : Parser) : Parser := p.skipWhile isWs

def expect (p : Parser) (c : UInt8) : Outcome Error Parser :=
  if p.peek = some c then .ok (p.advance 1)
  else .err (p.err ("expected '" ++ String.singleton (Char.ofUInt8 c) ++ "'"))

def literal (p : Parser) (word : String) (value : Value) : Outcome Error (Value × Parser) := do
  let tail ← p.slice p.i p.b.length
  if (asBytes word).isPrefixOf tail then .ok (value, p.advance (asBytes word).length)
  else .err (p.err "invalid literal")

/-- Four hexadecimal digits as one number; `none` at the first byte that is none. -/
def hexValue (digits : List UInt8) : Option Nat :=
  digits.foldlM (fun value c => (hexDigit c).map fun digit => value * 16 + digit) 0

def hex4 (p : Parser) : Outcome Error (Nat × Parser) :=
  let stop := p.i + 4
  if stop > p.b.length then .err (p.err "truncated \\u escape")
  else do
    let digits ← p.slice p.i stop
    match hexValue digits with
    | some value => .ok (value, { p with i := stop })
    | none => .err (p.err "invalid hex digit in \\u escape")

/-- The code point of a `\u` escape, or of a surrogate pair of them. -/
def unicodeEscape (p : Parser) : Outcome Error (Char × Parser) := do
  let (first, p) ← p.hex4
  if isHighSurrogate first then
    if ¬(p.peek = some '\\'.toUInt8 ∧ p.b[p.i + 1]? = some 'u'.toUInt8) then
      .err (p.err "lone high surrogate in \\u escape")
    else
      let (low, p) ← (p.advance 2).hex4
      if !isLowSurrogate low then
        .err (p.err "invalid low surrogate in \\u escape")
      else
        match fromU32 (pairCode first low) with
        | some c => .ok (c, p)
        | none => .err (p.err "invalid code point in \\u escape")
  else if isLowSurrogate first then
    .err (p.err "lone low surrogate in \\u escape")
  else
    match fromU32 first with
    | some c => .ok (c, p)
    | none => .err (p.err "invalid code point in \\u escape")

def stringLoop : Nat → Parser → List UInt8 → Outcome Error (String × Parser)
  | 0, _, _ => .spin
  | fuel + 1, p, buf =>
    match p.peek with
    | none => .err (p.err "unterminated string")
    | some c =>
      if c = '"'.toUInt8 then
        let p := p.advance 1
        match fromUtf8 buf with
        | some s => .ok (s, p)
        | none => .err (p.err "invalid UTF-8 in string")
      else if c = '\\'.toUInt8 then
        let p := p.advance 1
        match p.peek with
        | none => .err (p.err "unterminated escape")
        | some esc =>
          let p := p.advance 1
          match shortEscape esc with
          | some byte => stringLoop fuel p (buf ++ [byte])
          | none =>
            if esc = 'u'.toUInt8 then do
              let (decoded, p) ← p.unicodeEscape
              stringLoop fuel p (buf ++ String.utf8EncodeChar decoded)
            else .err (p.err "invalid escape")
      else if c < 0x20 then .err (p.err "unescaped control character in string")
      else stringLoop fuel (p.advance 1) (buf ++ [c])

def string (p : Parser) : Outcome Error (String × Parser) := do
  let p ← p.expect '"'.toUInt8
  stringLoop (p.b.length - p.i + 1) p []

def number (p : Parser) : Outcome Error (Value × Parser) :=
  let start := p.i
  let p := if p.peek = some '-'.toUInt8 then p.advance 1 else p
  let digitsStart := p.i
  let p := p.skipWhile isAsciiDigit
  if p.i = digitsStart then .err (p.err "expected digits in number")
  else do
    let lead ← p.index digitsStart
    if lead = '0'.toUInt8 ∧ p.i - digitsStart > 1 then
      .err ⟨"leading zero in number", digitsStart⟩
    else if p.peek = some '.'.toUInt8 ∨ p.peek = some 'e'.toUInt8 ∨
        p.peek = some 'E'.toUInt8 then
      .err (p.err "floats are not supported")
    else
      let raw ← p.slice start p.i
      match fromUtf8 raw with
      | none => .err (p.err "invalid number")
      | some text =>
        match parseI64 text.toList with
        | some n => .ok (.int n, p)
        | none => .err ⟨"integer out of i64 range", start⟩

variable [Unicode]

mutual

def value (fuel depth : Nat) (p : Parser) : Outcome Error (Value × Parser) :=
  match fuel with
  | 0 => .spin
  | fuel + 1 =>
    if depth > maxDepth then .err (p.err "nesting too deep")
    else match p.peek with
      | none => .err (p.err "unexpected end of input")
      | some c =>
        if c = '{'.toUInt8 then object fuel depth p
        else if c = '['.toUInt8 then array fuel depth p
        else if c = '"'.toUInt8 then do
          let (s, p) ← p.string
          .ok (.str s, p)
        else if c = 't'.toUInt8 then p.literal "true" (.bool true)
        else if c = 'f'.toUInt8 then p.literal "false" (.bool false)
        else if c = 'n'.toUInt8 then p.literal "null" .null
        else if c = '-'.toUInt8 || isAsciiDigit c then p.number
        else .err (p.err "unexpected character")

def object (fuel depth : Nat) (p : Parser) : Outcome Error (Value × Parser) :=
  match fuel with
  | 0 => .spin
  | fuel + 1 => do
    let p ← p.expect '{'.toUInt8
    let p := p.skipWs
    if p.peek = some '}'.toUInt8 then .ok (.obj [], p.advance 1)
    else objectLoop fuel depth p []

def objectLoop (fuel depth : Nat) (p : Parser) (obj : Object) :
    Outcome Error (Value × Parser) :=
  match fuel with
  | 0 => .spin
  | fuel + 1 =>
    let p := p.skipWs
    if p.peek ≠ some '"'.toUInt8 then .err (p.err "expected object key")
    else do
      let keyAt := p.i
      let (key, p) ← p.string
      let p := p.skipWs
      let p ← p.expect ':'.toUInt8
      let p := p.skipWs
      let (v, p) ← value fuel (depth + 1) p
      match Object.insert obj key v with
      | .error e => .err ⟨e.display, keyAt⟩
      | .ok obj =>
        let p := p.skipWs
        if p.peek = some ','.toUInt8 then objectLoop fuel depth (p.advance 1) obj
        else if p.peek = some '}'.toUInt8 then .ok (.obj obj, p.advance 1)
        else .err (p.err "expected ',' or '\x7d'")

def array (fuel depth : Nat) (p : Parser) : Outcome Error (Value × Parser) :=
  match fuel with
  | 0 => .spin
  | fuel + 1 => do
    let p ← p.expect '['.toUInt8
    let p := p.skipWs
    if p.peek = some ']'.toUInt8 then .ok (.arr [], p.advance 1)
    else arrayLoop fuel depth p []

def arrayLoop (fuel depth : Nat) (p : Parser) (items : List Value) :
    Outcome Error (Value × Parser) :=
  match fuel with
  | 0 => .spin
  | fuel + 1 => do
    let p := p.skipWs
    let (v, p) ← value fuel (depth + 1) p
    let items := items ++ [v]
    let p := p.skipWs
    if p.peek = some ','.toUInt8 then arrayLoop fuel depth (p.advance 1) items
    else if p.peek = some ']'.toUInt8 then .ok (.arr items, p.advance 1)
    else .err (p.err "expected ',' or ']'")

end

end Parser

/-- Enough for every loop and call over the input: no cycle of three of them leaves
the position where it was. -/
def parseFuel (b : List UInt8) : Nat := 3 * b.length + 1

/-- Parses a complete document. -/
def parse [Unicode] (input : String) : Outcome Error Value := do
  let p : Parser := ⟨asBytes input, 0⟩
  let p := p.skipWs
  let (value, p) ← p.value (parseFuel p.b) 0
  let p := p.skipWs
  if p.i < p.b.length then .err (p.err "trailing content after JSON value")
  else .ok value

end Json
