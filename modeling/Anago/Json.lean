import Mathlib.Data.List.Nodup
import Anago.StdText

/-!
# JSON values and their writer

Values without floats, objects as key/value pairs in insertion order, and the two
layouts of the writer. The pairs of an object are only ever extended by `insert`,
which refuses a key already present; `Built` is what that leaves true of a value.
-/

namespace Json

open StdText DecimalText

inductive Value where
  | null
  | bool (b : Bool)
  | int (n : Int64)
  | str (s : String)
  | arr (items : List Value)
  | obj (fields : List (String × Value))

abbrev Object := List (String × Value)

structure DuplicateKey where
  key : String
  deriving DecidableEq, Repr

/-- What went wrong, and the byte offset it was noticed at. -/
structure Error where
  msg : String
  offset : Nat
  deriving DecidableEq, Repr

def Error.display (e : Error) : String :=
  e.msg ++ " (at byte " ++ String.ofList (showNat e.offset) ++ ")"

def DuplicateKey.display [Unicode] (e : DuplicateKey) : String :=
  "duplicate key " ++ debugStr e.key

namespace Object

def get (obj : Object) (key : String) : Option Value :=
  (obj.find? fun field => field.1 == key).map Prod.snd

def insert (obj : Object) (key : String) (value : Value) : Except DuplicateKey Object :=
  if (get obj key).isSome then .error ⟨key⟩ else .ok (obj ++ [(key, value)])

end Object

namespace Value

/-- `Value::obj` at a call site that writes its keys out: the repeat it would panic
on is ruled out where the call is written. -/
def ofPairs (pairs : List (String × Value))
    (_distinct : (pairs.map Prod.fst).Nodup := by simp) : Value := obj pairs

def asI64 : Value → Option Int64
  | int n => some n
  | _ => none

def asStr : Value → Option String
  | str s => some s
  | _ => none

def asArray : Value → Option (List Value)
  | arr items => some items
  | _ => none

def asObject : Value → Option Object
  | obj fields => some fields
  | _ => none

mutual
/-- Levels below the root: none for a scalar or an empty container, otherwise one
more than the deepest element. -/
def depth : Value → Nat
  | .arr items => depthItems items
  | .obj fields => depthFields fields
  | _ => 0
def depthItems : List Value → Nat
  | [] => 0
  | v :: vs => max (1 + depth v) (depthItems vs)
def depthFields : List (String × Value) → Nat
  | [] => 0
  | (_, v) :: fs => max (1 + depth v) (depthFields fs)
end

mutual
/-- No object anywhere inside repeats a key. -/
def Built : Value → Prop
  | .arr items => BuiltItems items
  | .obj fields => (fields.map Prod.fst).Nodup ∧ BuiltFields fields
  | _ => True
def BuiltItems : List Value → Prop
  | [] => True
  | v :: vs => Built v ∧ BuiltItems vs
def BuiltFields : List (String × Value) → Prop
  | [] => True
  | (_, v) :: fs => Built v ∧ BuiltFields fs
end

end Value

namespace Object

theorem get_isSome_iff (obj : Object) (key : String) :
    (get obj key).isSome ↔ key ∈ obj.map Prod.fst := by
  simp [get]

theorem insert_new {obj : Object} {key : String} (value : Value)
    (new : key ∉ obj.map Prod.fst) : insert obj key value = .ok (obj ++ [(key, value)]) := by
  rw [insert, if_neg (mt (get_isSome_iff obj key).mp new)]

theorem insert_old {obj : Object} {key : String} (value : Value)
    (old : key ∈ obj.map Prod.fst) : insert obj key value = .error ⟨key⟩ := by
  rw [insert, if_pos ((get_isSome_iff obj key).mpr old)]

/-- Inserting keeps the keys distinct. -/
theorem insert_nodup {obj obj' : Object} {key : String} {value : Value}
    (distinct : (obj.map Prod.fst).Nodup) (h : insert obj key value = .ok obj') :
    (obj'.map Prod.fst).Nodup := by
  by_cases old : key ∈ obj.map Prod.fst
  · rw [insert_old value old] at h
    cases h
  · rw [insert_new value old] at h
    cases h
    rw [List.map_append, List.nodup_append]
    refine ⟨distinct, List.nodup_singleton _, ?_⟩
    intro a ha b hb hab
    have hk : b = key := by simpa using hb
    exact old (hk ▸ hab ▸ ha)

end Object

/-- Four hexadecimal digits, as `{:04x}` prints them. -/
def paddedHex (n : Nat) : List Char := (showHex n).leftpad 4 '0'

/-- What the writer puts for one character of a string. -/
def escapeChar (c : Char) : List Char :=
  if c = '"' then ['\\', '"']
  else if c = '\\' then ['\\', '\\']
  else if c = '\n' then ['\\', 'n']
  else if c = '\r' then ['\\', 'r']
  else if c = '\t' then ['\\', 't']
  else if c = '\x08' then ['\\', 'b']
  else if c = '\x0c' then ['\\', 'f']
  else if c.toNat < 0x20 then '\\' :: 'u' :: paddedHex c.toNat
  else [c]

def writeString (s : String) : List Char := '"' :: s.toList.flatMap escapeChar ++ ['"']

def writeBreak (indent : Option Nat) (depth : Nat) : List Char :=
  match indent with
  | none => []
  | some step => '\n' :: List.replicate (step * depth) ' '

mutual
/-- The characters `write_value` pushes. The two helpers are the bodies of its
loops; `first` is `i == 0`. -/
def writeValue (indent : Option Nat) (depth : Nat) : Value → List Char
  | .null => "null".toList
  | .bool true => "true".toList
  | .bool false => "false".toList
  | .int n => showInt n.toInt
  | .str s => writeString s
  | .arr [] => "[]".toList
  | .arr (v :: vs) =>
    '[' :: writeItems indent depth true (v :: vs) ++ writeBreak indent depth ++ [']']
  | .obj [] => ['{', '}']
  | .obj (f :: fs) =>
    '{' :: writeFields indent depth true (f :: fs) ++ writeBreak indent depth ++ ['}']
def writeItems (indent : Option Nat) (depth : Nat) (first : Bool) : List Value → List Char
  | [] => []
  | v :: vs => (if first then [] else [',']) ++ writeBreak indent (depth + 1) ++
      writeValue indent (depth + 1) v ++ writeItems indent depth false vs
def writeFields (indent : Option Nat) (depth : Nat) (first : Bool) :
    List (String × Value) → List Char
  | [] => []
  | (key, v) :: fs => (if first then [] else [',']) ++ writeBreak indent (depth + 1) ++
      writeString key ++ [':'] ++ (if indent.isSome then [' '] else []) ++
      writeValue indent (depth + 1) v ++ writeFields indent depth false fs
end

/-- Compact form, for API bodies. -/
protected def toString (value : Value) : String := String.ofList (writeValue none 0 value)

/-- Two-space indented form, for the state file. -/
def toStringPretty (value : Value) : String := String.ofList (writeValue (some 2) 0 value)

/-- The start of the documented shape of a state file. -/
example : toStringPretty (.ofPairs [("version", .int 2), ("peers", .arr [])]) =
    "\x7b\n  \"version\": 2,\n  \"peers\": []\n\x7d" := by decide

end Json
