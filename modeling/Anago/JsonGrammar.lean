import Anago.Json

/-!
# The grammar of JSON documents

Which texts are documents and of which value: the productions of RFC 8259 over
characters, without fractions and exponents. Nothing here mentions a parser, a
position or a depth.
-/

namespace Json

open DecimalText

def Blank (c : Char) : Prop := c = ' ' ∨ c = '\t' ∨ c = '\n' ∨ c = '\r'

def Ws (cs : List Char) : Prop := ∀ c ∈ cs, Blank c

inductive IsHexDigit : Char → Nat → Prop
  | digit {c : Char} : '0' ≤ c → c ≤ '9' → IsHexDigit c (c.toNat - '0'.toNat)
  | lower {c : Char} : 'a' ≤ c → c ≤ 'f' → IsHexDigit c (c.toNat - 'a'.toNat + 10)
  | upper {c : Char} : 'A' ≤ c → c ≤ 'F' → IsHexDigit c (c.toNat - 'A'.toNat + 10)

/-- `4HEXDIG`. -/
inductive IsHex4 : List Char → Nat → Prop
  | mk {c₁ c₂ c₃ c₄ : Char} {n₁ n₂ n₃ n₄ : Nat} :
    IsHexDigit c₁ n₁ → IsHexDigit c₂ n₂ → IsHexDigit c₃ n₃ → IsHexDigit c₄ n₄ →
    IsHex4 [c₁, c₂, c₃, c₄] (((n₁ * 16 + n₂) * 16 + n₃) * 16 + n₄)

def HighSurrogate (n : Nat) : Prop := 0xD800 ≤ n ∧ n ≤ 0xDBFF

def LowSurrogate (n : Nat) : Prop := 0xDC00 ≤ n ∧ n ≤ 0xDFFF

/-- The letter of a short escape, and what it stands for. -/
inductive IsShort : Char → Char → Prop
  | quote : IsShort '"' '"'
  | backslash : IsShort '\\' '\\'
  | slash : IsShort '/' '/'
  | backspace : IsShort 'b' '\x08'
  | formFeed : IsShort 'f' '\x0c'
  | lineFeed : IsShort 'n' '\n'
  | carriageReturn : IsShort 'r' '\r'
  | tab : IsShort 't' '\t'

/-- What follows `\u`: one code unit, or a surrogate pair with the second `\u`
inside. A surrogate never occurs alone. -/
inductive IsUnicode : List Char → Char → Prop
  | unit {digits : List Char} {n : Nat} :
    IsHex4 digits n → ¬HighSurrogate n → ¬LowSurrogate n → IsUnicode digits (Char.ofNat n)
  | pair {digits digits' : List Char} {high low : Nat} :
    IsHex4 digits high → IsHex4 digits' low → HighSurrogate high → LowSurrogate low →
    IsUnicode (digits ++ '\\' :: 'u' :: digits')
      (Char.ofNat (0x10000 + (high - 0xD800) * 0x400 + (low - 0xDC00)))

/-- The inside of a string, and the characters it stands for. -/
inductive IsChars : List Char → List Char → Prop
  | nil : IsChars [] []
  | plain {c : Char} {text content : List Char} :
    0x20 ≤ c.toNat → c ≠ '"' → c ≠ '\\' → IsChars text content →
    IsChars (c :: text) (c :: content)
  | short {letter c : Char} {text content : List Char} :
    IsShort letter c → IsChars text content →
    IsChars ('\\' :: letter :: text) (c :: content)
  | unicode {code text content : List Char} {c : Char} :
    IsUnicode code c → IsChars text content →
    IsChars ('\\' :: 'u' :: code ++ text) (c :: content)

inductive IsString : List Char → String → Prop
  | mk {text : List Char} {s : String} :
    IsChars text s.toList → IsString ('"' :: text ++ ['"']) s

/-- `zero / ( digit1-9 *DIGIT )`. -/
structure IsDigits (ds : List Char) : Prop where
  nonempty : ds ≠ []
  digits : ∀ c ∈ ds, c.isDigit = true
  lead : ds.head? = some '0' → ds = ['0']

inductive IsNumber : List Char → Int64 → Prop
  | plain {ds : List Char} {n : Int64} :
    IsDigits ds → n.toInt = (digitsValue ds : Int) → IsNumber ds n
  | minus {ds : List Char} {n : Int64} :
    IsDigits ds → n.toInt = -(digitsValue ds : Int) → IsNumber ('-' :: ds) n

mutual

inductive IsValue : List Char → Value → Prop
  | null : IsValue ['n', 'u', 'l', 'l'] .null
  | true : IsValue ['t', 'r', 'u', 'e'] (.bool true)
  | false : IsValue ['f', 'a', 'l', 's', 'e'] (.bool false)
  | number {text : List Char} {n : Int64} : IsNumber text n → IsValue text (.int n)
  | string {text : List Char} {s : String} : IsString text s → IsValue text (.str s)
  | emptyArray {w : List Char} : Ws w → IsValue ('[' :: w ++ [']']) (.arr [])
  | array {text : List Char} {items : List Value} :
    IsElements text items → IsValue ('[' :: text ++ [']']) (.arr items)
  | emptyObject {w : List Char} : Ws w → IsValue ('{' :: w ++ ['}']) (.obj [])
  | object {text : List Char} {fields : List (String × Value)} :
    IsMembers text fields → (fields.map Prod.fst).Nodup →
    IsValue ('{' :: text ++ ['}']) (.obj fields)

/-- `ws value ws *( "," ws value ws )`. -/
inductive IsElements : List Char → List Value → Prop
  | last {w text w' : List Char} {v : Value} :
    Ws w → IsValue text v → Ws w' → IsElements (w ++ text ++ w') [v]
  | more {w text w' later : List Char} {v : Value} {vs : List Value} :
    Ws w → IsValue text v → Ws w' → IsElements later vs →
    IsElements (w ++ text ++ w' ++ ',' :: later) (v :: vs)

/-- `ws string ws ":" ws value ws`, separated by commas. -/
inductive IsMembers : List Char → List (String × Value) → Prop
  | last {w name w₁ w₂ text w₃ : List Char} {key : String} {v : Value} :
    Ws w → IsString name key → Ws w₁ → Ws w₂ → IsValue text v → Ws w₃ →
    IsMembers (w ++ name ++ w₁ ++ ':' :: (w₂ ++ text ++ w₃)) [(key, v)]
  | more {w name w₁ w₂ text w₃ later : List Char} {key : String} {v : Value}
    {fs : List (String × Value)} :
    Ws w → IsString name key → Ws w₁ → Ws w₂ → IsValue text v → Ws w₃ →
    IsMembers later fs →
    IsMembers (w ++ name ++ w₁ ++ ':' :: (w₂ ++ text ++ w₃ ++ ',' :: later))
      ((key, v) :: fs)

end

/-- `JSON-text = ws value ws`. -/
inductive IsDocument : List Char → Value → Prop
  | mk {w text w' : List Char} {v : Value} :
    Ws w → IsValue text v → Ws w' → IsDocument (w ++ text ++ w') v

theorem Ws.nil : Ws [] := by
  intro c hc
  cases hc

theorem Ws.append {w w' : List Char} (hw : Ws w) (hw' : Ws w') : Ws (w ++ w') := by
  intro c hc
  rcases List.mem_append.mp hc with hc | hc
  · exact hw c hc
  · exact hw' c hc

theorem not_blank_of_isDigit {c : Char} (h : c.isDigit = true) : ¬Blank c := by
  rintro (rfl | rfl | rfl | rfl) <;> revert h <;> decide

theorem not_bracket_of_isDigit {c : Char} (h : c.isDigit = true) : c ≠ ']' := by
  rintro rfl
  revert h; decide

/-- A value starts with a character that is neither whitespace nor the end of an array. -/
theorem IsValue.head {text : List Char} {v : Value} (h : IsValue text v) :
    ∃ c cs, text = c :: cs ∧ ¬Blank c ∧ c ≠ ']' := by
  cases h with
  | null => exact ⟨'n', _, rfl, by simp [Blank], by decide⟩
  | true => exact ⟨'t', _, rfl, by simp [Blank], by decide⟩
  | false => exact ⟨'f', _, rfl, by simp [Blank], by decide⟩
  | number hn =>
    cases hn with
    | plain hd _ =>
      cases text with
      | nil => exact False.elim (hd.nonempty rfl)
      | cons c cs =>
        have hc := hd.digits c List.mem_cons_self
        exact ⟨c, cs, rfl, not_blank_of_isDigit hc, not_bracket_of_isDigit hc⟩
    | minus hd _ => exact ⟨'-', _, rfl, by simp [Blank], by decide⟩
  | string hs =>
    cases hs with
    | mk hc => exact ⟨'"', _, rfl, by simp [Blank], by decide⟩
  | emptyArray _ => exact ⟨'[', _, rfl, by simp [Blank], by decide⟩
  | array _ => exact ⟨'[', _, rfl, by simp [Blank], by decide⟩
  | emptyObject _ => exact ⟨'{', _, rfl, by simp [Blank], by decide⟩
  | object _ _ => exact ⟨'{', _, rfl, by simp [Blank], by decide⟩

theorem IsString.head {text : List Char} {s : String} (h : IsString text s) :
    ∃ cs, text = '"' :: cs := by
  cases h with
  | mk hc => exact ⟨_, rfl⟩

/-- The whitespace in front of the first element can be split off. -/
theorem IsElements.trim {body : List Char} {items : List Value} (h : IsElements body items) :
    ∃ w c cs, body = w ++ c :: cs ∧ Ws w ∧ ¬Blank c ∧ c ≠ ']' ∧ IsElements (c :: cs) items := by
  cases h with
  | @last w text w' v hw hv hw' =>
    obtain ⟨c, cs, rfl, hc, hb⟩ := hv.head
    exact ⟨w, c, cs ++ w', by simp, hw, hc, hb, .last (w := []) Ws.nil hv hw'⟩
  | @more w text w' later v vs hw hv hw' hl =>
    obtain ⟨c, cs, rfl, hc, hb⟩ := hv.head
    exact ⟨w, c, cs ++ w' ++ ',' :: later, by simp, hw, hc, hb,
      .more (w := []) Ws.nil hv hw' hl⟩

theorem IsMembers.trim {body : List Char} {fields : List (String × Value)}
    (h : IsMembers body fields) :
    ∃ w cs, body = w ++ '"' :: cs ∧ Ws w ∧ IsMembers ('"' :: cs) fields := by
  cases h with
  | @last w name w₁ w₂ text w₃ key v hw hn h₁ h₂ hv h₃ =>
    obtain ⟨cs, rfl⟩ := hn.head
    exact ⟨w, cs ++ w₁ ++ ':' :: (w₂ ++ text ++ w₃), by simp, hw,
      .last (w := []) Ws.nil hn h₁ h₂ hv h₃⟩
  | @more w name w₁ w₂ text w₃ later key v fs hw hn h₁ h₂ hv h₃ hl =>
    obtain ⟨cs, rfl⟩ := hn.head
    exact ⟨w, cs ++ w₁ ++ ':' :: (w₂ ++ text ++ w₃ ++ ',' :: later), by simp, hw,
      .more (w := []) Ws.nil hn h₁ h₂ hv h₃ hl⟩

theorem IsElements.ws_append {w body : List Char} {items : List Value} (hw : Ws w)
    (h : IsElements body items) : IsElements (w ++ body) items := by
  cases h with
  | last hw₀ hv h₁ =>
    simpa only [List.append_assoc] using IsElements.last (hw.append hw₀) hv h₁
  | more hw₀ hv h₁ hl =>
    simpa only [List.append_assoc] using IsElements.more (hw.append hw₀) hv h₁ hl

theorem IsMembers.ws_append {w body : List Char} {fields : List (String × Value)} (hw : Ws w)
    (h : IsMembers body fields) : IsMembers (w ++ body) fields := by
  cases h with
  | last hw₀ hn h₁ h₂ hv h₃ =>
    simpa only [List.append_assoc] using IsMembers.last (hw.append hw₀) hn h₁ h₂ hv h₃
  | more hw₀ hn h₁ h₂ hv h₃ hl =>
    simpa only [List.append_assoc] using IsMembers.more (hw.append hw₀) hn h₁ h₂ hv h₃ hl

end Json
