import Anago.JsonReads

/-!
# Writer and parser are inverse up to the depth bound

In either layout the writer produces a document of the value written, so the parser
reads that value back exactly when it is not nested too deep.
-/

namespace Json

open StdText DecimalText Utf8Text Value

theorem isHexDigit_digitChar {n : Nat} (h : n < 16) : IsHexDigit (Nat.digitChar n) n := by
  by_cases hn : n < 10
  · have digit : ∀ n < 10, '0' ≤ Nat.digitChar n ∧ Nat.digitChar n ≤ '9' ∧
        n = (Nat.digitChar n).toNat - '0'.toNat := by decide
    obtain ⟨hl, hh, hv⟩ := digit n hn
    have := IsHexDigit.digit hl hh
    rwa [← hv] at this
  · have lower : ∀ n < 16, ¬n < 10 → 'a' ≤ Nat.digitChar n ∧ Nat.digitChar n ≤ 'f' ∧
        n = (Nat.digitChar n).toNat - 'a'.toNat + 10 := by decide
    obtain ⟨hl, hh, hv⟩ := lower n h hn
    have := IsHexDigit.lower hl hh
    rwa [← hv] at this

theorem isHex4_paddedHex {n : Nat} (h : n < 0x20) : IsHex4 (paddedHex n) n := by
  have shape : ∀ n < 0x20, paddedHex n =
      [Nat.digitChar 0, Nat.digitChar 0, Nat.digitChar (n / 16), Nat.digitChar (n % 16)] := by
    decide
  have zero := isHexDigit_digitChar (n := 0) (by omega)
  have hv := IsHex4.mk zero zero (isHexDigit_digitChar (n := n / 16) (by omega))
    (isHexDigit_digitChar (n := n % 16) (by omega))
  rw [← shape n h] at hv
  have value : ((0 * 16 + 0) * 16 + n / 16) * 16 + n % 16 = n := by omega
  rwa [value] at hv

/-- What the writer puts for a character stands for that character. -/
theorem isChars_escapeChar (c : Char) {text content : List Char} (h : IsChars text content) :
    IsChars (escapeChar c ++ text) (c :: content) := by
  rw [escapeChar]
  split
  · next hc => subst hc; exact .short .quote h
  split
  · next hc => subst hc; exact .short .backslash h
  split
  · next hc => subst hc; exact .short .lineFeed h
  split
  · next hc => subst hc; exact .short .carriageReturn h
  split
  · next hc => subst hc; exact .short .tab h
  split
  · next hc => subst hc; exact .short .backspace h
  split
  · next hc => subst hc; exact .short .formFeed h
  split
  · next hlow =>
    have unit := IsUnicode.unit (isHex4_paddedHex hlow)
      (by rw [HighSurrogate]; omega) (by rw [LowSurrogate]; omega)
    rw [Char.ofNat_toNat] at unit
    exact .unicode unit h
  · next hq hb _ _ _ _ _ hlow => exact .plain (Nat.le_of_not_lt hlow) hq hb h

theorem isString_writeString (s : String) : IsString (writeString s) s := by
  have chars : ∀ cs : List Char, IsChars (cs.flatMap escapeChar) cs := by
    intro cs
    induction cs with
    | nil => exact .nil
    | cons c cs ih => exact isChars_escapeChar c ih
  exact .mk (chars s.toList)

theorem isDigits_showNat (n : Nat) : IsDigits (showNat n) where
  nonempty := showNat_ne_nil n
  digits := List.all_eq_true.mp (all_isDigit_showNat n)
  lead h := by rw [showNat_leading_zero h, showNat_zero]

theorem isNumber_showInt (n : Int64) : IsNumber (showInt n.toInt) n := by
  cases hn : n.toInt with
  | ofNat m => exact .plain (isDigits_showNat m) (by rw [hn, showInt, digitsValue_showNat]; rfl)
  | negSucc m =>
    exact .minus (isDigits_showNat (m + 1)) (by rw [hn, digitsValue_showNat]; rfl)

theorem ws_writeBreak (indent : Option Nat) (depth : Nat) : Ws (writeBreak indent depth) := by
  intro c hc
  cases indent with
  | none => cases hc
  | some step =>
    rcases List.mem_cons.mp hc with rfl | hc
    · exact Or.inr (Or.inr (Or.inl rfl))
    · exact Or.inl (List.eq_of_mem_replicate hc)

theorem ws_afterColon (indent : Option Nat) :
    Ws (if indent.isSome then [' '] else []) := by
  intro c hc
  split at hc
  · exact Or.inl (List.mem_singleton.mp hc)
  · cases hc

theorem writeItems_later (indent : Option Nat) (depth : Nat) (v : Value) (vs : List Value) :
    writeItems indent depth false (v :: vs) = ',' :: writeItems indent depth true (v :: vs) := by
  simp [writeItems]

theorem writeFields_later (indent : Option Nat) (depth : Nat) (f : String × Value)
    (fs : List (String × Value)) :
    writeFields indent depth false (f :: fs) = ',' :: writeFields indent depth true (f :: fs) := by
  simp [writeFields]

mutual

/-- What the writer puts is a text of the value, whatever the layout. -/
theorem isValue_writeValue (indent : Option Nat) (depth : Nat) :
    ∀ v : Value, v.Built → IsValue (writeValue indent depth v) v
  | .null, _ => by rw [writeValue]; exact .null
  | .bool true, _ => by rw [writeValue]; exact .true
  | .bool false, _ => by rw [writeValue]; exact .false
  | .int n, _ => by rw [writeValue]; exact .number (isNumber_showInt n)
  | .str s, _ => by rw [writeValue]; exact .string (isString_writeString s)
  | .arr [], _ => by rw [writeValue]; exact .emptyArray Ws.nil
  | .arr (v :: vs), h => by
    rw [Built] at h
    rw [writeValue]
    exact .array (isElements_writeItems indent depth (v :: vs) (by simp) h)
  | .obj [], _ => by rw [writeValue]; exact .emptyObject Ws.nil
  | .obj (f :: fs), h => by
    rw [Built] at h
    rw [writeValue]
    exact .object (isMembers_writeFields indent depth (f :: fs) (by simp) h.2) h.1

theorem isElements_writeItems (indent : Option Nat) (depth : Nat) :
    ∀ items : List Value, items ≠ [] → BuiltItems items →
      IsElements (writeItems indent depth true items ++ writeBreak indent depth) items
  | [], hne, _ => absurd rfl hne
  | [v], _, h => by
    rw [BuiltItems] at h
    have hv := isValue_writeValue indent (depth + 1) v h.1
    simpa [writeItems] using
      IsElements.last (ws_writeBreak indent (depth + 1)) hv (ws_writeBreak indent depth)
  | v :: u :: vs, _, h => by
    rw [BuiltItems] at h
    have hv := isValue_writeValue indent (depth + 1) v h.1
    have hl := isElements_writeItems indent depth (u :: vs) (by simp) h.2
    rw [writeItems, writeItems_later]
    simpa using IsElements.more (ws_writeBreak indent (depth + 1)) hv Ws.nil hl

theorem isMembers_writeFields (indent : Option Nat) (depth : Nat) :
    ∀ fields : List (String × Value), fields ≠ [] → BuiltFields fields →
      IsMembers (writeFields indent depth true fields ++ writeBreak indent depth) fields
  | [], hne, _ => absurd rfl hne
  | [(key, v)], _, h => by
    rw [BuiltFields] at h
    have hv := isValue_writeValue indent (depth + 1) v h.1
    simpa [writeFields] using
      IsMembers.last (ws_writeBreak indent (depth + 1)) (isString_writeString key) Ws.nil
        (ws_afterColon indent) hv (ws_writeBreak indent depth)
  | (key, v) :: g :: fs, _, h => by
    rw [BuiltFields] at h
    have hv := isValue_writeValue indent (depth + 1) v h.1
    have hl := isMembers_writeFields indent depth (g :: fs) (by simp) h.2
    rw [writeFields, writeFields_later]
    simpa using
      IsMembers.more (ws_writeBreak indent (depth + 1)) (isString_writeString key) Ws.nil
        (ws_afterColon indent) hv Ws.nil hl

end

theorem isDocument_written (indent : Option Nat) {v : Value} (built : v.Built) :
    IsDocument (String.ofList (writeValue indent 0 v)).toList v := by
  rw [String.toList_ofList]
  simpa using IsDocument.mk Ws.nil (isValue_writeValue indent 0 v built) Ws.nil

/-- Either form of a value parses to that value when it is nested `maxDepth` levels at
most, and fails to parse otherwise. -/
theorem parse_written [Unicode] (v : Value) (built : v.Built) :
    (v.depth ≤ maxDepth →
      parse (Json.toString v) = .ok v ∧ parse (toStringPretty v) = .ok v) ∧
    (maxDepth < v.depth →
      (∃ e, parse (Json.toString v) = .err e) ∧ ∃ e, parse (toStringPretty v) = .err e) := by
  have compact := parse_document (isDocument_written none built)
  have pretty := parse_document (isDocument_written (some 2) built)
  exact ⟨fun h => ⟨compact.1 h, pretty.1 h⟩, fun h => ⟨compact.2 h, pretty.2 h⟩⟩

theorem parse_written_nested :
    letI := asciiTables
    let v := Value.arr [.obj [("é\n", .int (-5)), ("b", .null)], .arr []]
    parse (Json.toString v) = .ok v ∧ parse (toStringPretty v) = .ok v :=
  letI := asciiTables
  (parse_written (.arr [.obj [("é\n", .int (-5)), ("b", .null)], .arr []])
    (by simp [Built, BuiltItems, BuiltFields])).1 (by decide)

end Json
