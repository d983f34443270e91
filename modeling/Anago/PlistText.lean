import Anago.DecimalText

/-!
# Property lists as XML text

A text is a row of tags, each with the characters before it, and a value is read off the
tags. Line ends are made one before anything else looks at the text, so what is written is
escaped far enough that nothing happens to it: what is written is what is read
(`read_write`).
-/

open DecimalText

namespace PlistText

/-- Line ends as an XML processor hands them on. -/
def normalise : List Char → List Char
  | '\r' :: '\n' :: rest => '\n' :: normalise rest
  | '\r' :: rest => '\n' :: normalise rest
  | c :: rest => c :: normalise rest
  | [] => []

/-- The characters of XML 1.0. -/
def isChar (c : Char) : Bool :=
  let n := c.toNat
  n == 9 || n == 10 || n == 13 || (0x20 ≤ n && n ≤ 0xD7FF) ||
    (0xE000 ≤ n && n ≤ 0xFFFD) || 0x10000 ≤ n

/-- A tag and the characters before it. -/
structure Item where
  before : List Char
  tag : List Char
  deriving DecidableEq, Repr

def hexDigit (c : Char) : Option Nat :=
  if c.isDigit then some (c.toNat - '0'.toNat)
  else if 'a' ≤ c ∧ c ≤ 'f' then some (c.toNat - 'a'.toNat + 10)
  else if 'A' ≤ c ∧ c ≤ 'F' then some (c.toNat - 'A'.toNat + 10)
  else none

def hexValue (digits : List Char) : Option Nat :=
  if digits = [] then none
  else (digits.mapM hexDigit).map (·.foldl (fun n d => n * 16 + d) 0)

/-- A reference is to a character that may stand in the text. -/
def charOf (n : Nat) : Option Char :=
  if n.isValidChar ∧ isChar (Char.ofNat n) then some (Char.ofNat n) else none

/-- What is between `&` and `;`. -/
def reference : List Char → Option Char
  | ['a', 'm', 'p'] => some '&'
  | ['l', 't'] => some '<'
  | ['g', 't'] => some '>'
  | ['q', 'u', 'o', 't'] => some '"'
  | ['a', 'p', 'o', 's'] => some '\''
  | '#' :: 'x' :: digits => (hexValue digits).bind charOf
  | '#' :: digits => (parseDigits digits).bind charOf
  | _ => none

/-- Where the reader stands, and what it has of the part it is in. -/
inductive Mode where
  | text (chars : List Char)
  | tag (before name : List Char)
  | reference (chars name : List Char)
  deriving DecidableEq, Repr

def step (mode : Mode) (c : Char) : Option (Mode × List Item) :=
  if !isChar c then none
  else
    match mode with
    | .text chars =>
      if c = '<' then some (.tag chars [], [])
      else if c = '&' then some (.reference chars [], [])
      else some (.text (chars ++ [c]), [])
    | .tag before name =>
      if c = '>' then some (.text [], [⟨before, name⟩]) else some (.tag before (name ++ [c]), [])
    | .reference chars name =>
      if c = ';' then (reference name).map fun d => (.text (chars ++ [d]), [])
      else some (.reference chars (name ++ [c]), [])

def run (mode : Mode) : List Char → Option (Mode × List Item)
  | [] => some (mode, [])
  | c :: cs => do
    let (mode, items) ← step mode c
    let (mode, later) ← run mode cs
    some (mode, items ++ later)

inductive Value where
  | string (chars : List Char)
  | integer (n : Nat)
  | boolean (b : Bool)
  | array (values : List Value)
  | dict (entries : List (List Char × Value))

def isBlank (c : Char) : Bool := c == ' ' || c == '\t' || c == '\n' || c == '\r'

def Item.isOpen (item : Item) (name : List Char) : Bool :=
  item.before.all isBlank && item.tag == name

mutual

def value : Nat → List Item → Option (Value × List Item)
  | fuel + 1, item :: rest =>
    if !item.before.all isBlank then none
    else
      match item.tag with
      | ['s', 't', 'r', 'i', 'n', 'g'] =>
        match rest with
        | close :: rest =>
          if close.tag = "/string".toList then some (.string close.before, rest) else none
        | [] => none
      | ['i', 'n', 't', 'e', 'g', 'e', 'r'] =>
        match rest with
        | close :: rest =>
          if close.tag = "/integer".toList then (parseDigits close.before).map fun n =>
            (.integer n, rest) else none
        | [] => none
      | ['t', 'r', 'u', 'e', '/'] => some (.boolean true, rest)
      | ['f', 'a', 'l', 's', 'e', '/'] => some (.boolean false, rest)
      | ['a', 'r', 'r', 'a', 'y'] =>
        (values fuel rest).map fun (values, rest) => (.array values, rest)
      | ['d', 'i', 'c', 't'] => (entries fuel rest).map fun (entries, rest) => (.dict entries, rest)
      | _ => none
  | _, _ => none

def values : Nat → List Item → Option (List Value × List Item)
  | fuel + 1, item :: rest =>
    if item.isOpen "/array".toList then some ([], rest)
    else do
      let (first, rest) ← value fuel (item :: rest)
      let (later, rest) ← values fuel rest
      some (first :: later, rest)
  | _, _ => none

def entries : Nat → List Item → Option (List (List Char × Value) × List Item)
  | fuel + 1, item :: rest =>
    if item.isOpen "/dict".toList then some ([], rest)
    else if item.isOpen "key".toList then
      match rest with
      | close :: rest =>
        if close.tag = "/key".toList then do
          let (first, rest) ← value fuel rest
          let (later, rest) ← entries fuel rest
          some ((close.before, first) :: later, rest)
        else none
      | [] => none
    else none
  | _, _ => none

end

/-- Leaves out what comes before the root. -/
def prolog : List Item → List Item
  | item :: rest =>
    if item.before.all isBlank ∧ (item.tag.head? = some '?' ∨ item.tag.head? = some '!')
      then prolog rest
    else item :: rest
  | [] => []

/-- The value of the root element. -/
def document (items : List Item) : Option Value :=
  match prolog items with
  | root :: rest =>
    if root.isOpen root.tag ∧ root.tag.takeWhile (!isBlank ·) = "plist".toList then
      match value rest.length rest with
      | some (v, [close]) => if close.isOpen "/plist".toList then some v else none
      | _ => none
    else none
  | [] => none

def read (cs : List Char) : Option Value :=
  match run (.text []) (normalise cs) with
  | some (.text chars, items) => if chars.all isBlank then document items else none
  | _ => none

/-! ## Writing -/

/-- How a character is written. -/
def piece (c : Char) : List Char :=
  if c = '&' then "&amp;".toList
  else if c = '<' then "&lt;".toList
  else if c = '>' then "&gt;".toList
  else if c = '\t' then "&#9;".toList
  else if c = '\n' then "&#10;".toList
  else if c = '\r' then "&#13;".toList
  else [c]

def escaped (cs : List Char) : List Char := cs.flatMap piece

def element (name : String) (body : List Char) : List Char :=
  '<' :: name.toList ++ '>' :: (body ++ "</".toList ++ name.toList ++ ['>'])

def indent (depth : Nat) : List Char := '\n' :: List.replicate depth '\t'

mutual

def write (depth : Nat) : Value → List Char
  | .string chars => element "string" (escaped chars)
  | .integer n => element "integer" (showNat n)
  | .boolean b => if b then "<true/>".toList else "<false/>".toList
  | .array values => element "array" (writeValues (depth + 1) values ++ indent depth)
  | .dict entries => element "dict" (writeEntries (depth + 1) entries ++ indent depth)

def writeValues (depth : Nat) : List Value → List Char
  | [] => []
  | v :: vs => indent depth ++ write depth v ++ writeValues depth vs

def writeEntries (depth : Nat) : List (List Char × Value) → List Char
  | [] => []
  | (key, v) :: rest =>
    indent depth ++ element "key" (escaped key) ++ indent depth ++ write depth v ++
      writeEntries depth rest

end

mutual

/-- The characters that a value holds. -/
def chars : Value → List Char
  | .string chars => chars
  | .integer _ => []
  | .boolean _ => []
  | .array values => charsOf values
  | .dict entries => charsOfEntries entries

def charsOf : List Value → List Char
  | [] => []
  | v :: vs => chars v ++ charsOf vs

def charsOfEntries : List (List Char × Value) → List Char
  | [] => []
  | (key, v) :: rest => key ++ chars v ++ charsOfEntries rest

end

/-- The usual first lines. -/
def opening : List Char :=
  "<?xml version=\"1.0\" encoding=\"UTF-8\"?>\n".toList ++
  "<!DOCTYPE plist PUBLIC \"-//Apple//DTD PLIST 1.0//EN\" ".toList ++
  "\"http://www.apple.com/DTDs/PropertyList-1.0.dtd\">\n".toList ++
  "<plist version=\"1.0\">\n".toList

def textOf (v : Value) : List Char := opening ++ write 0 v ++ "\n</plist>\n".toList

/-! ## Reading what is written -/

mutual

/-- The tags of a value, after some characters. -/
def items (before : List Char) (depth : Nat) : Value → List Item
  | .string chars => [⟨before, "string".toList⟩, ⟨chars, "/string".toList⟩]
  | .integer n => [⟨before, "integer".toList⟩, ⟨showNat n, "/integer".toList⟩]
  | .boolean b => [⟨before, if b then "true/".toList else "false/".toList⟩]
  | .array values =>
    ⟨before, "array".toList⟩ :: (itemsOf (depth + 1) values ++ [⟨indent depth, "/array".toList⟩])
  | .dict entries =>
    ⟨before, "dict".toList⟩ :: (itemsOfEntries (depth + 1) entries ++
      [⟨indent depth, "/dict".toList⟩])

def itemsOf (depth : Nat) : List Value → List Item
  | [] => []
  | v :: vs => items (indent depth) depth v ++ itemsOf depth vs

def itemsOfEntries (depth : Nat) : List (List Char × Value) → List Item
  | [] => []
  | (key, v) :: rest =>
    ⟨indent depth, "key".toList⟩ :: ⟨key, "/key".toList⟩ ::
      (items (indent depth) depth v ++ itemsOfEntries depth rest)

end

theorem normalise_plain {cs : List Char} (h : '\r' ∉ cs) : normalise cs = cs := by
  fun_induction normalise cs with
  | case1 rest ih => exact absurd (List.mem_cons_self ..) h
  | case2 rest _ ih => exact absurd (List.mem_cons_self ..) h
  | case3 c rest _ _ ih => rw [ih fun there => h (List.mem_cons_of_mem _ there)]
  | case4 => rfl

theorem run_append (mode : Mode) (cs ds : List Char) :
    run mode (cs ++ ds) = (run mode cs).bind fun first =>
      (run first.1 ds).map fun second => (second.1, first.2 ++ second.2) := by
  induction cs generalizing mode with
  | nil =>
    simp only [List.nil_append, run, Option.bind_some]
    cases run mode ds <;> rfl
  | cons c cs ih =>
    rw [List.cons_append, run, run]
    cases step mode c with
    | none => rfl
    | some first =>
      simp only [Option.bind_eq_bind, Option.bind_some, ih]
      cases run first.1 cs with
      | none => rfl
      | some second =>
        simp only [Option.bind_some]
        cases run second.1 ds with
        | none => rfl
        | some third => simp [List.append_assoc]

/-- Reads some characters and goes on, with these tags behind it. -/
def Reads (mode : Mode) (cs : List Char) (mode' : Mode) (items : List Item) : Prop :=
  run mode cs = some (mode', items)

theorem Reads.append {mode mode' mode'' : Mode} {cs ds : List Char} {first second : List Item}
    (h : Reads mode cs mode' first) (h' : Reads mode' ds mode'' second) :
    Reads mode (cs ++ ds) mode'' (first ++ second) := by
  rw [Reads] at h h' ⊢
  rw [run_append, h, Option.bind_some, h']
  rfl

theorem reads_one {mode mode' : Mode} {c : Char} {items : List Item}
    (h : step mode c = some (mode', items)) :
    Reads mode [c] mode' items := by
  rw [Reads, run, h]
  simp [run]

theorem reads_piece (before : List Char) {c : Char} (h : isChar c = true) :
    Reads (.text before) (piece c) (.text (before ++ [c])) [] := by
  have escaped : ∀ {name : List Char} {d : Char}, reference name = some d →
      name.all (fun c => isChar c && c != ';') = true →
      Reads (.text before) ('&' :: name ++ [';']) (.text (before ++ [d])) [] := by
    intro name d resolves plain
    have inside : ∀ (read rest : List Char), rest.all (fun c => isChar c && c != ';') = true →
        Reads (.reference before read) rest (.reference before (read ++ rest)) [] := by
      intro read rest
      induction rest generalizing read with
      | nil =>
        intro _
        rw [List.append_nil]
        rfl
      | cons c rest ih =>
        intro plain
        simp only [List.all_cons, Bool.and_eq_true, bne_iff_ne] at plain
        have first : Reads (.reference before read) [c] (.reference before (read ++ [c])) [] :=
          reads_one (by simp [step, plain.1.1, plain.1.2])
        have later := first.append (ih (read ++ [c]) plain.2)
        rwa [List.append_assoc] at later
    have start : Reads (.text before) ['&'] (.reference before []) [] := reads_one rfl
    have stop : Reads (.reference before name) [';'] (.text (before ++ [d])) [] :=
      reads_one (by simp [step, resolves, isChar])
    exact (start.append (inside [] name plain)).append stop
  rw [piece]
  split
  · next same =>
    rw [same]
    exact @escaped "amp".toList '&' rfl (by decide)
  · split
    · next same =>
      rw [same]
      exact @escaped "lt".toList '<' rfl (by decide)
    · split
      · next same =>
        rw [same]
        exact @escaped "gt".toList '>' rfl (by decide)
      · split
        · next same =>
          rw [same]
          exact @escaped "#9".toList '\t' (by decide) (by decide)
        · split
          · next same =>
            rw [same]
            exact @escaped "#10".toList '\n' (by decide) (by decide)
          · split
            · next same =>
              rw [same]
              exact @escaped "#13".toList '\r' (by decide) (by decide)
            · next amp lt _ _ _ _ => exact reads_one (by simp [step, h, amp, lt])

theorem reads_escaped (before : List Char) {cs : List Char} (h : cs.all isChar = true) :
    Reads (.text before) (escaped cs) (.text (before ++ cs)) [] := by
  induction cs generalizing before with
  | nil =>
    rw [List.append_nil]
    rfl
  | cons c cs ih =>
    rw [List.all_cons, Bool.and_eq_true] at h
    have later := (reads_piece before h.1).append (ih (before ++ [c]) h.2)
    rwa [List.append_assoc] at later

theorem reads_plain (before : List Char) {cs : List Char}
    (h : cs.all (fun c => isChar c && c != '<' && c != '&') = true) :
    Reads (.text before) cs (.text (before ++ cs)) [] := by
  induction cs generalizing before with
  | nil =>
    rw [List.append_nil]
    rfl
  | cons c cs ih =>
    simp only [List.all_cons, Bool.and_eq_true, bne_iff_ne] at h
    obtain ⟨⟨⟨char, lt⟩, amp⟩, rest⟩ := h
    have first : Reads (.text before) [c] (.text (before ++ [c])) [] :=
      reads_one (by simp [step, char, lt, amp])
    have later := first.append (ih (before ++ [c]) (by simpa using rest))
    rwa [List.append_assoc] at later

theorem reads_indent (depth : Nat) : Reads (.text []) (indent depth) (.text (indent depth)) [] := by
  refine reads_plain [] ?_
  rw [indent, List.all_cons, Bool.and_eq_true]
  refine ⟨by decide, List.all_eq_true.mpr fun c hc => ?_⟩
  rw [List.eq_of_mem_replicate hc]
  decide

/-- A tag ends the characters before it. -/
theorem reads_tag (before : List Char) {name : List Char}
    (h : name.all (fun c => isChar c && c != '>') = true) :
    Reads (.text before) ('<' :: name ++ ['>']) (.text []) [⟨before, name⟩] := by
  have inside : ∀ (read rest : List Char), rest.all (fun c => isChar c && c != '>') = true →
      Reads (.tag before read) rest (.tag before (read ++ rest)) [] := by
    intro read rest
    induction rest generalizing read with
    | nil =>
      intro _
      rw [List.append_nil]
      rfl
    | cons c rest ih =>
      intro plain
      simp only [List.all_cons, Bool.and_eq_true, bne_iff_ne] at plain
      have first : Reads (.tag before read) [c] (.tag before (read ++ [c])) [] :=
        reads_one (by simp [step, plain.1.1, plain.1.2])
      have later := first.append (ih (read ++ [c]) (by simpa using plain.2))
      rwa [List.append_assoc] at later
  have start : Reads (.text before) ['<'] (.tag before []) [] := reads_one rfl
  have stop : Reads (.tag before name) ['>'] (.text []) [⟨before, name⟩] := reads_one rfl
  exact (start.append (inside [] name h)).append stop

/-- An element, from what its body leaves. -/
theorem reads_element (before : List Char) {name : String} {body chars : List Char}
    {inner : List Item} (plain : name.toList.all (fun c => isChar c && c != '>') = true)
    (reads : Reads (.text []) body (.text chars) inner) :
    Reads (.text before) (element name body) (.text [])
      (⟨before, name.toList⟩ :: (inner ++ [⟨chars, '/' :: name.toList⟩])) := by
  have close : ('/' :: name.toList).all (fun c => isChar c && c != '>') = true := by
    rw [List.all_cons, plain]
    decide
  have all := ((reads_tag before plain).append reads).append (reads_tag chars close)
  have split : '<' :: name.toList ++ ['>'] ++ body ++ ('<' :: ('/' :: name.toList) ++ ['>']) =
      element name body := by
    rw [element]
    have slash : "</".toList = ['<', '/'] := by decide
    simp [slash]
  rwa [split] at all

mutual

theorem reads_write (v : Value) (before : List Char) (depth : Nat)
    (h : (chars v).all isChar = true) :
    Reads (.text before) (write depth v) (.text []) (items before depth v) := by
  cases v with
  | string cs => exact reads_element before (by decide) (reads_escaped [] h)
  | integer n =>
    refine reads_element before (by decide) (reads_plain [] (List.all_eq_true.mpr fun c hc => ?_))
    have digit := isDigit_iff.mp (List.all_eq_true.mp (all_isDigit_showNat n) c hc)
    have range : isChar c = true := by
      simp only [isChar, Bool.or_eq_true, Bool.and_eq_true, decide_eq_true_eq]
      omega
    have lt : c ≠ '<' := by
      rintro rfl
      revert digit
      decide
    have amp : c ≠ '&' := by
      rintro rfl
      revert digit
      decide
    simp [range, lt, amp]
  | boolean b =>
    cases b with
    | true => exact @reads_tag before "true/".toList (by decide)
    | false => exact @reads_tag before "false/".toList (by decide)
  | array vs =>
    have body := (reads_writeValues vs (depth + 1) h).append (reads_indent depth)
    rw [List.append_nil] at body
    exact reads_element before (by decide) body
  | dict es =>
    have body := (reads_writeEntries es (depth + 1) h).append (reads_indent depth)
    rw [List.append_nil] at body
    exact reads_element before (by decide) body

theorem reads_writeValues (vs : List Value) (depth : Nat) (h : (charsOf vs).all isChar = true) :
    Reads (.text []) (writeValues depth vs) (.text []) (itemsOf depth vs) := by
  cases vs with
  | nil => rfl
  | cons v vs =>
    rw [charsOf, List.all_append, Bool.and_eq_true] at h
    have first := (reads_indent depth).append (reads_write v (indent depth) depth h.1)
    exact first.append (reads_writeValues vs depth h.2)

theorem reads_writeEntries (es : List (List Char × Value)) (depth : Nat)
    (h : (charsOfEntries es).all isChar = true) :
    Reads (.text []) (writeEntries depth es) (.text []) (itemsOfEntries depth es) := by
  cases es with
  | nil => rfl
  | cons e es =>
    obtain ⟨key, v⟩ := e
    rw [charsOfEntries, List.all_append, List.all_append, Bool.and_eq_true, Bool.and_eq_true] at h
    have name := (reads_indent depth).append
      (@reads_element (indent depth) "key" _ _ _ (by decide) (reads_escaped [] h.1.1))
    have first := (name.append (reads_indent depth)).append
      (reads_write v (indent depth) depth h.1.2)
    have all := first.append (reads_writeEntries es depth h.2)
    rw [writeEntries]
    exact all

end

theorem indent_blank (depth : Nat) : (indent depth).all isBlank = true := by
  rw [indent, List.all_cons, Bool.and_eq_true]
  refine ⟨rfl, List.all_eq_true.mpr fun c hc => ?_⟩
  rw [List.eq_of_mem_replicate hc]
  rfl

/-- A value begins with a tag of its own, which closes nothing. -/
theorem items_head (before : List Char) (depth : Nat) (v : Value) :
    ∃ tag rest, items before depth v = ⟨before, tag⟩ :: rest ∧ tag ≠ "/array".toList := by
  cases v with
  | string cs => exact ⟨_, _, rfl, by decide⟩
  | integer n => exact ⟨_, _, rfl, by decide⟩
  | boolean b =>
    cases b with
    | true => exact ⟨_, _, rfl, by decide⟩
    | false => exact ⟨_, _, rfl, by decide⟩
  | array vs => exact ⟨_, _, rfl, by decide⟩
  | dict es => exact ⟨_, _, rfl, by decide⟩

mutual

theorem value_items (v : Value) {before : List Char}
    (blank : before.all isBlank = true) (depth : Nat) (rest : List Item) {fuel : Nat}
    (enough : (items before depth v).length ≤ fuel) :
    value fuel (items before depth v ++ rest) = some (v, rest) := by
  cases fuel with
  | zero =>
    obtain ⟨tag, later, h, _⟩ := items_head before depth v
    rw [h] at enough
    exact absurd enough (Nat.not_succ_le_zero _)
  | succ fuel =>
    cases v with
    | string cs => simp [items, value, blank]
    | integer n => simp [items, value, blank, parseDigits_showNat]
    | boolean b =>
      cases b with
      | true => simp [items, value, blank]
      | false => simp [items, value, blank]
    | array vs =>
      have short : (itemsOf (depth + 1) vs).length + 1 ≤ fuel := by
        simpa [items] using enough
      have inner := values_items vs (depth + 1) depth rest short
      simpa [items, value, blank] using inner
    | dict es =>
      have short : (itemsOfEntries (depth + 1) es).length + 1 ≤ fuel := by
        simpa [items] using enough
      have inner := entries_items es (depth + 1) depth rest short
      simpa [items, value, blank] using inner

theorem values_items (vs : List Value) (depth outer : Nat) (rest : List Item) {fuel : Nat}
    (enough : (itemsOf depth vs).length + 1 ≤ fuel) :
    values fuel (itemsOf depth vs ++ ⟨indent outer, "/array".toList⟩ :: rest) =
      some (vs, rest) := by
  cases fuel with
  | zero => exact absurd enough (Nat.not_succ_le_zero _)
  | succ fuel =>
    cases vs with
    | nil => simp [itemsOf, values, Item.isOpen, indent_blank]
    | cons v vs =>
      rw [itemsOf, List.length_append] at enough
      obtain ⟨tag, later, h, other⟩ := items_head (indent depth) depth v
      have filled : 0 < (items (indent depth) depth v).length := by
        rw [h]
        exact Nat.succ_pos _
      have first := value_items v (indent_blank depth) depth
        (itemsOf depth vs ++ ⟨indent outer, "/array".toList⟩ :: rest) (show _ ≤ fuel by omega)
      have second := values_items vs depth outer rest (show _ ≤ fuel by omega)
      rw [itemsOf, List.append_assoc]
      rw [h, List.cons_append] at first ⊢
      have closes : (Item.isOpen ⟨indent depth, tag⟩ "/array".toList) = false := by
        rw [Item.isOpen, beq_false_of_ne other, Bool.and_false]
      rw [values, closes, first]
      simp only [Bool.false_eq_true, if_false, Option.bind_eq_bind, Option.bind_some, second]

theorem entries_items (es : List (List Char × Value)) (depth outer : Nat)
    (rest : List Item) {fuel : Nat} (enough : (itemsOfEntries depth es).length + 1 ≤ fuel) :
    entries fuel (itemsOfEntries depth es ++ ⟨indent outer, "/dict".toList⟩ :: rest) =
      some (es, rest) := by
  cases fuel with
  | zero => exact absurd enough (Nat.not_succ_le_zero _)
  | succ fuel =>
    cases es with
    | nil => simp [itemsOfEntries, entries, Item.isOpen, indent_blank]
    | cons e es =>
      obtain ⟨key, v⟩ := e
      simp only [itemsOfEntries, List.length_cons, List.length_append] at enough
      have first := value_items v (indent_blank depth) depth
        (itemsOfEntries depth es ++ ⟨indent outer, "/dict".toList⟩ :: rest) (show _ ≤ fuel by omega)
      have second := entries_items es depth outer rest (show _ ≤ fuel by omega)
      have names : Item.isOpen ⟨indent depth, "key".toList⟩ "key".toList = true := by
        rw [Item.isOpen, indent_blank]
        exact beq_self_eq_true _
      have closes : Item.isOpen ⟨indent depth, "key".toList⟩ "/dict".toList = false := by
        rw [Item.isOpen, indent_blank]
        exact beq_false_of_ne (show "key".toList ≠ "/dict".toList by decide)
      rw [itemsOfEntries, List.cons_append, List.cons_append, List.append_assoc,
        entries, closes, names]
      simp only [Bool.false_eq_true, if_false, if_true, Option.bind_eq_bind,
        Option.bind_some, first, second]

end

/-- The tags of the usual first lines. -/
theorem reads_opening : ∃ xml doctype, Reads (.text []) opening (.text ['\n'])
    [⟨[], '?' :: xml⟩, ⟨['\n'], '!' :: doctype⟩, ⟨['\n'], "plist version=\"1.0\"".toList⟩] := by
  refine ⟨"xml version=\"1.0\" encoding=\"UTF-8\"?".toList,
    "DOCTYPE plist PUBLIC \"-//Apple//DTD PLIST 1.0//EN\" ".toList ++
      "\"http://www.apple.com/DTDs/PropertyList-1.0.dtd\"".toList, ?_⟩
  rw [Reads]
  decide +kernel

theorem piece_return (c : Char) : '\r' ∉ piece c := by
  rw [piece]
  split
  · decide
  · split
    · decide
    · split
      · decide
      · split
        · decide
        · split
          · decide
          · split
            · decide
            · next other => exact fun there => other (List.mem_singleton.mp there).symm

theorem escaped_return (cs : List Char) : '\r' ∉ escaped cs := by
  intro there
  obtain ⟨c, _, there⟩ := List.mem_flatMap.mp there
  exact piece_return c there

theorem element_return {name : String} {body : List Char} (plain : '\r' ∉ name.toList)
    (clear : '\r' ∉ body) :
    '\r' ∉ element name body := by
  have slash : "</".toList = ['<', '/'] := by decide
  simp [element, slash, plain, clear]

theorem indent_return (depth : Nat) : '\r' ∉ indent depth := by
  rw [indent, List.mem_cons]
  rintro (there | there)
  · cases there
  · cases List.eq_of_mem_replicate there

mutual

/-- No line end is written that would be made another. -/
theorem write_return (v : Value) (depth : Nat) : '\r' ∉ write depth v := by
  cases v with
  | string cs => exact element_return (by decide) (escaped_return cs)
  | integer n =>
    refine element_return (by decide) fun there => ?_
    have digit := List.all_eq_true.mp (all_isDigit_showNat n) _ there
    revert digit
    decide
  | boolean b =>
    cases b with
    | true => exact (by decide : '\r' ∉ "<true/>".toList)
    | false => exact (by decide : '\r' ∉ "<false/>".toList)
  | array vs =>
    refine element_return (by decide) ?_
    rw [List.mem_append]
    exact fun there => there.elim (writeValues_return vs (depth + 1)) (indent_return depth)
  | dict es =>
    refine element_return (by decide) ?_
    rw [List.mem_append]
    exact fun there => there.elim (writeEntries_return es (depth + 1)) (indent_return depth)

theorem writeValues_return (vs : List Value) (depth : Nat) : '\r' ∉ writeValues depth vs := by
  cases vs with
  | nil => exact List.not_mem_nil
  | cons v vs =>
    rw [writeValues, List.mem_append, List.mem_append]
    rintro ((there | there) | there)
    · exact indent_return depth there
    · exact write_return v depth there
    · exact writeValues_return vs depth there

theorem writeEntries_return (es : List (List Char × Value)) (depth : Nat) :
    '\r' ∉ writeEntries depth es := by
  cases es with
  | nil => exact List.not_mem_nil
  | cons e es =>
    obtain ⟨key, v⟩ := e
    simp only [writeEntries, List.mem_append]
    rintro ((((there | there) | there) | there) | there)
    · exact indent_return depth there
    · exact element_return (by decide) (escaped_return key) there
    · exact indent_return depth there
    · exact write_return v depth there
    · exact writeEntries_return es depth there

end

/-- What is written is what is read, whatever characters a text can hold. -/
theorem read_textOf {v : Value} (h : (chars v).all isChar = true) : read (textOf v) = some v := by
  obtain ⟨xml, doctype, first⟩ := reads_opening
  have close : Reads (.text []) "\n</plist>\n".toList (.text ['\n'])
      [⟨['\n'], "/plist".toList⟩] := by
    rw [Reads]
    decide +kernel
  have all := (first.append (reads_write v ['\n'] 0 h)).append close
  have plain : normalise (textOf v) = textOf v := by
    refine normalise_plain ?_
    rw [textOf, List.mem_append, List.mem_append]
    rintro ((there | there) | there)
    · revert there
      decide +kernel
    · exact write_return v 0 there
    · revert there
      decide
  have blank : (['\n'] : List Char).all isBlank = true := rfl
  have body := value_items v blank 0 [⟨['\n'], "/plist".toList⟩]
    (Nat.le_succ (items ['\n'] 0 v).length)
  have root : Item.isOpen ⟨['\n'], "plist version=\"1.0\"".toList⟩
      "plist version=\"1.0\"".toList = true :=
    by decide
  have named : "plist version=\"1.0\"".toList.takeWhile (fun c => !isBlank c) = "plist".toList := by
    decide
  have closes : Item.isOpen ⟨['\n'], "/plist".toList⟩ "/plist".toList = true := by decide
  have skipped : prolog (⟨[], '?' :: xml⟩ :: ⟨['\n'], '!' :: doctype⟩ :: ⟨['\n'],
      "plist version=\"1.0\"".toList⟩ ::
      (items ['\n'] 0 v ++ [⟨['\n'], "/plist".toList⟩])) =
      ⟨['\n'], "plist version=\"1.0\"".toList⟩ ::
        (items ['\n'] 0 v ++ [⟨['\n'], "/plist".toList⟩]) := by
    rw [prolog, if_pos ⟨rfl, Or.inl rfl⟩, prolog, if_pos ⟨rfl, Or.inr rfl⟩, prolog, if_neg]
    rintro ⟨_, marks⟩
    revert marks
    decide
  rw [Reads] at all
  rw [read, plain, textOf, all]
  simp only [blank, if_true, List.cons_append, List.nil_append]
  rw [document, skipped]
  have length : (items ['\n'] 0 v ++ [Item.mk ['\n'] "/plist".toList]).length =
      (items ['\n'] 0 v).length + 1 := by
    rw [List.length_append]
    rfl
  simp only [root, named, and_self, if_true]
  rw [length, body]
  simp only [closes, if_true]

end PlistText
