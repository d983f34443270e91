import Anago.Cli

/-!
# The language of the command line

A command line is a run of items, each of them a positional or a declared flag, and may end
in `--` and any words. It is accepted just if it can be read so with no flag twice, and the
result is what the items say; otherwise the first item that breaks a rule is the error.
-/

namespace Args

/-- Whether a flag was given at all. -/
def ParsedArgs.isSet (parsed : ParsedArgs) (name : String) : Bool :=
  parsed.flags.any fun flag => flag.1 = name

/-- Flags that can be told apart on a command line. -/
structure Declared (spec : List Flag) : Prop where
  distinct : (spec.map Flag.name).Nodup
  named : ∀ flag ∈ spec, flag.name ≠ "" ∧ '=' ∉ flag.name.toList

/-- One item of a command line. -/
inductive Item where
  | positional (word : String)
  | boolean (flag : Flag)
  | inline (flag : Flag) (value : String)
  | spaced (flag : Flag) (value : String)

namespace Item

/-- The words an item takes. -/
def words : Item → List String
  | positional word => [word]
  | boolean flag => ["--" ++ flag.name]
  | inline flag value => ["--" ++ flag.name ++ "=" ++ value]
  | spaced flag value => ["--" ++ flag.name, value]

def positionals : Item → List String
  | positional word => [word]
  | _ => []

/-- The flag an item sets, and its value. -/
def flags : Item → List (String × Option String)
  | positional _ => []
  | boolean flag => [(flag.name, none)]
  | inline flag value => [(flag.name, some value)]
  | spaced flag value => [(flag.name, some value)]

/-- The rules for one item. -/
def Allowed (spec : List Flag) : Item → Prop
  | positional word => isFlagLike word = false
  | boolean flag => flag ∈ spec ∧ flag.kind = .boolean
  | inline flag value => flag ∈ spec ∧ flag.kind = .value ∧ value ≠ ""
  | spaced flag value => flag ∈ spec ∧ flag.kind = .value ∧ value ≠ "" ∧ isFlagLike value = false

end Item

/-- A command line as it is read: its items, and what comes after a `--`. -/
structure Reading where
  items : List Item
  rest : Option (List String)

namespace Reading

/-- What is after the items. -/
def ending (reading : Reading) : List String :=
  match reading.rest with
  | some words => "--" :: words
  | none => []

def argv (reading : Reading) : List String := reading.items.flatMap Item.words ++ reading.ending

def flags (reading : Reading) : List (String × Option String) := reading.items.flatMap Item.flags

def parsed (reading : Reading) : ParsedArgs :=
  ⟨reading.items.flatMap Item.positionals ++ reading.rest.getD [], reading.flags⟩

/-- No item breaks a rule, and no flag is given twice. -/
structure Valid (spec : List Flag) (reading : Reading) : Prop where
  allowed : ∀ item ∈ reading.items, item.Allowed spec
  once : (reading.flags.map Prod.fst).Nodup

end Reading

/-- What breaks a rule of its own at the front of some words, and how. -/
inductive Malformed (spec : List Flag) : List String → ArgError → Prop
  | unknown (word token : String) (rest : List String) (dashed : isFlagLike word = true)
    (long : word ≠ "--")
      (cut : word.toList.takeWhile (· ≠ '=') = token.toList)
        (none : ∀ flag ∈ spec, "--" ++ flag.name ≠ token) :
      Malformed spec (word :: rest) (.unknown token)
  | unexpected (flag : Flag) (value : String) (rest : List String) (declared : flag ∈ spec)
      (kind : flag.kind = .boolean) : Malformed spec (("--" ++ flag.name ++ "=" ++ value) :: rest)
        (.unexpectedValue flag.name)
  | missing (flag : Flag) (rest : List String) (declared : flag ∈ spec) (kind : flag.kind = .value)
      (next : ∀ word ∈ rest.head?, isFlagLike word = true) :
        Malformed spec (("--" ++ flag.name) :: rest) (.missingValue flag.name)
  | emptyInline (flag : Flag) (rest : List String) (declared : flag ∈ spec)
    (kind : flag.kind = .value) :
      Malformed spec (("--" ++ flag.name ++ "=" ++ "") :: rest) (.emptyValue flag.name)
  | emptySpaced (flag : Flag) (rest : List String) (declared : flag ∈ spec)
    (kind : flag.kind = .value) :
      Malformed spec (("--" ++ flag.name) :: "" :: rest) (.emptyValue flag.name)

/-- The first item of some words breaks a rule, after items that set some flags. -/
inductive Breaks (spec : List Flag) (given : List String) (argv : List String) : ArgError → Prop
  | malformed (e : ArgError) (h : Malformed spec argv e) : Breaks spec given argv e
  | duplicate (item : Item) (rest : List String) (name : String) (split : argv = item.words ++ rest)
      (allowed : item.Allowed spec) (sets : name ∈ item.flags.map Prod.fst) (again : name ∈ given) :
      Breaks spec given argv (.duplicate name)

variable {spec : List Flag}

theorem isFlagLike_long {word : String} {cs : List Char} (h : word.toList = '-' :: '-' :: cs) :
    isFlagLike word = true := by
  have other : word ≠ "-" := by
    rintro rfl
    have short : "-".toList = ['-'] := by decide
    rw [short] at h
    cases h
  rw [isFlagLike, h]
  simp [other]

theorem long_ne {word : String} {cs : List Char} (h : word.toList = '-' :: '-' :: cs)
    (filled : cs ≠ []) :
    word ≠ "--" := by
  rintro rfl
  have short : "--".toList = ['-', '-'] := by decide
  rw [short] at h
  exact filled (List.cons.inj (List.cons.inj h).2).2.symm

theorem toList_token (name : String) : ("--" ++ name).toList = '-' :: '-' :: name.toList := by
  have dashes : "--".toList = ['-', '-'] := by decide
  rw [String.toList_append, dashes]
  rfl

theorem toList_inline (name value : String) :
    ("--" ++ name ++ "=" ++ value).toList = '-' :: '-' :: name.toList ++ '=' :: value.toList := by
  have sign : "=".toList = ['='] := by decide
  rw [String.toList_append, String.toList_append, toList_token, sign, List.append_assoc]
  rfl

theorem toList_ne_nil {s : String} (h : s ≠ "") : s.toList ≠ [] := by
  intro empty
  exact h (String.toList_eq_nil_iff.mp empty)

/-- A declared flag is found by its name. -/
theorem findFlag_declared (declared : Declared spec) {flag : Flag} (h : flag ∈ spec) :
    findFlag spec ('-' :: '-' :: flag.name.toList) = some flag := by
  have distinct := declared.distinct
  clear declared
  rw [findFlag, String.ofList_toList]
  induction spec with
  | nil => cases h
  | cons first spec ih =>
    rw [List.map_cons, List.nodup_cons] at distinct
    rcases List.mem_cons.mp h with rfl | h
    · simp
    · have other : first.name ≠ flag.name := by
        intro same
        exact distinct.1 (same ▸ List.mem_map_of_mem h)
      rw [List.find?_cons_of_neg (by simpa using other)]
      exact ih h distinct.2

/-- A token that is not found is of no declared flag. -/
theorem findFlag_none {token : List Char} (found : findFlag spec token = none) :
    ∀ flag ∈ spec, ("--" ++ flag.name).toList ≠ token := by
  intro flag h same
  rw [← same, toList_token, findFlag, List.find?_eq_none] at found
  have other := found flag h
  rw [String.ofList_toList] at other
  simp at other

theorem findFlag_some {token : List Char} {flag : Flag} (h : findFlag spec token = some flag) :
    flag ∈ spec ∧ token = '-' :: '-' :: flag.name.toList := by
  rw [findFlag.eq_def] at h
  split at h
  · next name =>
    refine ⟨List.mem_of_find?_eq_some h, ?_⟩
    have same := List.find?_some h
    rw [of_decide_eq_true same, String.toList_ofList]
  · cases h

/-- What is before the first `=`, if there is one. -/
theorem splitOnce_takeWhile {cs front back : List Char}
    (h : Subnet.splitOnce '=' cs = some (front, back)) :
    cs.takeWhile (· ≠ '=') = front ∧ cs = front ++ '=' :: back := by
  rw [Subnet.splitOnce] at h
  split at h
  · cases h
  · next sign after hsplit =>
    obtain ⟨rfl, rfl⟩ := Prod.mk.inj (Option.some.inj h)
    have whole := List.takeWhile_append_dropWhile (p := fun c => decide (c ≠ '=')) (l := cs)
    have first : sign = '=' := by
      have stops := List.head?_dropWhile_not (fun c => decide (c ≠ '=')) cs
      rw [hsplit] at stops
      simpa using stops
    rw [hsplit, first] at whole
    exact ⟨rfl, whole.symm⟩

theorem takeWhile_none {cs : List Char} (h : Subnet.splitOnce '=' cs = none) :
    cs.takeWhile (· ≠ '=') = cs ∧ '=' ∉ cs := by
  rw [Subnet.splitOnce] at h
  split at h
  · next none =>
    rw [List.dropWhile_eq_nil_iff] at none
    refine ⟨List.takeWhile_eq_self_iff.mpr none, fun there => ?_⟩
    have other := none _ there
    revert other
    decide
  · cases h

theorem splitOnce_none {cs : List Char} (h : '=' ∉ cs) : Subnet.splitOnce '=' cs = none := by
  have none : cs.dropWhile (· ≠ '=') = [] := by
    rw [List.dropWhile_eq_nil_iff]
    intro c hc
    simp only [decide_eq_true_eq]
    rintro rfl
    exact h hc
  rw [Subnet.splitOnce, none]

/-- Adds an item to what has been read. -/
def Item.addTo (parsed : ParsedArgs) : Item → Except ArgError ParsedArgs
  | .positional word => .ok { parsed with positionals := parsed.positionals ++ [word] }
  | .boolean flag => parsed.push flag none
  | .inline flag value => parsed.push flag (some value)
  | .spaced flag value => parsed.push flag (some value)

/-- A word that is a declared flag alone. -/
theorem parseFrom_flag (declared : Declared spec) {flag : Flag} (h : flag ∈ spec)
    (rest : List String) (parsed : ParsedArgs) :
    ParsedArgs.parseFrom spec (("--" ++ flag.name) :: rest) parsed =
      match flag.kind, rest with
      | .boolean, _ => (parsed.push flag none).bind (ParsedArgs.parseFrom spec rest)
      | .value, [] => .error (.missingValue flag.name)
      | .value, next :: rest =>
        if isFlagLike next then .error (.missingValue flag.name)
        else (parsed.pushValue flag next).bind (ParsedArgs.parseFrom spec rest) := by
  have chars := toList_token flag.name
  obtain ⟨filled, sign⟩ := declared.named flag h
  have whole : '=' ∉ ("--" ++ flag.name).toList := by
    rw [chars]
    simpa using sign
  have found := findFlag_declared declared h
  rw [← chars] at found
  rw [ParsedArgs.parseFrom.eq_def]
  simp only [long_ne chars (toList_ne_nil filled), isFlagLike_long chars, splitOnce_none whole,
    found, if_false, not_true]
  cases flag.kind with
  | boolean => rfl
  | value => cases rest <;> rfl

/-- A word that is a declared flag and a value. -/
theorem parseFrom_inline (declared : Declared spec) {flag : Flag} (h : flag ∈ spec) (value : String)
    (rest : List String) (parsed : ParsedArgs) :
    ParsedArgs.parseFrom spec (("--" ++ flag.name ++ "=" ++ value) :: rest) parsed =
      match flag.kind with
      | .boolean => .error (.unexpectedValue flag.name)
      | .value => (parsed.pushValue flag value).bind (ParsedArgs.parseFrom spec rest) := by
  have chars := toList_inline flag.name value
  obtain ⟨filled, sign⟩ := declared.named flag h
  have cut : Subnet.splitOnce '=' ("--" ++ flag.name ++ "=" ++ value).toList =
      some ('-' :: '-' :: flag.name.toList, value.toList) := by
    rw [chars]
    exact Subnet.splitOnce_append (by simpa using sign)
  have long : "--" ++ flag.name ++ "=" ++ value ≠ "--" := long_ne chars (by simp)
  have dashed : isFlagLike ("--" ++ flag.name ++ "=" ++ value) = true := isFlagLike_long chars
  rw [ParsedArgs.parseFrom.eq_def]
  simp only [long, dashed, cut, findFlag_declared declared h, if_false, not_true,
    String.ofList_toList]
  cases flag.kind with
  | boolean => rfl
  | value => rfl

/-- An item that is allowed is read as itself. -/
theorem parseFrom_item (declared : Declared spec) {item : Item} (allowed : item.Allowed spec)
    (rest : List String) (parsed : ParsedArgs) :
    ParsedArgs.parseFrom spec (item.words ++ rest) parsed =
      (item.addTo parsed).bind (ParsedArgs.parseFrom spec rest) := by
  cases item with
  | positional word =>
    have plain : isFlagLike word = false := allowed
    have other : word ≠ "--" := by
      rintro rfl
      have long : isFlagLike "--" = true := by decide
      exact Bool.noConfusion (plain.symm.trans long)
    rw [Item.words, List.singleton_append, ParsedArgs.parseFrom.eq_def]
    simp only [other, plain, if_false, Bool.false_eq_true, not_false_eq_true, if_true]
    rfl
  | boolean flag =>
    obtain ⟨h, kind⟩ := allowed
    rw [Item.words, List.singleton_append, parseFrom_flag declared h, kind]
    rfl
  | inline flag value =>
    obtain ⟨h, kind, filled⟩ := allowed
    rw [Item.words, List.singleton_append, parseFrom_inline declared h, kind]
    simp only [ParsedArgs.pushValue, if_neg filled]
    rfl
  | spaced flag value =>
    obtain ⟨h, kind, filled, plain⟩ := allowed
    rw [Item.words, List.cons_append, List.singleton_append, parseFrom_flag declared h, kind]
    simp only [plain, ParsedArgs.pushValue, if_neg filled, Bool.false_eq_true, if_false]
    rfl

/-- What breaks a rule of its own is refused. -/
theorem parseFrom_malformed (declared : Declared spec) {argv : List String} {e : ArgError}
    (h : Malformed spec argv e) (parsed : ParsedArgs) :
    ParsedArgs.parseFrom spec argv parsed = .error e := by
  cases h with
  | unknown word token rest dashed long cut none =>
    have missing : findFlag spec token.toList = Option.none := by
      cases found : findFlag spec token.toList with
      | none => rfl
      | some flag =>
        obtain ⟨h, same⟩ := findFlag_some found
        refine absurd ?_ (none flag h)
        apply String.toList_inj.mp
        rw [toList_token, same]
    rw [ParsedArgs.parseFrom.eq_def]
    cases split : Subnet.splitOnce '=' word.toList with
    | none =>
      rw [(takeWhile_none split).1] at cut
      obtain rfl := String.toList_inj.mp cut
      simp only [long, dashed, split, missing, if_false, not_true, String.ofList_toList]
    | some parts =>
      obtain ⟨front, back⟩ := parts
      rw [(splitOnce_takeWhile split).1] at cut
      simp only [long, dashed, split, cut, missing, if_false, not_true, String.ofList_toList]
  | unexpected flag value rest h kind => rw [parseFrom_inline declared h, kind]
  | missing flag rest h kind next =>
    rw [parseFrom_flag declared h, kind]
    cases rest with
    | nil => rfl
    | cons word rest =>
      simp only [next word rfl, if_true]
  | emptyInline flag rest h kind =>
    rw [parseFrom_inline declared h, kind]
    rfl
  | emptySpaced flag rest h kind =>
    have plain : isFlagLike "" = false := by decide
    rw [parseFrom_flag declared h, kind]
    simp only [plain, Bool.false_eq_true, if_false]
    rfl

/-- Some words end the flags, begin with an item that is allowed, or break a rule. -/
theorem next_item (arg : String) (rest : List String) :
    arg = "--" ∨ (∃ (item : Item) (later : List String),
      item.Allowed spec ∧ arg :: rest = item.words ++ later) ∨
      ∃ e, Malformed spec (arg :: rest) e := by
  by_cases ends : arg = "--"
  · exact .inl ends
  refine .inr ?_
  by_cases dashed : isFlagLike arg = true
  · cases split : Subnet.splitOnce '=' arg.toList with
    | none =>
      obtain ⟨whole, _⟩ := takeWhile_none split
      cases found : findFlag spec arg.toList with
      | none =>
        exact .inr ⟨_, .unknown arg arg rest dashed ends whole fun flag h same =>
          findFlag_none found flag h (congrArg String.toList same)⟩
      | some flag =>
        obtain ⟨h, chars⟩ := findFlag_some found
        obtain rfl : arg = "--" ++ flag.name := String.toList_inj.mp (by rw [chars, toList_token])
        cases kind : flag.kind with
        | boolean => exact .inl ⟨.boolean flag, rest, ⟨h, kind⟩, rfl⟩
        | value =>
          cases rest with
          | nil => exact .inr ⟨_, .missing flag [] h kind (by rintro _ ⟨⟩)⟩
          | cons next rest =>
            by_cases like : isFlagLike next = true
            · refine .inr ⟨_, .missing flag (next :: rest) h kind ?_⟩
              rintro word ⟨⟩
              exact like
            · by_cases empty : next = ""
              · subst empty
                exact .inr ⟨_, .emptySpaced flag rest h kind⟩
              · exact .inl ⟨.spaced flag next, rest,
                  ⟨h, kind, empty, Bool.eq_false_iff.mpr like⟩, rfl⟩
    | some parts =>
      obtain ⟨front, back⟩ := parts
      obtain ⟨cut, chars⟩ := splitOnce_takeWhile split
      cases found : findFlag spec front with
      | none =>
        refine .inr ⟨_, .unknown arg (String.ofList front) rest dashed ends
          (by rw [cut, String.toList_ofList]) ?_⟩
        intro flag h same
        refine findFlag_none found flag h ?_
        rw [same, String.toList_ofList]
      | some flag =>
        obtain ⟨h, same⟩ := findFlag_some found
        obtain rfl : arg = "--" ++ flag.name ++ "=" ++ String.ofList back :=
          String.toList_inj.mp (by rw [chars, toList_inline, same, String.toList_ofList])
        cases kind : flag.kind with
        | boolean => exact .inr ⟨_, .unexpected flag (String.ofList back) rest h kind⟩
        | value =>
          by_cases empty : String.ofList back = ""
          · rw [empty]
            exact .inr ⟨_, .emptyInline flag rest h kind⟩
          · exact .inl ⟨.inline flag (String.ofList back), rest, ⟨h, kind, empty⟩, rfl⟩
  · exact .inl ⟨.positional arg, rest, Bool.eq_false_iff.mpr dashed, rfl⟩

/-- The names of the flags that some items set. -/
def namesOf (items : List Item) : List String := (items.flatMap Item.flags).map Prod.fst

theorem namesOf_cons (item : Item) (items : List Item) :
    namesOf (item :: items) = item.flags.map Prod.fst ++ namesOf items := by
  rw [namesOf, List.flatMap_cons, List.map_append]
  rfl

theorem push_fresh {parsed : ParsedArgs} {flag : Flag} (value : Option String)
    (fresh : flag.name ∉ parsed.flags.map Prod.fst) :
    parsed.push flag value = .ok ⟨parsed.positionals, parsed.flags ++ [(flag.name, value)]⟩ := by
  have none : (parsed.flags.any fun given => decide (given.1 = flag.name)) = false := by
    rw [List.any_eq_false]
    intro given h same
    exact fresh (of_decide_eq_true same ▸ List.mem_map_of_mem h)
  rw [ParsedArgs.push, none]
  rfl

theorem push_again {parsed : ParsedArgs} {flag : Flag} (value : Option String)
    (again : flag.name ∈ parsed.flags.map Prod.fst) : parsed.push flag value = .error
    (.duplicate flag.name) := by
  obtain ⟨given, h, same⟩ := List.mem_map.mp again
  have some : (parsed.flags.any fun given => decide (given.1 = flag.name)) = true := by
    rw [List.any_eq_true]
    exact ⟨given, h, decide_eq_true same⟩
  rw [ParsedArgs.push, if_pos some]

theorem addTo_fresh {parsed : ParsedArgs} {item : Item}
    (fresh : ∀ name ∈ item.flags.map Prod.fst, name ∉ parsed.flags.map Prod.fst) :
    item.addTo parsed = .ok ⟨parsed.positionals ++ item.positionals,
      parsed.flags ++ item.flags⟩ := by
  cases item with
  | positional word => simp [Item.addTo, Item.positionals, Item.flags]
  | boolean flag =>
    simp [Item.addTo, push_fresh none (fresh flag.name List.mem_cons_self),
      Item.positionals, Item.flags]
  | inline flag value =>
    simp [Item.addTo, push_fresh (some value) (fresh flag.name List.mem_cons_self),
      Item.positionals, Item.flags]
  | spaced flag value =>
    simp [Item.addTo, push_fresh (some value) (fresh flag.name List.mem_cons_self),
      Item.positionals, Item.flags]

theorem addTo_again {parsed : ParsedArgs} {item : Item} {name : String}
    (sets : name ∈ item.flags.map Prod.fst) (again : name ∈ parsed.flags.map Prod.fst) :
    item.addTo parsed = .error (.duplicate name) := by
  cases item with
  | positional word => cases sets
  | boolean flag =>
    obtain rfl := List.mem_singleton.mp sets
    exact push_again none again
  | inline flag value =>
    obtain rfl := List.mem_singleton.mp sets
    exact push_again (some value) again
  | spaced flag value =>
    obtain rfl := List.mem_singleton.mp sets
    exact push_again (some value) again

/-- Items that are allowed and set no flag twice are all read. -/
theorem parseFrom_items (declared : Declared spec) {items : List Item}
    (allowed : ∀ item ∈ items, item.Allowed spec) (rest : List String) (parsed : ParsedArgs)
    (once : (parsed.flags.map Prod.fst ++ namesOf items).Nodup) :
    ParsedArgs.parseFrom spec (items.flatMap Item.words ++ rest) parsed =
      ParsedArgs.parseFrom spec rest
        ⟨parsed.positionals ++ items.flatMap Item.positionals,
          parsed.flags ++ items.flatMap Item.flags⟩ := by
  induction items generalizing parsed with
  | nil => simp
  | cons item items ih =>
    rw [namesOf_cons] at once
    have fresh : ∀ name ∈ item.flags.map Prod.fst, name ∉ parsed.flags.map Prod.fst :=
      fun name h there =>
      (List.nodup_append.mp once).2.2 name there name (List.mem_append_left _ h) rfl
    rw [List.flatMap_cons, List.append_assoc,
      parseFrom_item declared (allowed item List.mem_cons_self), addTo_fresh fresh]
    refine (ih (fun other h => allowed other (List.mem_cons_of_mem item h)) _ ?_).trans ?_
    · rwa [List.map_append, List.append_assoc]
    · rw [List.append_assoc, List.append_assoc, ← List.flatMap_cons, ← List.flatMap_cons]

/-- A valid reading is what is parsed. -/
theorem parse_reading (declared : Declared spec) {reading : Reading} (valid : reading.Valid spec) :
    ParsedArgs.parse reading.argv spec = .ok reading.parsed := by
  have run := parseFrom_items declared valid.allowed reading.ending ⟨[], []⟩ valid.once
  rw [ParsedArgs.parse, Reading.argv, run, Reading.ending, Reading.parsed]
  cases reading.rest with
  | none => simp [ParsedArgs.parseFrom, Reading.flags]
  | some words => simp [ParsedArgs.parseFrom, Reading.flags]

/-- The first item that breaks a rule is what is refused. -/
theorem parse_breaks (declared : Declared spec) {items : List Item}
    (allowed : ∀ item ∈ items, item.Allowed spec) (once : (namesOf items).Nodup)
    {rest : List String} {e : ArgError} (h : Breaks spec (namesOf items) rest e) :
    ParsedArgs.parse (items.flatMap Item.words ++ rest) spec = .error e := by
  have run := parseFrom_items declared allowed rest ⟨[], []⟩ once
  rw [ParsedArgs.parse, run]
  cases h with
  | malformed e h => exact parseFrom_malformed declared h _
  | duplicate item rest name split good sets again =>
    rw [split, parseFrom_item declared good, addTo_again sets]
    · rfl
    · simpa [namesOf] using again

/-- Every command line is items with no flag twice, up to its end, a `--` or what breaks a rule. -/
theorem exists_items (given : List String) (fresh : given.Nodup) (argv : List String) :
    ∃ (items : List Item) (rest : List String), (∀ item ∈ items, item.Allowed spec) ∧
      (given ++ namesOf items).Nodup ∧
      argv = items.flatMap Item.words ++ rest ∧
      (rest = [] ∨ (∃ words, rest = "--" :: words) ∨ ∃ e,
        Breaks spec (given ++ namesOf items) rest e) := by
  induction hlen : argv.length using Nat.strong_induction_on generalizing argv given with
  | _ n ih =>
    have alone : (given ++ namesOf []).Nodup := by simpa [namesOf] using fresh
    cases argv with
    | nil => exact ⟨[], [], by simp, alone, rfl, .inl rfl⟩
    | cons arg rest =>
      rcases @next_item spec arg rest with rfl | ⟨item, later, allowed, split⟩ | ⟨e, bad⟩
      · exact ⟨[], "--" :: rest, by simp, alone, rfl, .inr (.inl ⟨rest, rfl⟩)⟩
      · by_cases again : ∃ name ∈ item.flags.map Prod.fst, name ∈ given
        · obtain ⟨name, sets, again⟩ := again
          refine ⟨[], arg :: rest, by simp, alone, rfl, .inr (.inr ⟨.duplicate name, ?_⟩)⟩
          exact .duplicate item later name split allowed sets (List.mem_append_left _ again)
        · have more : (given ++ item.flags.map Prod.fst).Nodup := by
            rw [List.nodup_append]
            refine ⟨fresh, ?_, ?_⟩
            · cases item <;> simp [Item.flags]
            · rintro name there _ sets rfl
              exact again ⟨name, sets, there⟩
          have shorter : later.length < n := by
            have lengths := congrArg List.length split
            rw [List.length_append] at lengths
            have one : 0 < item.words.length := by cases item <;> simp [Item.words]
            omega
          obtain ⟨items, rest', good, once, hlater, ends⟩ := ih _ shorter _ more later rfl
          refine ⟨item :: items, rest', List.forall_mem_cons.mpr ⟨allowed, good⟩, ?_, ?_, ?_⟩
          · rwa [namesOf_cons, ← List.append_assoc]
          · rw [split, hlater, List.flatMap_cons, List.append_assoc]
          · rwa [namesOf_cons, ← List.append_assoc]
      · exact ⟨[], arg :: rest, by simp, alone, rfl, .inr (.inr ⟨e, .malformed e bad⟩)⟩

/-- A command line has a valid reading, or a first item that breaks a rule. -/
theorem reading_or_breaks (spec : List Flag) (argv : List String) :
    (∃ reading : Reading, reading.Valid spec ∧ reading.argv = argv) ∨
      ∃ (items : List Item) (rest : List String) (e : ArgError),
      (∀ item ∈ items, item.Allowed spec) ∧
        (namesOf items).Nodup ∧ argv = items.flatMap Item.words ++ rest ∧
        Breaks spec (namesOf items) rest e := by
  obtain ⟨items, rest, good, once, split, ends⟩ := @exists_items spec [] List.nodup_nil argv
  rw [List.nil_append] at once ends
  rcases ends with rfl | ⟨words, rfl⟩ | ⟨e, h⟩
  · exact .inl ⟨⟨items, none⟩, ⟨good, once⟩, split.symm⟩
  · exact .inl ⟨⟨items, some words⟩, ⟨good, once⟩, split.symm⟩
  · exact .inr ⟨items, rest, e, good, once, split, h⟩

/-- What is set, and to what. -/
theorem isSet_iff (parsed : ParsedArgs) (name : String) :
    parsed.isSet name = true ↔ name ∈ parsed.flags.map Prod.fst := by
  rw [ParsedArgs.isSet, List.any_eq_true, List.mem_map]
  simp only [decide_eq_true_eq]

theorem value_iff {parsed : ParsedArgs} (once : (parsed.flags.map Prod.fst).Nodup)
    (name value : String) :
    parsed.value name = some value ↔ (name, some value) ∈ parsed.flags := by
  obtain ⟨positionals, flags⟩ := parsed
  rw [ParsedArgs.value]
  simp only at once ⊢
  induction flags with
  | nil => simp
  | cons flag flags ih =>
    obtain ⟨other, given⟩ := flag
    rw [List.map_cons, List.nodup_cons] at once
    by_cases same : other = name
    · subst same
      rw [List.find?_cons_of_pos (by simp), Option.bind_some, List.mem_cons]
      constructor
      · rintro rfl
        exact .inl rfl
      · rintro (h | h)
        · exact (Prod.mk.inj h).2.symm
        · exact absurd (List.mem_map_of_mem h) once.1
    · rw [List.find?_cons_of_neg (by simpa using same), ih once.2, List.mem_cons]
      constructor
      · exact .inr
      · rintro (h | h)
        · exact absurd (Prod.mk.inj h).1.symm same
        · exact h

/-- A command line is parsed just as it reads: its positionals in order and its flags; and it is
refused for the first item that breaks a rule. -/
theorem parse_command {spec : List Flag} (declared : Declared spec) (argv : List String) :
    (∀ parsed, ParsedArgs.parse argv spec = .ok parsed ↔
      ∃ reading : Reading, reading.Valid spec ∧ reading.argv = argv ∧ reading.parsed = parsed) ∧
    (∀ reading : Reading, reading.Valid spec → ∀ name,
      (reading.parsed.isSet name = true ↔ name ∈ reading.flags.map Prod.fst) ∧
      ∀ value, reading.parsed.value name = some value ↔ (name, some value) ∈ reading.flags) ∧
    ∀ e, ParsedArgs.parse argv spec = .error e ↔
      ∃ (items : List Item) (rest : List String), (∀ item ∈ items, item.Allowed spec) ∧
      (namesOf items).Nodup ∧
        argv = items.flatMap Item.words ++ rest ∧ Breaks spec (namesOf items) rest e := by
  refine ⟨fun parsed => ⟨fun ok => ?_, ?_⟩, fun reading valid name => ⟨isSet_iff _ _,
    value_iff valid.once name⟩,
    fun e => ⟨fun error => ?_, ?_⟩⟩
  · rcases reading_or_breaks spec argv with ⟨reading, valid, rfl⟩ | ⟨items, rest, e,
      good, once, rfl, h⟩
    · exact ⟨reading, valid, rfl, Except.ok.inj ((parse_reading declared valid).symm.trans ok)⟩
    · cases (parse_breaks declared good once h).symm.trans ok
  · rintro ⟨reading, valid, rfl, rfl⟩
    exact parse_reading declared valid
  · rcases reading_or_breaks spec argv with ⟨reading, valid, rfl⟩ | ⟨items, rest, e',
      good, once, rfl, h⟩
    · cases (parse_reading declared valid).symm.trans error
    · obtain rfl := Except.error.inj ((parse_breaks declared good once h).symm.trans error)
      exact ⟨items, rest, good, once, rfl, h⟩
  · rintro ⟨items, rest, good, once, rfl, h⟩
    exact parse_breaks declared good once h

/-- A flag with a value, and one without. -/
def sampleSpec : List Flag := [⟨"domain", .value⟩, ⟨"force", .boolean⟩]

theorem parse_command_sample :
    (∀ parsed, ParsedArgs.parse ["-", "--force", "--domain=a=b", "--",
      "-x"] sampleSpec = .ok parsed ↔
      ∃ reading : Reading, reading.Valid sampleSpec ∧ reading.argv = ["-", "--force",
        "--domain=a=b", "--", "-x"] ∧
        reading.parsed = parsed) ∧
    (∀ reading : Reading, reading.Valid sampleSpec → ∀ name,
      (reading.parsed.isSet name = true ↔ name ∈ reading.flags.map Prod.fst) ∧
      ∀ value, reading.parsed.value name = some value ↔ (name, some value) ∈ reading.flags) ∧
    ∀ e, ParsedArgs.parse ["-", "--force", "--domain=a=b", "--", "-x"] sampleSpec = .error e ↔
      ∃ (items : List Item) (rest : List String), (∀ item ∈ items, item.Allowed sampleSpec) ∧
      (namesOf items).Nodup ∧
        ["-", "--force", "--domain=a=b", "--", "-x"] = items.flatMap Item.words ++ rest ∧
        Breaks sampleSpec (namesOf items) rest e := by
  refine parse_command ⟨by decide, ?_⟩ _
  intro flag h
  rcases List.mem_cons.mp h with rfl | h
  · exact ⟨by decide, by decide⟩
  · obtain rfl := List.mem_singleton.mp h
    exact ⟨by decide, by decide⟩

end Args
