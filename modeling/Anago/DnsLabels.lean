import Anago.DnsNames

/-!
# Labels and the text of a name

Owner names are compared as text. Two names of one text have the same labels unless a label
has a dot in it, which the wire allows and a spelled name does not.
-/

open StdText Utf8Text Utf8Lossy

namespace DnsWire

/-- Labels with dots between them. -/
abbrev dotted (labels : List (List Char)) : List Char := ['.'].intercalate labels

/-- A label of the wire, byte for byte and without case. -/
def wireLabel (label : List UInt8) : List Char :=
  label.map fun b => toAsciiLowercase (Char.ofNat b.toNat)

/-- The labels on the wire are those of the name, up to ASCII case. -/
def SameLabels (owner : List (List UInt8)) (name : String) : Prop :=
  owner.map wireLabel = (labelsOf name).map fun label => label.map toAsciiLowercase

/-- What the reader asks instead. -/
def SameText (owner : List (List UInt8)) (name : String) : Prop :=
  fold (textOf owner) = fold name.toList

/-- A label has a dot in it. -/
def HasDot (owner : List (List UInt8)) : Prop := ∃ label ∈ owner, (46 : UInt8) ∈ label

theorem toAsciiLowercase_lt (c : Char) : (toAsciiLowercase c).toNat < 128 ↔ c.toNat < 128 := by
  rw [toAsciiLowercase]
  split
  · next upper =>
    have high : 'Z'.toNat = 90 := rfl
    rw [toNat_ofNat (by omega)]
    omega
  · rfl

theorem toAsciiLowercase_dot (c : Char) : toAsciiLowercase c = '.' ↔ c = '.' := by
  rw [toAsciiLowercase]
  split
  · next upper =>
    have low : 'A'.toNat = 65 := rfl
    have high : 'Z'.toNat = 90 := rfl
    have dot : '.'.toNat = 46 := rfl
    constructor
    · intro same
      have codes := congrArg Char.toNat same
      rw [toNat_ofNat (by omega)] at codes
      omega
    · rintro rfl
      omega
  · rfl

theorem map_dotted {f : Char → Char} (h : f '.' = '.') (labels : List (List Char)) :
    (dotted labels).map f = dotted (labels.map fun label => label.map f) := by
  induction labels with
  | nil => rfl
  | cons label labels ih =>
    cases labels with
    | nil => simp
    | cons next labels =>
      rw [List.map_cons, List.map_cons]
      simp only [dotted, List.intercalate_cons_cons, List.map_append] at ih ⊢
      rw [ih, List.map_cons, h]
      simp

theorem dotted_append (a b : List Char) (labels : List (List Char)) :
    dotted ((a ++ b) :: labels) = a ++ dotted (b :: labels) := by
  cases labels <;> simp

theorem mem_dotted {labels : List (List Char)} {label : List Char} {c : Char}
    (mem : label ∈ labels) (h : c ∈ label) :
    c ∈ dotted labels := by
  induction labels with
  | nil => exact absurd mem List.not_mem_nil
  | cons first labels ih =>
    cases labels with
    | nil =>
      cases List.mem_singleton.mp mem
      simpa using h
    | cons next labels =>
      simp only [dotted, List.intercalate_cons_cons, List.mem_append] at ih ⊢
      rcases List.mem_cons.mp mem with rfl | mem
      · exact Or.inl (Or.inl h)
      · exact Or.inr (ih mem)

/-- Labels that have no dot and are not empty do not end in one. -/
theorem last_dotted {labels : List (List Char)}
    (plain : ∀ label ∈ labels, label ≠ [] ∧ '.' ∉ label) :
    ∀ c, (dotted labels).getLast? = some c → c ≠ '.' := by
  induction labels with
  | nil =>
    intro c last
    cases last
  | cons first labels ih =>
    cases labels with
    | nil =>
      intro c last
      rw [dotted, List.intercalate_singleton] at last
      rintro rfl
      exact (plain first List.mem_cons_self).2 (List.mem_of_getLast? last)
    | cons next labels =>
      intro c last
      have rest := fun label mem => plain label (List.mem_cons_of_mem first mem)
      have filled : dotted (next :: labels) ≠ [] := by
        obtain ⟨c, cs, same⟩ := List.exists_cons_of_ne_nil (rest next List.mem_cons_self).1
        have mem : c ∈ dotted (next :: labels) :=
          mem_dotted List.mem_cons_self (by rw [same]; exact List.mem_cons_self)
        exact List.ne_nil_of_mem mem
      rw [dotted, List.intercalate_cons_cons, List.getLast?_append_of_ne_nil _ filled] at last
      exact ih rest c last

theorem trimEndDots_of_last {cs : List Char} (h : ∀ c, cs.getLast? = some c → c ≠ '.') :
    trimEndDots cs = cs := by
  rw [trimEndDots]
  cases same : cs.reverse with
  | nil => rw [List.reverse_eq_nil_iff.mp same]; rfl
  | cons c rest =>
    have last : cs.getLast? = some c := by rw [← List.head?_reverse, same]; rfl
    rw [List.dropWhile_cons_of_neg (by simpa using h c last), ← same, List.reverse_reverse]

/-- Only dots are trimmed. -/
theorem mem_trimEndDots {cs : List Char} {c : Char} (mem : c ∈ cs) :
    c = '.' ∨ c ∈ trimEndDots cs := by
  rw [← List.mem_reverse, ← List.takeWhile_append_dropWhile (p := (· = '.'))
    (l := cs.reverse)] at mem
  rcases List.mem_append.mp mem with dot | kept
  · exact Or.inl (by simpa using List.mem_takeWhile_imp dot)
  · exact Or.inr (List.mem_reverse.mpr kept)

theorem textAfter_eq {labels : List (List UInt8)} :
    ∀ {name : List Char}, name ≠ [] →
      textAfter name labels = dotted (name :: labels.map lossy) := by
  induction labels with
  | nil => simp [textAfter]
  | cons label labels ih =>
    intro name filled
    have longer : push name label = name ++ '.' :: lossy label := if_neg filled
    have more : name ++ '.' :: lossy label ≠ [] := by simp
    rw [textAfter, List.foldl_cons, longer, ← textAfter, ih more, dotted_append]
    simp

/-- The text of a name is its labels, as far as they are text, with dots between them. -/
theorem textOf_eq {owner : List (List UInt8)} (named : ∀ label ∈ owner, label ≠ []) :
    textOf owner = dotted (owner.map lossy) := by
  cases owner with
  | nil => rfl
  | cons label labels =>
    have first : push [] label = lossy label := if_pos rfl
    rw [textOf, textAfter, List.foldl_cons, first, ← textAfter,
      textAfter_eq (lossy_ne_nil (named label List.mem_cons_self)), List.map_cons]

/-- What a name has to be to be asked about. -/
structure Askable (name : String) : Prop where
  ascii : ∀ c ∈ trimEndDots name.toList, c.toNat < 128
  labels : ∀ label ∈ labelsOf name, label ≠ [] ∧ label.length ≤ maxLabel
  filled : trimEndDots name.toList ≠ []

theorem askable_of_encodeName {name : String} {wire : List UInt8} (h : encodeName name = .ok wire) :
    Askable name := by
  rw [encodeName] at h
  simp only at h
  split at h
  · cases h
  next filled =>
  split at h
  · cases h
  next ascii =>
  split at h
  · cases h
  · cases h
  next fine =>
  refine ⟨?_, ?_, filled⟩
  · intro c mem
    have all := List.all_eq_true.mp (not_not.mp ascii) c mem
    exact of_decide_eq_true all
  · intro label mem
    have right := List.find?_eq_none.mp fine label mem
    simp only [Bool.or_eq_true, decide_eq_true_eq, not_or] at right
    exact ⟨right.1, Nat.le_of_not_lt right.2⟩

theorem askable_of_txtQuery {id : UInt16} {name : String} {query : List UInt8}
    (h : txtQuery id name = .ok query) :
    Askable name := by
  rw [txtQuery] at h
  cases encoded : encodeName name with
  | error e =>
    rw [encoded] at h
    cases h
  | ok wire => exact askable_of_encodeName encoded

/-- A piece of a split text has no separator. -/
theorem not_mem_splitOn {cs : List Char} : ∀ label ∈ cs.splitOn '.', '.' ∉ label := by
  induction cs with
  | nil => simp
  | cons c cs ih =>
    intro label mem
    rw [List.splitOn_cons_eq_if_modifyHead] at mem
    split at mem
    · rcases List.mem_cons.mp mem with rfl | mem
      · exact List.not_mem_nil
      · exact ih label mem
    · next other =>
      obtain ⟨first, rest, same⟩ := List.exists_cons_of_ne_nil (List.splitOn_ne_nil '.' cs)
      rw [same, List.modifyHead_cons] at mem
      rcases List.mem_cons.mp mem with rfl | mem
      · intro there
        rcases List.mem_cons.mp there with rfl | there
        · exact other (by simp)
        · exact ih first (by rw [same]; exact List.mem_cons_self) there
      · exact ih label (by rw [same]; exact List.mem_cons_of_mem first mem)

/-- Labels that are all ASCII are read as they are. -/
theorem lowercase_lossy {label : List UInt8} (ascii : ∀ b ∈ label, b.toNat < 128) :
    (lossy label).map toAsciiLowercase = wireLabel label := by
  rw [lossy_ascii ascii, List.map_map]
  rfl

theorem ascii_of_wireLabel {label : List UInt8} (ascii : ∀ c ∈ wireLabel label, c.toNat < 128) :
    ∀ b ∈ label, b.toNat < 128 := by
  intro b mem
  have small := ascii _ (List.mem_map.mpr ⟨b, mem, rfl⟩)
  have bound : b.toNat < 256 := b.toNat_lt
  rw [toAsciiLowercase_lt, toNat_ofNat (by omega)] at small
  exact small

/-- A dot among the characters of an ASCII label is a dot among its bytes. -/
theorem dot_mem_lossy {label : List UInt8} (ascii : ∀ b ∈ label, b.toNat < 128) :
    '.' ∈ lossy label ↔ (46 : UInt8) ∈ label := by
  rw [lossy_ascii ascii, List.mem_map]
  constructor
  · rintro ⟨b, mem, dot⟩
    have codes := congrArg Char.toNat dot
    have bound := ascii b mem
    rw [toNat_ofNat (by omega)] at codes
    have same : b = 46 := UInt8.toNat_inj.mp codes
    rwa [same] at mem
  · exact fun mem => ⟨46, mem, rfl⟩

section
variable {owner : List (List UInt8)} {name : String}

/-- ASCII labels without dots have no dots trimmed off. -/
theorem fold_textOf (named : ∀ label ∈ owner, label ≠ [])
    (ascii : ∀ label ∈ owner, ∀ b ∈ label, b.toNat < 128) (plain : ¬HasDot owner) :
    fold (textOf owner) = dotted (owner.map wireLabel) := by
  have parts : ∀ label ∈ owner.map lossy, label ≠ [] ∧ '.' ∉ label := by
    intro _ part
    obtain ⟨label, mem, rfl⟩ := List.mem_map.mp part
    refine ⟨lossy_ne_nil (named label mem), fun dot => plain ⟨label, mem, ?_⟩⟩
    exact (dot_mem_lossy (ascii label mem)).mp dot
  rw [fold, textOf_eq named, trimEndDots_of_last (last_dotted parts), map_dotted rfl, List.map_map]
  exact congrArg dotted (List.map_congr_left fun label mem => lowercase_lossy (ascii label mem))

theorem fold_name (name : String) :
    fold name.toList = dotted ((labelsOf name).map fun label => label.map toAsciiLowercase) := by
  rw [fold, ← map_dotted rfl, labelsOf, dotted, List.intercalate_splitOn]

/-- An owner of the same text has only ASCII labels. -/
theorem ascii_of_sameText (askable : Askable name) (named : ∀ label ∈ owner, label ≠ [])
    (same : SameText owner name) : ∀ label ∈ owner, ∀ b ∈ label, b.toNat < 128 := by
  intro label mem
  refine ascii_of_lossy fun c there => ?_
  have inText : c ∈ textOf owner := by
    rw [textOf_eq named]
    exact mem_dotted (List.mem_map.mpr ⟨label, mem, rfl⟩) there
  rcases mem_trimEndDots inText with rfl | kept
  · decide
  · have folded : toAsciiLowercase c ∈ fold name.toList := by
      rw [← same]
      exact List.mem_map.mpr ⟨c, kept, rfl⟩
    obtain ⟨c', mem', lower⟩ := List.mem_map.mp folded
    have small := askable.ascii c' mem'
    rwa [← toAsciiLowercase_lt, lower, toAsciiLowercase_lt] at small

theorem sameLabels_of_sameText (askable : Askable name) (named : ∀ label ∈ owner, label ≠ [])
    (same : SameText owner name) (plain : ¬HasDot owner) : SameLabels owner name := by
  have ascii := ascii_of_sameText askable named same
  rw [SameText, fold_textOf named ascii plain, fold_name] at same
  have noDot : ∀ label ∈ owner.map wireLabel, '.' ∉ label := by
    intro _ part dot
    obtain ⟨label, mem, rfl⟩ := List.mem_map.mp part
    rw [← lowercase_lossy (ascii label mem)] at dot
    obtain ⟨c, there, lower⟩ := List.mem_map.mp dot
    rw [toAsciiLowercase_dot] at lower
    exact plain ⟨label, mem, (dot_mem_lossy (ascii label mem)).mp (lower ▸ there)⟩
  have noDot' : ∀ label ∈ (labelsOf name).map fun label =>
      label.map toAsciiLowercase, '.' ∉ label := by
    intro _ part dot
    obtain ⟨label, mem, rfl⟩ := List.mem_map.mp part
    obtain ⟨c, there, lower⟩ := List.mem_map.mp dot
    rw [toAsciiLowercase_dot] at lower
    exact not_mem_splitOn label mem (lower ▸ there)
  have some : labelsOf name ≠ [] := List.splitOn_ne_nil _ _
  have filled : owner ≠ [] := by
    rintro rfl
    have empty : dotted (labelsOf name) = [] := by
      have none : dotted ((labelsOf name).map fun label => label.map toAsciiLowercase) =
          [] := same.symm
      rw [← map_dotted rfl] at none
      exact List.map_eq_nil_iff.mp none
    rw [labelsOf, dotted, List.intercalate_splitOn] at empty
    exact askable.filled empty
  have split := congrArg (List.splitOn '.') same
  rw [dotted, dotted, List.splitOn_intercalate '.' noDot (by simpa using filled),
    List.splitOn_intercalate '.' noDot' (by simpa using some)] at split
  exact split

theorem sameText_of_sameLabels (askable : Askable name) (named : ∀ label ∈ owner, label ≠ [])
    (same : SameLabels owner name) : SameText owner name ∧ ¬HasDot owner := by
  have paired : ∀ label ∈ owner, ∃ label' ∈ labelsOf name, wireLabel label =
      label'.map toAsciiLowercase := by
    intro label mem
    have there : wireLabel label ∈ (labelsOf name).map fun label => label.map toAsciiLowercase := by
      rw [← same]
      exact List.mem_map.mpr ⟨label, mem, rfl⟩
    obtain ⟨label', mem', lower⟩ := List.mem_map.mp there
    exact ⟨label', mem', lower.symm⟩
  have ascii : ∀ label ∈ owner, ∀ b ∈ label, b.toNat < 128 := by
    intro label mem
    obtain ⟨label', mem', lower⟩ := paired label mem
    refine ascii_of_wireLabel fun c there => ?_
    rw [lower] at there
    obtain ⟨c', there', rfl⟩ := List.mem_map.mp there
    rw [toAsciiLowercase_lt]
    refine askable.ascii c' ?_
    have inName := mem_dotted mem' there'
    rwa [labelsOf, dotted, List.intercalate_splitOn] at inName
  have plain : ¬HasDot owner := by
    rintro ⟨label, mem, dot⟩
    obtain ⟨label', mem', lower⟩ := paired label mem
    have there : '.' ∈ wireLabel label := List.mem_map.mpr ⟨46, dot, by decide⟩
    rw [lower] at there
    obtain ⟨c, there', low⟩ := List.mem_map.mp there
    rw [toAsciiLowercase_dot] at low
    exact not_mem_splitOn label' mem' (low ▸ there')
  refine ⟨?_, plain⟩
  rw [SameText, fold_textOf named ascii plain, fold_name, same]

/-- Among owners of the name's text, the name's own labels are those without a dot. -/
theorem sameLabels_iff (askable : Askable name) (named : ∀ label ∈ owner, label ≠ []) :
    SameLabels owner name ↔ SameText owner name ∧ ¬HasDot owner :=
  ⟨sameText_of_sameLabels askable named,
    fun ⟨same, plain⟩ => sameLabels_of_sameText askable named same plain⟩

end

/-- The labels that stand in a message are not empty. -/
theorem NameAt.named {message : List UInt8} {pos stop jumps : Nat} {labels : List (List UInt8)}
    (h : NameAt message pos labels stop jumps) : ∀ label ∈ labels, label ≠ [] := by
  induction h with
  | root _ => exact fun label mem => absurd mem List.not_mem_nil
  | @label pos stop jumps length label labels byte positive short found _ ih =>
    intro label' mem
    rcases List.mem_cons.mp mem with rfl | mem
    · obtain ⟨_, inside, rfl⟩ := slice_eq_some found
      rw [← List.length_pos_iff, List.length_take, List.length_drop]
      omega
    · exact ih label' mem
  | pointer _ _ _ _ ih => exact ih

end DnsWire
