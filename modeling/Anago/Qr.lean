import Anago.SectionText

/-!
# Drawing a QR code

A grid of dark and light modules as lines of characters, in one of two styles, and what such
lines are read back as.
-/

open SectionText

namespace Qr

/-- Light modules on every side. -/
def quiet : Nat := 4

/-- A code as its grid of modules, row by row, `true` for dark. What `Modules::new` checks is
kept. -/
structure Modules where
  size : Nat
  dark : List Bool
  positive : 0 < size
  square : dark.length = size * size
  deriving DecidableEq

namespace Modules

/-- Light everywhere outside the code. -/
def isDark (modules : Modules) (x y : Nat) : Bool :=
  if modules.size ≤ x ∨ modules.size ≤ y then false
  else modules.dark.getD (y * modules.size + x) false

end Modules

inductive Blocks where
  | full
  | half
  deriving DecidableEq, Repr

/-- The columns a code of this size needs. -/
def columns (size : Nat) (blocks : Blocks) : Nat :=
  let modules := size + 2 * quiet
  match blocks with
  | .full => modules * 2
  | .half => modules

/-- The lines it takes up. -/
def rows (size : Nat) (blocks : Blocks) : Nat :=
  let modules := size + 2 * quiet
  match blocks with
  | .full => modules
  | .half => (modules + 1) / 2

/-- The widest style that fits. -/
def fit (size available : Nat) : Option Blocks :=
  [.full, .half].find? fun blocks => columns size blocks ≤ available

/-- Black on white. -/
def ink : List Char := "\x1b[30;47m".toList

def reset : List Char := "\x1b[0m".toList

/-- What `draw_with` looks up: the code is moved in by the quiet zone. -/
def framed (modules : Modules) (x y : Nat) : Bool :=
  decide (quiet ≤ x) && decide (quiet ≤ y) && modules.isDark (x - quiet) (y - quiet)

def fullBlock (dark : Bool) : List Char := if dark then ['█', '█'] else [' ', ' ']

def halfBlock (top bottom : Bool) : Char :=
  match top, bottom with
  | true, true => '█'
  | true, false => '▀'
  | false, true => '▄'
  | false, false => ' '

def drawWith (modules : Modules) (blocks : Blocks) : String :=
  let span := modules.size + 2 * quiet
  let dark := framed modules
  match blocks with
  | .full =>
    String.ofList <| (List.range span).flatMap fun y =>
      ink ++ ((List.range span).flatMap fun x => fullBlock (dark x y)) ++ reset ++ ['\n']
  | .half =>
    String.ofList <| (List.range ((span + 1) / 2)).flatMap fun pair =>
      ink ++ ((List.range span).map fun x => halfBlock (dark x (pair * 2))
        (dark x (pair * 2 + 1))) ++ reset ++ ['\n']

inductive Drawing where
  | code (text : String)
  | tooNarrow (needed available : Nat)
  deriving DecidableEq

def draw (modules : Modules) (available : Nat) : Drawing :=
  match fit modules.size available with
  | none => .tooNarrow (columns modules.size .half) available
  | some blocks => .code (drawWith modules blocks)

/-- A text without its escape sequences, each of which ends in an `m`. Whether one has begun
is known. -/
def strip : Bool → List Char → List Char
  | _, [] => []
  | true, c :: cs => strip (c ≠ 'm') cs
  | false, c :: cs => if c = '\x1b' then strip true cs else c :: strip false cs

/-- A module takes two equal characters. -/
def readFull : List Char → Option (List Bool)
  | [] => some []
  | '█' :: '█' :: cs => (readFull cs).map (true :: ·)
  | ' ' :: ' ' :: cs => (readFull cs).map (false :: ·)
  | _ => none

def readHalfBlock : Char → Option (Bool × Bool)
  | '█' => some (true, true)
  | '▀' => some (true, false)
  | '▄' => some (false, true)
  | ' ' => some (false, false)
  | _ => none

/-- A character is a module above another. -/
def readHalf : List Char → Option (List Bool × List Bool)
  | [] => some ([], [])
  | c :: cs =>
    match readHalfBlock c, readHalf cs with
    | some (top, bottom), some (tops, bottoms) => some (top :: tops, bottom :: bottoms)
    | _, _ => none

/-- The rows of modules that some lines show. -/
def readBack (blocks : Blocks) (lines : List (List Char)) : Option (List (List Bool)) :=
  match blocks with
  | .full => lines.mapM fun line => readFull (strip false line)
  | .half =>
    (lines.mapM fun line => readHalf (strip false line)).map fun pairs =>
      pairs.flatMap fun pair => [pair.1, pair.2]

/-- The rows of a grid. -/
def Modules.grid (modules : Modules) : List (List Bool) :=
  (List.range modules.size).map fun y => (modules.dark.drop (y * modules.size)).take modules.size

/-- A row of so many light modules. -/
def light (span : Nat) : List Bool := List.replicate span false

/-- A row or a column of things between so many others on both sides. -/
def between {α : Type} (a : α) (as : List α) : List α :=
  List.replicate quiet a ++ as ++ List.replicate quiet a

/-- The grid with light modules on all four sides. -/
def surrounded (modules : Modules) : List (List Bool) :=
  between (light (modules.size + 2 * quiet)) (modules.grid.map (between false))

/-- What is to be seen: in half blocks an odd number of rows has a light one added. -/
def shown (modules : Modules) (blocks : Blocks) : List (List Bool) :=
  match blocks with
  | .full => surrounded modules
  | .half =>
    surrounded modules ++
      if (modules.size + 2 * quiet) % 2 = 1 then [light (modules.size + 2 * quiet)] else []

theorem strip_plain {cs : List Char} (plain : '\x1b' ∉ cs) (rest : List Char) :
    strip false (cs ++ rest) = cs ++ strip false rest := by
  induction cs with
  | nil => rfl
  | cons c cs ih =>
    rw [List.mem_cons, not_or] at plain
    rw [List.cons_append, strip, if_neg (Ne.symm plain.1), ih plain.2]
    rfl

theorem strip_line {cs : List Char} (plain : '\x1b' ∉ cs) :
    strip false (ink ++ cs ++ reset) = cs := by
  have opened : strip false (ink ++ (cs ++ reset)) = strip false (cs ++ reset) := rfl
  have closed : strip false reset = [] := rfl
  rw [List.append_assoc, opened, strip_plain plain, closed, List.append_nil]

theorem readFull_fullBlock (dark : List Bool) : readFull (dark.flatMap fullBlock) = some dark := by
  induction dark with
  | nil => rfl
  | cons d dark ih => cases d <;> simp [fullBlock, readFull, ih]

theorem length_fullBlocks (dark : List Bool) :
    (dark.flatMap fullBlock).length = dark.length * 2 := by
  induction dark with
  | nil => rfl
  | cons d dark ih =>
    have two : (fullBlock d).length = 2 := by cases d <;> rfl
    rw [List.flatMap_cons, List.length_append, two, ih, List.length_cons]
    omega

theorem readHalf_halfBlock (dark : List (Bool × Bool)) :
    readHalf (dark.map fun d => halfBlock d.1 d.2) = some (dark.map Prod.fst,
      dark.map Prod.snd) := by
  induction dark with
  | nil => rfl
  | cons d dark ih =>
    obtain ⟨top, bottom⟩ := d
    have block : readHalfBlock (halfBlock top bottom) = some (top, bottom) := by
      cases top <;> cases bottom <;> rfl
    simp only [List.map_cons, readHalf, block, ih]

theorem mapM_map {α β γ : Type} {f : α → β} {g : β → Option γ} {h : α → γ}
    (same : ∀ a, g (f a) = some (h a)) (as : List α) : (as.map f).mapM g = some (as.map h) := by
  induction as with
  | nil => rfl
  | cons a as ih =>
    rw [List.map_cons, List.mapM_cons, same, ih]
    rfl

section
variable (modules : Modules)

/-- A row of the picture, the quiet zone included. -/
def row (y : Nat) : List Bool :=
  (List.range (modules.size + 2 * quiet)).map fun x => framed modules x y

/-- The lines of a drawing. -/
def linesOf (blocks : Blocks) : List (List Char) :=
  match blocks with
  | .full =>
    (List.range (modules.size + 2 * quiet)).map fun y =>
      ink ++ (row modules y).flatMap fullBlock ++ reset
  | .half =>
    (List.range ((modules.size + 2 * quiet + 1) / 2)).map fun pair =>
      ink ++ (List.range (modules.size + 2 * quiet)).map
        (fun x => halfBlock (framed modules x (pair * 2))
          (framed modules x (pair * 2 + 1))) ++ reset

theorem drawWith_lines (blocks : Blocks) :
    (drawWith modules blocks).toList = unlines (linesOf modules blocks) := by
  cases blocks with
  | full => simp [drawWith, linesOf, unlines, row, List.flatMap_map]
  | half => simp [drawWith, linesOf, unlines, List.flatMap_map]

theorem length_linesOf (blocks : Blocks) :
    (linesOf modules blocks).length = rows modules.size blocks := by
  cases blocks <;> simp [linesOf, rows]

theorem fullBlock_plain (dark : List Bool) :
    ∀ c ∈ dark.flatMap fullBlock, c ≠ '\x1b' ∧ c ≠ '\n' := by
  intro c mem
  obtain ⟨d, _, there⟩ := List.mem_flatMap.mp mem
  cases d
  · obtain rfl : c = ' ' := by simpa [fullBlock] using there
    decide
  · obtain rfl : c = '█' := by simpa [fullBlock] using there
    decide

theorem halfBlock_plain (top bottom : Bool) :
    halfBlock top bottom ≠ '\x1b' ∧ halfBlock top bottom ≠ '\n' := by
  cases top <;> cases bottom <;> decide

/-- A line is ink around some characters that are neither an escape nor a newline. -/
theorem line_eq (blocks : Blocks) : ∀ line ∈ linesOf modules blocks, ∃ cells,
    line = ink ++ cells ++ reset ∧
    (∀ c ∈ cells, c ≠ '\x1b' ∧ c ≠ '\n') ∧ cells.length = columns modules.size blocks := by
  intro line mem
  cases blocks with
  | full =>
    obtain ⟨y, _, rfl⟩ := List.mem_map.mp mem
    refine ⟨_, rfl, fullBlock_plain _, ?_⟩
    rw [length_fullBlocks, row, List.length_map, List.length_range, columns]
  | half =>
    obtain ⟨pair, _, rfl⟩ := List.mem_map.mp mem
    refine ⟨_, rfl, ?_, by simp [columns]⟩
    intro c there
    obtain ⟨x, _, rfl⟩ := List.mem_map.mp there
    exact halfBlock_plain _ _

theorem readBack_full : readBack .full (linesOf modules .full) =
    some ((List.range (modules.size + 2 * quiet)).map (row modules)) := by
  refine mapM_map (fun y => ?_) _
  have plain : '\x1b' ∉ (row modules y).flatMap fullBlock := fun mem =>
    (fullBlock_plain _ _ mem).1 rfl
  rw [strip_line plain, readFull_fullBlock]

theorem readBack_half : readBack .half (linesOf modules .half) =
    some ((List.range ((modules.size + 2 * quiet + 1) / 2)).flatMap fun pair =>
      [row modules (pair * 2), row modules (pair * 2 + 1)]) := by
  have lines : (linesOf modules .half).mapM (fun line => readHalf (strip false line)) =
      some ((List.range ((modules.size + 2 * quiet + 1) / 2)).map fun pair =>
        (row modules (pair * 2), row modules (pair * 2 + 1))) := by
    refine mapM_map (fun pair => ?_) _
    have read := readHalf_halfBlock ((List.range (modules.size + 2 * quiet)).map fun x =>
      (framed modules x (pair * 2), framed modules x (pair * 2 + 1)))
    rw [List.map_map, List.map_map, List.map_map] at read
    rw [strip_line]
    · exact read
    · intro mem
      obtain ⟨x, _, same⟩ := List.mem_map.mp mem
      exact (halfBlock_plain _ _).1 same
  rw [readBack, lines, Option.map_some, List.flatMap_map]

/-- A run of places that starts and ends with a quiet zone. -/
theorem map_range_between {α : Type} {f : Nat → α} {a : α} {n : Nat}
    (before : ∀ i < quiet, f i = a) (after : ∀ i, quiet + n ≤ i → f i = a) :
    (List.range (n + 2 * quiet)).map f = between a ((List.range n).map fun i => f (quiet + i)) := by
  have split : n + 2 * quiet = quiet + n + quiet := by omega
  have first : (List.range quiet).map f = List.replicate quiet a := by
    rw [List.eq_replicate_iff]
    simpa using before
  have last : (List.range quiet).map (fun i => f (quiet + n + i)) = List.replicate quiet a := by
    rw [List.eq_replicate_iff]
    simpa using fun i _ => after _ (Nat.le_add_right _ i)
  rw [split, List.range_add, List.range_add, List.map_append, List.map_append, List.map_map,
    List.map_map, first]
  exact congrArg₂ _ (congrArg₂ _ rfl rfl) last

/-- Two rows to a line are all the rows. -/
theorem flatMap_pairs {α : Type} (f : Nat → α) (n : Nat) :
    ((List.range n).flatMap fun pair => [f (pair * 2), f (pair * 2 + 1)]) =
    (List.range (n * 2)).map f := by
  induction n with
  | zero => rfl
  | succ n ih =>
    rw [List.range_succ, List.flatMap_append, ih,
      show (n + 1) * 2 = n * 2 + 1 + 1 by omega, List.range_succ, List.range_succ]
    simp

theorem framed_outside {x y : Nat}
    (h : x < quiet ∨ quiet + modules.size ≤ x ∨ y < quiet ∨ quiet + modules.size ≤ y) :
    framed modules x y = false := by
  rw [framed]
  by_cases inside : quiet ≤ x ∧ quiet ≤ y
  · have outside : modules.size ≤ x - quiet ∨ modules.size ≤ y - quiet := by omega
    rw [Modules.isDark, if_pos outside, Bool.and_false]
  · have short : (decide (quiet ≤ x) && decide (quiet ≤ y)) = false := by simpa using inside
    rw [short, Bool.false_and]

theorem framed_inside (x y : Nat) :
    framed modules (quiet + x) (quiet + y) = modules.isDark x y := by
  simp [framed]

theorem row_outside {y : Nat} (h : y < quiet ∨ quiet + modules.size ≤ y) :
    row modules y = light (modules.size + 2 * quiet) := by
  rw [row, light, List.eq_replicate_iff]
  refine ⟨by simp, fun d mem => ?_⟩
  obtain ⟨x, _, rfl⟩ := List.mem_map.mp mem
  exact framed_outside modules (Or.inr (Or.inr h))

theorem row_inside {y : Nat} (h : y < modules.size) :
    row modules (quiet + y) =
      between false ((modules.dark.drop (y * modules.size)).take modules.size) := by
  rw [row, map_range_between (a := false)]
  · refine congrArg _ (List.ext_getElem ?_ fun x left right => ?_)
    · have room : (y + 1) * modules.size ≤ modules.size * modules.size := Nat.mul_le_mul_right _ h
      rw [Nat.succ_mul] at room
      simp [modules.square]
      omega
    · simp only [List.length_map, List.length_range] at left
      simp only [List.getElem_map, List.getElem_range, List.getElem_take, List.getElem_drop]
      rw [framed_inside, Modules.isDark, if_neg (by omega), List.getD_eq_getElem?_getD,
        List.getElem?_eq_getElem, Option.getD_some]
  · exact fun x before => framed_outside modules (Or.inl before)
  · exact fun x after => framed_outside modules (Or.inr (Or.inl after))

/-- The picture is the grid in its quiet zone. -/
theorem rows_eq : (List.range (modules.size + 2 * quiet)).map
    (row modules) = surrounded modules := by
  rw [map_range_between (a := light (modules.size + 2 * quiet))]
  · rw [surrounded, Modules.grid, List.map_map]
    refine congrArg _ (List.map_congr_left fun y mem => ?_)
    exact row_inside modules (List.mem_range.mp mem)
  · exact fun y before => row_outside modules (Or.inl before)
  · exact fun y after => row_outside modules (Or.inr after)

theorem readBack_linesOf (blocks : Blocks) :
    readBack blocks (linesOf modules blocks) = some (shown modules blocks) := by
  cases blocks with
  | full => rw [readBack_full, rows_eq, shown]
  | half =>
    rw [readBack_half, flatMap_pairs, shown]
    by_cases odd : (modules.size + 2 * quiet) % 2 = 1
    · have more : (modules.size + 2 * quiet + 1) / 2 * 2 = modules.size + 2 * quiet + 1 := by omega
      have four : quiet = 4 := rfl
      rw [more, List.range_succ, List.map_append, rows_eq, if_pos odd, List.map_singleton,
        row_outside modules (Or.inr (by omega))]
    · have same : (modules.size + 2 * quiet + 1) / 2 * 2 = modules.size + 2 * quiet := by omega
      rw [same, rows_eq, if_neg odd, List.append_nil]

end

theorem line_plain (m : Modules) (blocks : Blocks) : ∀ line ∈ linesOf m blocks, '\n' ∉ line := by
  intro line mem
  obtain ⟨cells, rfl, plain, _⟩ := line_eq m blocks line mem
  have inked : '\n' ∉ ink := by decide
  have ended : '\n' ∉ reset := by decide
  rw [List.mem_append, List.mem_append]
  rintro ((there | there) | there)
  · exact inked there
  · exact (plain _ there).2 rfl
  · exact ended there

theorem lines_eq (m : Modules) (blocks : Blocks) :
    (drawWith m blocks).toList.splitOn '\n' = linesOf m blocks ++ [[]] := by
  rw [drawWith_lines, splitOn_unlines (line_plain m blocks)]

theorem between_inj {α : Type} {a : α} {as bs : List α}
    (h : between a as = between a bs) : as = bs := by
  rw [between, between] at h
  exact List.append_cancel_left (List.append_cancel_right h)

/-- The rows one after another are the grid. -/
theorem flatten_grid (m : Modules) : m.grid.flatten = m.dark := by
  have front : ∀ k, ((List.range k).map fun y => (m.dark.drop (y * m.size)).take m.size).flatten =
      m.dark.take (k * m.size) := by
    intro k
    induction k with
    | zero => simp
    | succ k ih =>
      rw [List.range_succ, List.map_append, List.flatten_append, ih, Nat.succ_mul, List.take_add]
      simp
  rw [Modules.grid, front, ← m.square, List.take_length]

theorem eq_of_surrounded {m m' : Modules} (size : m.size = m'.size)
    (h : surrounded m = surrounded m') : m = m' := by
  rw [surrounded, surrounded, size] at h
  have rows := (List.map_inj_right fun _ _ same => between_inj same).mp (between_inj h)
  have dark : m.dark = m'.dark := by rw [← flatten_grid, rows, flatten_grid]
  cases m
  cases m'
  cases size
  cases dark
  rfl

theorem size_of_lines {m m' : Modules} {blocks : Blocks}
    (h : linesOf m blocks = linesOf m' blocks) :
    m.size = m'.size := by
  have some : linesOf m blocks ≠ [] := by
    have count := length_linesOf m blocks
    have four : quiet = 4 := rfl
    intro none
    rw [none] at count
    cases blocks <;> simp only [rows, List.length_nil] at count <;> omega
  obtain ⟨line, lines, same⟩ := List.exists_cons_of_ne_nil some
  have mem : line ∈ linesOf m blocks := by rw [same]; exact List.mem_cons_self
  obtain ⟨cells, rfl, _, width⟩ := line_eq m blocks line mem
  obtain ⟨cells', same', _, width'⟩ := line_eq m' blocks _ (h ▸ mem)
  obtain rfl : cells = cells' := List.append_cancel_left (List.append_cancel_right same')
  rw [width'] at width
  cases blocks <;> simp only [columns] at width <;> omega

/-- Of two drawings of one style, or of grids of one size, the text tells them apart. -/
theorem eq_of_drawWith {m m' : Modules} {blocks blocks' : Blocks}
    (alike : blocks = blocks' ∨ m.size = m'.size) (h : drawWith m blocks = drawWith m' blocks') :
    m = m' ∧ blocks = blocks' := by
  have lines : linesOf m blocks = linesOf m' blocks' := by
    have texts := lines_eq m blocks
    rw [h, lines_eq m' blocks'] at texts
    exact (List.append_cancel_right texts).symm
  have style : blocks = blocks' := by
    rcases alike with same | size
    · exact same
    · have count := length_linesOf m blocks
      rw [lines, length_linesOf m' blocks', size] at count
      have four : quiet = 4 := rfl
      cases blocks <;> cases blocks' <;> simp only [rows] at count
      · rfl
      · omega
      · omega
      · rfl
  subst style
  have size := size_of_lines lines
  have seen := readBack_linesOf m blocks
  rw [lines, readBack_linesOf m' blocks] at seen
  refine ⟨eq_of_surrounded size ?_, rfl⟩
  have shown := Option.some.inj seen
  cases blocks with
  | full => exact shown.symm
  | half =>
    rw [Qr.shown, Qr.shown, size] at shown
    exact (List.append_cancel_right shown).symm

/-- The wide style where it fits, else the narrow one, else none. -/
theorem draw_eq (m : Modules) (available : Nat) :
    draw m available =
      if columns m.size .full ≤ available then .code (drawWith m .full)
      else if columns m.size .half ≤ available then .code (drawWith m .half)
      else .tooNarrow (columns m.size .half) available := by
  rw [draw, fit, List.find?_cons, List.find?_cons, List.find?_nil]
  by_cases wide : columns m.size .full ≤ available
  · simp only [wide, decide_true, if_true]
  · by_cases narrow : columns m.size .half ≤ available
    · simp only [wide, narrow, decide_true, decide_false, if_true, if_false]
    · simp only [wide, narrow, decide_false, if_false]

/-- A drawing is lines of the promised number and width that read back as the grid in its
quiet zone. No other grid gives it in the same style, nor one of the same size in any. What
is drawn for a terminal fits on it, and is the wide style whenever that fits. -/
theorem drawWith_carries (m : Modules) (blocks : Blocks) :
    ∃ lines, (drawWith m blocks).toList = lines.flatMap (· ++ ['\n']) ∧
      lines.length = rows m.size blocks ∧
      (∀ line ∈ lines, '\n' ∉ line ∧ (strip false line).length = columns m.size blocks) ∧
      readBack blocks lines = some (shown m blocks) ∧
      (∀ m' blocks', drawWith m blocks = drawWith m' blocks' →
        blocks = blocks' ∨ m.size = m'.size → m = m') ∧
      ∀ available,
        (columns m.size .full ≤ available → draw m available = .code (drawWith m .full)) ∧
        (available < columns m.size .full → columns m.size .half ≤ available →
          draw m available = .code (drawWith m .half)) ∧
        (available < columns m.size .half →
          draw m available = .tooNarrow (columns m.size .half) available) ∧
        ∀ text, draw m available = .code text → ∃ style, text = drawWith m style ∧
          ∀ line ∈ linesOf m style, (strip false line).length ≤ available := by
  have width : ∀ style, ∀ line ∈ linesOf m style,
      (strip false line).length = columns m.size style := by
    intro style line mem
    obtain ⟨cells, rfl, plain, width⟩ := line_eq m style line mem
    rw [strip_line fun mem => (plain _ mem).1 rfl, width]
  have narrower : columns m.size .half ≤ columns m.size .full := by
    simp only [columns]
    omega
  refine ⟨linesOf m blocks, drawWith_lines m blocks, length_linesOf m blocks,
    fun line mem => ⟨line_plain m blocks line mem, width blocks line mem⟩,
    readBack_linesOf m blocks, fun m' blocks' same alike => (eq_of_drawWith alike same).1, ?_⟩
  intro available
  rw [draw_eq]
  refine ⟨fun wide => if_pos wide, fun small narrow => ?_, fun small => ?_, fun text drawn => ?_⟩
  · rw [if_neg (Nat.not_le.mpr small), if_pos narrow]
  · rw [if_neg (Nat.not_le.mpr (small.trans_le narrower)), if_neg (Nat.not_le.mpr small)]
  · split at drawn
    · next fits =>
      cases drawn
      exact ⟨.full, rfl, fun line mem => (width .full line mem).trans_le fits⟩
    · split at drawn
      · next fits =>
        cases drawn
        exact ⟨.half, rfl, fun line mem => (width .half line mem).trans_le fits⟩
      · cases drawn

/-- One dark module. -/
def speck : Modules := ⟨1, [true], by decide, by decide⟩

/-- Two by two dark modules, in the middle of ten by ten. -/
def blot : Modules :=
  ⟨10, (List.range 100).map fun i => i = 44 || i = 45 || i = 54 || i = 55, by decide, by decide⟩

/-- On a terminal of 18 columns they are one and the same text, in two styles. -/
theorem drawWith_styles_meet :
    speck ≠ blot ∧ draw speck 18 = .code (drawWith speck .full) ∧
      draw blot 18 = .code (drawWith blot .half) ∧
      drawWith speck .full = drawWith blot .half := by
  have sizes : speck.size ≠ blot.size := by decide
  have lines : linesOf speck .full = linesOf blot .half := by decide +kernel
  refine ⟨fun same => sizes (congrArg _ same), rfl, rfl, ?_⟩
  rw [← String.toList_inj, drawWith_lines, drawWith_lines, lines]

end Qr
