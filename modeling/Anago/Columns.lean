import Mathlib.Data.List.DropRight
import Mathlib.Data.List.Forall2

/-!
# Columns of text

Cells side by side, each filled up with blanks to the width of its column and two blanks from
the next, the last one as it is. How many columns of the screen a character takes is a
parameter. A reader that has only the heading finds the columns again, and in them the cells.
-/

namespace Columns

section
variable (w : Char → Nat)

/-- The columns of the screen that text takes. -/
def width : List Char → Nat
  | [] => 0
  | c :: cs => w c + width cs

def pad (n : Nat) (cell : List Char) : List Char := cell ++ List.replicate (n - width w cell) ' '

/-- Cells with the widths of their columns, as one line. -/
def line : List (Nat × List Char) → List Char
  | [] => []
  | [(_, cell)] => cell
  | (n, cell) :: next :: rest => pad w n cell ++ ' ' :: ' ' :: line (next :: rest)

/-- Columns as wide as before and wide enough for these cells. -/
def widen (widths : List Nat) (cells : List (List Char)) : List Nat :=
  List.zipWith max widths (cells.map (width w))

/-- Each cell has room in its column. -/
def Fits (widths : List Nat) (cells : List (List Char)) : Prop :=
  List.Forall₂ (fun n cell => width w cell ≤ n) widths cells

/-- The characters of the first `n` columns, and those right of them. -/
def takeColumn : Nat → List Char → List Char × List Char
  | _, [] => ([], [])
  | n, c :: cs =>
    if w c ≤ n then (c :: (takeColumn (n - w c) cs).1, (takeColumn (n - w c) cs).2)
      else ([], c :: cs)

def unpad (cell : List Char) : List Char := cell.rdropWhile fun c => c = ' '

/-- The cells of a line, by the widths of all columns but the last. -/
def readLine : List Nat → List Char → List (List Char)
  | [], text => [text]
  | n :: widths, text =>
    unpad (takeColumn w n text).1 :: readLine widths ((takeColumn w n text).2.drop 2)

/-- The widths of all columns but the last, from the heading. -/
def measure : List (List Char) → List Char → Option (List Nat)
  | [], _ => none
  | [title], text => if text = title then some [] else none
  | title :: next :: titles, text =>
    if title.isPrefixOf text then
      let rest := text.drop title.length
      (measure (next :: titles) (rest.dropWhile fun c => c = ' ')).map fun widths =>
        (width w title + (rest.takeWhile fun c => c = ' ').length - 2) :: widths
    else none

theorem width_append (cs ds : List Char) : width w (cs ++ ds) = width w cs + width w ds := by
  induction cs with
  | nil => simp [width]
  | cons c cs ih => rw [List.cons_append, width, width, ih, Nat.add_assoc]

end

variable {w : Char → Nat}

theorem width_replicate (blank : w ' ' = 1) (n : Nat) : width w (List.replicate n ' ') = n := by
  induction n with
  | zero => rfl
  | succ n ih => rw [List.replicate_succ, width, ih, blank, Nat.add_comm]

theorem width_pad (blank : w ' ' = 1) {n : Nat} {cell : List Char} (room : width w cell ≤ n) :
    width w (pad w n cell) = n := by
  rw [pad, width_append, width_replicate blank]
  omega

theorem takeColumn_append (seen : ∀ c, 0 < w c) (text rest : List Char) :
    takeColumn w (width w text) (text ++ rest) = (text, rest) := by
  induction text with
  | nil =>
    cases rest with
    | nil => rfl
    | cons c cs =>
      have := seen c
      rw [List.nil_append, width, takeColumn, if_neg (by omega)]
  | cons c cs ih =>
    have left : w c + width w cs - w c = width w cs := Nat.add_sub_cancel_left _ _
    rw [List.cons_append, width, takeColumn, if_pos (Nat.le_add_right _ _), left, ih]

/-- A cell ends in something that can be seen. -/
def Closed (cell : List Char) : Prop := ∃ text c, cell = text ++ [c] ∧ c ≠ ' '

theorem unpad_pad {cell : List Char} (closed : Closed cell) (n : Nat) :
    unpad (pad w n cell) = cell := by
  obtain ⟨text, c, rfl, seen⟩ := closed
  have blanks : ∀ k, unpad ((text ++ [c]) ++ List.replicate k ' ') = text ++ [c] := by
    intro k
    induction k with
    | zero =>
      rw [List.replicate_zero, List.append_nil, unpad, List.rdropWhile_concat_neg]
      simpa using seen
    | succ k ih =>
      rw [List.replicate_succ', ← List.append_assoc, unpad,
        List.rdropWhile_concat_pos _ _ _ (by simp)]
      exact ih
  exact blanks _

/-- The cells of a line are read back. -/
theorem readLine_line (seen : ∀ c, 0 < w c) (blank : w ' ' = 1) {widths : List Nat}
    {cells : List (List Char)} (fits : Fits w widths cells) (some : cells ≠ [])
    (closed : ∀ cell ∈ cells, Closed cell) :
    readLine w widths.dropLast (line w (widths.zip cells)) = cells := by
  induction fits with
  | nil => exact absurd rfl some
  | @cons n cell widths cells room fits ih =>
    cases fits with
    | nil => rfl
    | @cons n' cell' widths cells room' fits =>
      have below := ih (List.cons_ne_nil _ _) fun cell there =>
        closed cell (List.mem_cons_of_mem _ there)
      have column := takeColumn_append seen (pad w n cell)
        (' ' :: ' ' :: line w ((n' :: widths).zip (cell' :: cells)))
      rw [width_pad blank room] at column
      rw [List.dropLast_cons_cons, List.zip_cons_cons, List.zip_cons_cons, line, readLine,
        ← List.zip_cons_cons, column]
      simp only [List.drop_succ_cons, List.drop_zero]
      rw [unpad_pad (closed cell List.mem_cons_self), below]

/-- A line ends with its last cell. -/
theorem line_ends {widths : List Nat} {cells : List (List Char)} (fits : Fits w widths cells)
    {last : List Char} (ends : cells.getLast? = some last) : ∃ before, line w
    (widths.zip cells) = before ++ last := by
  induction fits with
  | nil => cases ends
  | @cons n cell widths cells room fits ih =>
    cases fits with
    | nil =>
      cases ends
      exact ⟨[], rfl⟩
    | @cons n' cell' widths cells room' fits =>
      obtain ⟨before, rest⟩ := ih (by rwa [List.getLast?_cons_cons] at ends)
      refine ⟨pad w n cell ++ ' ' :: ' ' :: before, ?_⟩
      rw [List.zip_cons_cons, List.zip_cons_cons, line, ← List.zip_cons_cons, rest]
      simp

/-- Besides blanks, a line has the characters of its cells. -/
theorem mem_line {widths : List Nat} {cells : List (List Char)}
    (fits : Fits w widths cells) {c : Char} (there : c ∈ line w (widths.zip cells)) :
    c = ' ' ∨ ∃ cell ∈ cells, c ∈ cell := by
  induction fits with
  | nil => cases there
  | @cons n cell widths cells room fits ih =>
    cases fits with
    | nil => exact .inr ⟨cell, List.mem_cons_self, there⟩
    | @cons n' cell' widths cells room' fits =>
      rw [List.zip_cons_cons, List.zip_cons_cons, line, ← List.zip_cons_cons, pad,
        List.mem_append, List.mem_append, List.mem_replicate, List.mem_cons, List.mem_cons] at there
      rcases there with (there | ⟨-, blank⟩) | blank | blank | there
      · exact .inr ⟨cell, List.mem_cons_self, there⟩
      · exact .inl blank
      · exact .inl blank
      · exact .inl blank
      · exact (ih there).imp id fun h => h.imp fun other held =>
          ⟨List.mem_cons_of_mem _ held.1, held.2⟩

/-- A title starts with something that can be seen. -/
def Open (title : List Char) : Prop := ∃ c text, title = c :: text ∧ c ≠ ' '

theorem line_starts {n : Nat} {title : List Char} (starts : Open title)
    (rest : List (Nat × List Char)) :
    Open (line w ((n, title) :: rest)) := by
  obtain ⟨c, text, rfl, seen⟩ := starts
  cases rest with
  | nil => exact ⟨c, text, rfl, seen⟩
  | cons next rest => exact ⟨c, _, rfl, seen⟩

/-- The columns are found from the heading. -/
theorem measure_line {widths : List Nat} {titles : List (List Char)} (fits : Fits w widths titles)
    (some : titles ≠ []) (starts : ∀ title ∈ titles, Open title) :
    measure w titles (line w (widths.zip titles)) = .some widths.dropLast := by
  induction fits with
  | nil => exact absurd rfl some
  | @cons n title widths titles room fits ih =>
    cases fits with
    | nil => exact if_pos rfl
    | @cons n' title' widths titles room' fits =>
      have below := ih (List.cons_ne_nil _ _) fun title there =>
        starts title (List.mem_cons_of_mem _ there)
      obtain ⟨c, text, next, seen⟩ : Open (line w ((n', title') :: widths.zip titles)) :=
        line_starts (starts title' (List.mem_cons_of_mem _ List.mem_cons_self)) _
      have gap : ∀ rest : List Char, List.replicate (n - width w title) ' ' ++ ' ' :: ' ' :: rest =
          List.replicate (n - width w title + 2) ' ' ++ rest := by
        intro rest
        rw [List.replicate_add, List.append_assoc]
        rfl
      rw [List.zip_cons_cons, next] at below
      rw [List.dropLast_cons_cons, List.zip_cons_cons, List.zip_cons_cons, line, measure, next, pad,
        List.append_assoc, gap, if_pos (List.isPrefixOf_iff_prefix.mpr (List.prefix_append _ _)),
        List.drop_left]
      simp only []
      rw [List.dropWhile_append_of_pos (by simp), List.takeWhile_append_of_pos (by simp),
        List.dropWhile_cons_of_neg (by simpa using seen), List.takeWhile_cons_of_neg
          (by simpa using seen), below,
        Option.map_some]
      simp only [List.append_nil, List.length_replicate]
      congr 2
      omega

theorem Fits.widen {widths : List Nat} {cells : List (List Char)} (fits : Fits w widths cells) :
    ∀ {other : List (List Char)}, other.length = cells.length →
      Fits w (Columns.widen w widths other) cells := by
  induction fits with
  | nil => exact fun _ => .nil
  | cons room _ ih =>
    intro other length
    cases other with
    | nil => cases length
    | cons cell other => exact .cons (room.trans (Nat.le_max_left _ _)) (ih (Nat.succ.inj length))

theorem fits_widen : ∀ {widths : List Nat} {cells : List (List Char)},
    widths.length = cells.length →
    Fits w (widen w widths cells) cells
  | [], [], _ => .nil
  | [], _ :: _, length => by cases length
  | _ :: _, [], length => by cases length
  | _ :: _, _ :: _, length => .cons (Nat.le_max_right _ _) (fits_widen (Nat.succ.inj length))

/-- In the end every row has room, and what had room before. -/
theorem fits_foldl {heading : List (List Char)} (rows : List (List (List Char)))
    (lengths : ∀ row ∈ rows, row.length = heading.length) :
    ∀ {widths : List Nat}, Fits w widths heading →
      Fits w (rows.foldl (widen w) widths) heading ∧ ∀ row ∈ rows,
      Fits w (rows.foldl (widen w) widths) row := by
  have kept : ∀ (rows : List (List (List Char))) (cells : List (List Char)) (widths : List Nat),
      (∀ row ∈ rows, row.length = cells.length) → Fits w widths cells →
        Fits w (rows.foldl (Columns.widen w) widths) cells := by
    intro rows cells
    induction rows with
    | nil => exact fun _ _ fits => fits
    | cons row rows ih =>
      intro widths lengths fits
      exact ih _ (fun other there => lengths other (List.mem_cons_of_mem _ there))
        (fits.widen (lengths row List.mem_cons_self))
  intro widths fits
  refine ⟨kept rows heading widths lengths fits, ?_⟩
  induction rows generalizing widths with
  | nil => exact fun _ there => absurd there List.not_mem_nil
  | cons row rows ih =>
    intro other there
    have rest : ∀ row ∈ rows, row.length = heading.length :=
      fun row there => lengths row (List.mem_cons_of_mem _ there)
    have first := lengths row List.mem_cons_self
    rcases List.mem_cons.mp there with rfl | there
    · exact kept rows _ _ (fun row there => (rest row there).trans first.symm)
        (fits_widen (fits.length_eq.trans first.symm))
    · exact ih rest (fits.widen first) other there

end Columns
