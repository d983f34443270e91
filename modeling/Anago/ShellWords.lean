import Anago.QuotedWords
import Mathlib.Data.List.TakeWhile

/-!
# What cron and the shell make of a line

cron reads an entry first: a percent sign ends the command unless a backslash is before it,
which goes with it. The shell reads what is left: single quotes and backslashes quote, and a
command is simple if nothing in it means more than a word.
-/

open QuotedWords

namespace Shell

/-- cron's pass over a command. -/
def unescape : List Char → List Char
  | [] => []
  | '\\' :: c :: rest => if c = '%' then '%' :: unescape rest else '\\' :: c :: unescape rest
  | c :: rest => if c = '%' then [] else c :: unescape rest

/-- What cron hands to the shell of an entry. -/
def cronCommand (entry : List Char) : List Char := unescape (entry.takeWhile (· != '\n'))

/-- The rules of `sh`: what pipes, redirects, expands or globs stands in no plain word. -/
def rules : Rules where
  blank c := c == ' ' || c == '\t'
  quote c := c == '\''
  escapes := false
  barred c := "|&;<>()$`\"*?[\n".toList.contains c

def nameChar (piece : Piece) : Bool := !piece.quoted && (piece.char.isAlphanum || piece.char == '_')

/-- Whether a word assigns to a variable. -/
def assigns (word : Word) : Bool :=
  let front := word.takeWhile nameChar
  !front.isEmpty && !(front.head?.any fun piece => piece.char.isDigit) &&
    (word.drop front.length).head?.any fun piece => !piece.quoted && piece.char == '='

def reservedWords : List (List Char) :=
  ["!".toList, "\x7b".toList, "\x7d".toList, "case".toList, "do".toList, "done".toList,
    "elif".toList, "else".toList, "esac".toList, "fi".toList, "for".toList, "if".toList,
    "in".toList, "then".toList, "until".toList, "while".toList]

/-- Whether a word is one of the shell's own. -/
def reserved (word : Word) : Bool :=
  word.all (fun piece => !piece.quoted) && reservedWords.contains (text word)

/-- Whether a word begins with a home directory or a comment. -/
def expands (word : Word) : Bool :=
  word.head?.any fun piece => !piece.quoted && (piece.char == '~' || piece.char == '#')

/-- The words of a line that is one simple command. -/
def simpleCommand (line : List Char) : Option (List (List Char)) := do
  let ws ← words rules line
  match ws with
  | [] => none
  | first :: _ =>
    if assigns first || reserved first || ws.any expands then none else some (ws.map text)

/-- A text that cron's pass makes another of. -/
def Passes (cs out : List Char) : Prop := ∀ rest, unescape (cs ++ rest) = out ++ unescape rest

theorem passes_nil : Passes [] [] := fun _ => rfl

theorem Passes.append {cs ds out out' : List Char} (first : Passes cs out)
    (second : Passes ds out') :
    Passes (cs ++ ds) (out ++ out') := by
  intro rest
  rw [List.append_assoc, first, second, List.append_assoc]

theorem passes_char {c : Char} (slash : c ≠ '\\') (percent : c ≠ '%') : Passes [c] [c] := by
  intro rest
  rw [List.singleton_append, unescape]
  · rw [if_neg percent]
    rfl
  · rintro _ _ rfl
    exact absurd rfl slash

theorem passes_percent : Passes ['\\', '%'] ['%'] := fun _ => rfl

theorem passes_escape {c : Char} (percent : c ≠ '%') : Passes ['\\', c] ['\\', c] := by
  intro rest
  simp [unescape, percent]

theorem passes_flatMap {f g : Char → List Char} {cs : List Char}
    (each : ∀ c ∈ cs, Passes (f c) (g c)) :
    Passes (cs.flatMap f) (cs.flatMap g) := by
  induction cs with
  | nil => exact passes_nil
  | cons c cs ih =>
    exact (each c List.mem_cons_self).append (ih fun d hd => each d (List.mem_cons_of_mem c hd))

/-- What cron makes of one line. -/
theorem Passes.cronCommand {entry out : List Char} (line : '\n' ∉ entry) (h : Passes entry out) :
    cronCommand entry = out := by
  have whole : entry.takeWhile (· != '\n') = entry := by
    rw [List.takeWhile_eq_self_iff]
    intro c hc
    rw [bne_iff_ne]
    rintro rfl
    exact line hc
  have pass := h []
  rw [List.append_nil] at pass
  rw [Shell.cronCommand, whole, pass, unescape, List.append_nil]

/-- A word that begins with a slash is a word and no more. -/
theorem slash_word {word : Word} {rest : List Char} (h : text word = '/' :: rest) :
    assigns word = false ∧ reserved word = false ∧ expands word = false := by
  cases word with
  | nil => cases h
  | cons piece word =>
    obtain ⟨first, _⟩ := List.cons.inj h
    refine ⟨?_, ?_, ?_⟩
    · have none : (piece :: word).takeWhile nameChar = [] := by
        rw [List.takeWhile_cons_of_neg]
        simp [nameChar, first]
      simp [assigns, none]
    · have other : reservedWords.contains (text (piece :: word)) = false := by
        rw [h]
        simp [reservedWords]
      rw [reserved, other, Bool.and_false]
    · simp [expands, first]

theorem simpleCommand_words {line : List Char} {first : Word} {rest : List Word}
    (read : words rules line = some (first :: rest)) (free : assigns first = false)
    (own : reserved first = false) (none : ∀ word ∈ first :: rest, expands word = false) :
    simpleCommand line = some ((first :: rest).map text) := by
  have all : (first :: rest).any expands = false := List.any_eq_false.mpr fun word h => by
    rw [none word h]; decide
  rw [simpleCommand, read]
  simp only [Option.bind_eq_bind, Option.bind_some, free, own, all, Bool.or_self,
    Bool.false_eq_true, if_false]

end Shell
