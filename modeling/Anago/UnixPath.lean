import Anago.Utf8Text

/-!
# Paths

A path is bytes, and not always text. Its directory is what std takes it to be: without the
last component, and without the separators and the `.` in front of that.
-/

open Utf8Text

abbrev UnixPath := List UInt8

namespace UnixPath

/-- `Path::to_str`. -/
def toStr (path : UnixPath) : Option String := fromUtf8 path

/-- The characters of a path that is text. -/
def name (path : UnixPath) : List Char := (path.toStr.getD "").toList

theorem utf8_name {path : UnixPath} {text : String} (h : path.toStr = some text) :
    path.name = text.toList ∧ utf8 path.name = path := by
  have same : path.name = text.toList := by rw [name, h, Option.getD_some]
  have bytes : utf8 text.toList = path := asBytes_of_fromUtf8 h
  exact ⟨same, same ▸ bytes⟩

/-- The byte of `/`. -/
def separator : UInt8 := 47

def isAbsolute : UnixPath → Bool
  | b :: _ => b == separator
  | [] => false

/-- The text of an absolute path begins with a slash. -/
theorem name_absolute {path : UnixPath} {text : String} (h : path.toStr = some text)
    (absolute : path.isAbsolute = true) :
    ∃ rest, path.name = '/' :: rest := by
  obtain ⟨_, bytes⟩ := utf8_name h
  cases path with
  | nil => cases absolute
  | cons b path =>
    obtain rfl : b = separator := beq_iff_eq.mp absolute
    obtain ⟨rest, cs, _⟩ := ascii_head bytes (by decide)
    exact ⟨rest, cs⟩

/-- The last component of a path that is given backwards, and what is before its separator. -/
def lastComponent (reversed : List UInt8) : List UInt8 × List UInt8 :=
  (reversed.takeWhile (· != separator), (reversed.dropWhile (· != separator)).drop 1)

/-- Drops the empty components at the end of a path, and those that are `.`. -/
def trimRight : Nat → List UInt8 → List UInt8
  | 0, reversed => reversed
  | fuel + 1, reversed =>
    let (component, rest) := lastComponent reversed
    if reversed.isEmpty then []
    else if component == [] || component == [46] then trimRight fuel rest
    else reversed

/-- `Path::parent`, of an absolute path: what comes after its root, backwards. -/
def parentBody (body : List UInt8) : Option (List UInt8) :=
  match trimRight body.length body.reverse with
  | [] => none
  | reversed =>
    let before := (lastComponent reversed).2
    some (trimRight before.length before).reverse

/-- `Path::parent`, of an absolute path. -/
def parent : UnixPath → Option UnixPath
  | [] => none
  | root :: body => (parentBody body).map (root :: ·)

end UnixPath
