import Mathlib.Data.List.Basic

/-!
# Paths that are text

Two paths are the same to std when their components are: empty ones do not count, nor does a
`.` that is not the first of a relative path.
-/

namespace PathText

/-- What a path names: its components, the root as a component of its own. -/
abbrev Spot := List (List Char)

/-- Whether a component counts that is not the first. -/
def counts (component : List Char) : Bool := component ≠ [] && component ≠ ['.']

/-- `Path::components`, on the characters. -/
def componentsOf (path : List Char) : Spot :=
  match path.splitOn '/' with
  | [] => []
  | first :: rest =>
    (if path.head? = some '/' then [['/']] else if first = [] then [] else [first]) ++
      rest.filter counts

def components (path : String) : Spot := componentsOf path.toList

/-- `Path::eq`. -/
def samePath (path path' : String) : Bool := components path = components path'

@[simp] theorem samePath_iff {path path' : String} :
    samePath path path' = true ↔ components path = components path' := decide_eq_true_iff

/-- `Path::join`, of a relative path. -/
def join (base name : String) : String :=
  if base.toList.getLast?.all fun c => c = '/' then base ++ name else base ++ "/" ++ name

section
variable {name : List Char} (plain : '/' ∉ name) (there : counts name = true)
include plain

theorem splitOn_plain : name.splitOn '/' = [name] := by
  have none : ∀ c ∈ name, (c == '/') = false := by
    intro c mem
    rw [beq_eq_false_iff_ne]
    rintro rfl
    exact plain mem
  rw [List.splitOn_eq_splitOnP, List.splitOnP_eq_singleton none]

theorem splitOn_append (front : List Char) :
    (front ++ '/' :: name).splitOn '/' = front.splitOn '/' ++ [name] := by
  rw [← splitOn_plain plain, List.splitOn_eq_splitOnP, List.splitOn_eq_splitOnP,
    List.splitOn_eq_splitOnP, List.splitOnP_append_cons front name (by decide)]

include there

theorem componentsOf_plain : componentsOf name = [name] := by
  have some : name ≠ [] := by
    rintro rfl
    cases there
  have relative : name.head? ≠ .some '/' := fun head => plain (List.mem_of_head? head)
  rw [componentsOf, splitOn_plain plain]
  simp only [relative, some, if_false, List.filter_nil, List.append_nil]

/-- The one component of a path right under the root. -/
theorem componentsOf_root : componentsOf ('/' :: name) = componentsOf ['/'] ++ [name] := by
  have split : ('/' :: name).splitOn '/' = [[], name] := splitOn_append plain []
  have kept : [name].filter counts = [name] := by simp [there]
  rw [componentsOf, split]
  simp only [kept]
  rfl

/-- A component goes to the end, with a separator that may be there. -/
theorem componentsOf_append {front : List Char} (some : front ≠ []) :
    componentsOf (front ++ '/' :: name) = componentsOf front ++ [name] ∧
      componentsOf (front ++ ['/']) = componentsOf front := by
  have head : ∀ back : List Char, (front ++ back).head? = front.head? := by
    intro back
    rw [List.head?_append_of_ne_nil _ some]
  have kept : [name].filter counts = [name] := by simp [there]
  have dropped : ([[]] : Spot).filter counts = [] := by decide
  obtain ⟨first, rest, pieces⟩ := List.exists_cons_of_ne_nil (List.splitOn_ne_nil '/' front)
  constructor
  · rw [componentsOf, componentsOf, splitOn_append plain, pieces, List.cons_append]
    simp only [head, List.filter_append, kept, List.append_assoc]
  · rw [componentsOf, componentsOf, splitOn_append List.not_mem_nil, pieces, List.cons_append]
    simp only [head, List.filter_append, dropped, List.append_nil]

end

theorem components_join (base : String) {name : String} (plain : '/' ∉ name.toList)
    (there : counts name.toList = true) : components (join base name) =
      components base ++ [name.toList] := by
  rw [components, components, join]
  rcases List.eq_nil_or_concat base.toList with none | ⟨front, last, ends⟩
  · rw [none, if_pos (by rfl), String.toList_append, none, List.nil_append,
      componentsOf_plain plain there]
    rfl
  · rw [List.concat_eq_append] at ends
    rw [ends, List.getLast?_concat]
    split
    · next slash =>
      obtain rfl : last = '/' := by simpa using slash
      rw [String.toList_append, ends, List.append_assoc, List.singleton_append]
      rcases List.eq_nil_or_concat front with rfl | ⟨front, last, rfl⟩
      · exact componentsOf_root plain there
      · obtain ⟨longer, same⟩ := componentsOf_append plain there (by simp : front.concat last ≠ [])
        rw [longer, same]
    · rw [String.toList_append, String.toList_append, ends, List.append_assoc]
      exact (componentsOf_append plain there (by simp)).1

end PathText
