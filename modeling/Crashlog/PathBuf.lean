import Crashlog.Text

/-!
# Paths

A Unix path is a text. Joining an absolute path to another one replaces it, so
a join does not simply append; where the components of the result lead, seen
from a directory, is what the components of both lead to one after the other.
-/

namespace Crashlog

abbrev PathBuf := String

namespace PathBuf

def isAbsolute (path : PathBuf) : Bool := path.toList.head? == some '/'

/-- A separator is added unless one is there. -/
def push (base path : PathBuf) : PathBuf :=
  if isAbsolute path then path
  else if base.toList.getLast?.any (· != '/') then base ++ String.singleton '/' ++ path
  else base ++ path

def extend (base : PathBuf) (paths : List PathBuf) : PathBuf := paths.foldl push base

def collect (paths : List PathBuf) : PathBuf := extend "" paths

/-- Repeated separators and inner dots do not count. -/
def names (path : PathBuf) : List String :=
  (Text.split '/' path).filter fun name => name != "" && name != "."

def components (path : PathBuf) : List String :=
  if isAbsolute path then "/" :: names path
  else if (Text.split '/' path).head? = some "." then "." :: names path
  else names path

def startsWith (path base : PathBuf) : Prop := components base <+: components path

instance startsWith.decidable (path base : PathBuf) : Decidable (startsWith path base) :=
  inferInstanceAs (Decidable (components base <+: components path))

theorem startsWith.refl (path : PathBuf) : startsWith path path := List.prefix_rfl

theorem startsWith.trans {path base root : PathBuf} (inner : startsWith path base)
    (outer : startsWith base root) : startsWith path root := List.IsPrefix.trans outer inner

/-! ## Following a path -/

/-- One component followed from a directory, given by the names on its way
from the root; the root is its own parent. -/
def step (place : List String) (name : String) : List String :=
  if name = "/" then []
  else if name = "." then place
  else if name = ".." then place.dropLast
  else place ++ [name]

def follow (place : List String) (path : PathBuf) : List String := (components path).foldl step place

theorem follow_eq (place : List String) (path : PathBuf) :
    follow place path = (names path).foldl step (if isAbsolute path then [] else place) := by
  rw [follow, components]
  split_ifs <;> rfl

theorem follow_absolute {path : PathBuf} (absolute : isAbsolute path = true) (place other : List String) :
    follow place path = follow other path := by
  rw [follow_eq, follow_eq, if_pos absolute, if_pos absolute]

theorem names_append_separator (base path : PathBuf) :
    names (base ++ String.singleton '/' ++ path) = names base ++ names path := by
  have pieces : (base ++ String.singleton '/' ++ path).toList = base.toList ++ '/' :: path.toList := by
    simp
  rw [names, Text.split, pieces, List.splitOn_append_cons_self, List.map_append, List.filter_append]
  rfl

theorem is_absolute_append {base : PathBuf} (nonempty : base.toList ≠ []) (path : PathBuf) :
    isAbsolute (base ++ path) = isAbsolute base := by
  rw [isAbsolute, isAbsolute, String.toList_append, List.head?_append_of_ne_nil _ nonempty]

@[simp] theorem names_empty : names "" = [] := by decide

/-- A separator at the end does not add a component. -/
theorem names_append_of_separated {base : PathBuf} (separated : base.toList.getLast?.any (· != '/') = false)
    (path : PathBuf) : names (base ++ path) = names base ++ names path := by
  rcases List.eq_nil_or_concat base.toList with empty | ⟨front, last, whole⟩
  · rw [String.toList_eq_nil_iff.mp empty, String.empty_append, names_empty, List.nil_append]
  · rw [whole, List.concat_eq_append, List.getLast?_append_cons, List.getLast?_singleton] at separated
    have slash : last = '/' := by simpa using separated
    have cut : base = String.ofList front ++ String.singleton '/' ++ "" := by
      rw [← String.toList_inj, whole, slash]
      simp
    rw [cut, names_append_separator, names_empty, List.append_nil, String.append_empty,
      names_append_separator]

theorem follow_push (place : List String) (base path : PathBuf) :
    follow place (push base path) = follow (follow place base) path := by
  rw [push]
  split_ifs with absolute unseparated
  · exact follow_absolute absolute _ _
  · have nonempty : base.toList ≠ [] := by
      intro empty
      rw [empty] at unseparated
      cases unseparated
    rw [follow_eq, names_append_separator, String.append_assoc, is_absolute_append nonempty,
      List.foldl_append, ← follow_eq, follow_eq _ path, if_neg absolute]
  · rw [follow_eq, names_append_of_separated (by simpa using unseparated), List.foldl_append,
      follow_eq _ path, if_neg absolute, follow_eq]
    by_cases empty : base.toList = []
    · rw [String.toList_eq_nil_iff.mp empty, String.empty_append, if_neg absolute]
      rfl
    · rw [is_absolute_append empty]

theorem follow_extend (place : List String) (base : PathBuf) (paths : List PathBuf) :
    follow place (extend base paths) = paths.foldl follow (follow place base) := by
  induction paths generalizing base with
  | nil => rfl
  | cons path rest ih =>
      rw [extend, List.foldl_cons, ← extend, ih, follow_push]
      rfl

theorem follow_empty (place : List String) : follow place "" = place := by
  rw [follow_eq, names_empty]
  rfl

theorem follow_collect (place : List String) (paths : List PathBuf) :
    follow place (collect paths) = paths.foldl follow place := by
  rw [collect, follow_extend, follow_empty]

/-! ## Single names -/

theorem follow_name {name : String} (single : '/' ∉ name.toList) (place : List String) :
    follow place name = if name = "" then place else step place name := by
  have relative : isAbsolute name = false := by
    rw [isAbsolute, beq_eq_false_iff_ne]
    intro slash
    exact single (List.mem_of_head? slash)
  rw [follow_eq, relative, names, Text.split_single single]
  by_cases empty : name = ""
  · simp [empty]
  · by_cases dot : name = "."
    · subst dot
      rfl
    · simp [empty, dot]

/-- A component taken for itself leads where it leads inside its path. -/
theorem follow_component {path name : String} (member : name ∈ components path) (place : List String) :
    follow place name = step place name := by
  have ofName : name ∈ names path → follow place name = step place name := by
    intro inside
    rw [names, List.mem_filter, Bool.and_eq_true, bne_iff_ne] at inside
    rw [follow_name (Text.not_mem_of_split inside.1), if_neg inside.2.1]
  rw [components] at member
  split_ifs at member
  · rcases List.mem_cons.mp member with rfl | inside
    · rfl
    · exact ofName inside
  · rcases List.mem_cons.mp member with rfl | inside
    · rfl
    · exact ofName inside
  · exact ofName member

/-- Joining a path component by component leads where the path leads. -/
theorem follow_extend_components (place : List String) (base path : PathBuf) :
    follow place (extend base (components path)) = follow (follow place base) path := by
  rw [follow_extend, follow]
  exact List.foldl_ext _ _ _ fun place name member => follow_component member place

end PathBuf

end Crashlog
