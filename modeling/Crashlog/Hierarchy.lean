import Crashlog.Label

/-!
# Building a hierarchy

A hierarchy is built by walking along its path and adding a section wherever a
name is missing. The walk looks for the name as it was given, but a section is
stored under its name in lower case. `Built` says what a hierarchy that could
be built leaves of the tree.
-/

namespace Crashlog.Node

/-- The tree with a new node at the end of a path that it has. -/
def replaceAt (self : Node) : List String → Node → Node
  | [], new => new
  | name :: rest, new =>
      match self.get name with
      | some child => self.setChild name (child.replaceAt rest new)
      | none => self

theorem replace_at_cons {self child : Node} {name : String} (found : self.get name = some child)
    (rest : List String) (new : Node) :
    self.replaceAt (name :: rest) new = self.setChild name (child.replaceAt rest new) := by
  rw [replaceAt, found]

section Building

variable [UnicodeTables]

/-- The tree after building a hierarchy, with the node that was returned. -/
structure Built (tree : Node) (path : List String) (after ptr : Node) : Prop where
  created : tree.createHierarchyFromIter path some = some after
  found : after.walk path = some ptr
  /-- What is done to the returned node is done to the tree. -/
  returned : ∀ update, tree.createHierarchyFromIter path update = (update ptr).map (after.replaceAt path)
  /-- A node off the path is kept whole, a node on it keeps everything but the next child. -/
  kept : ∀ place node, tree.walk place = some node → ∃ now, after.walk place = some now ∧
    now.name = node.name ∧ now.label = node.label ∧
    (∀ name, ¬ place ++ [name] <+: path → now.get name = node.get name) ∧
    (place = path ∨ ¬ place <+: path → now = node)
  added : ∀ place node, tree.walk place = none → after.walk place = some node →
    place <+: path ∧ node.label = .fresh

namespace Built

variable {tree child after ptr : Node} {path : List String} {name : String}

theorem here (tree : Node) : Built tree [] tree tree where
  created := rfl
  found := rfl
  returned update := by
    rw [createHierarchyFromIter]
    exact (Option.map_id' (x := update tree)).symm
  kept place node walked := ⟨node, walked, rfl, rfl, fun _ _ => rfl, fun _ => rfl⟩
  added place node missing walked := by
    rw [missing] at walked
    cases walked

/-- One name of a path: the child was there, or is a new section. -/
theorem step_into (update : Node → Option Node)
    (present : tree.get name = some child ∨
      tree.get name = none ∧ child = newSection name ∧ Lowercase name) :
    tree.createHierarchyFromIter (name :: path) update =
      (child.createHierarchyFromIter path update).map (tree.setChild name) := by
  rw [createHierarchyFromIter]
  rcases present with old | ⟨new, rfl, lowercase⟩
  · simp only [old, Option.isNone_some, Bool.false_eq_true, if_false]
  · have added : tree.add (newSection name) = tree.setChild name (newSection name) := by
      rw [add]
      exact congrArg (fun key => tree.setChild key (newSection name)) lowercase
    have rewritten : (tree.setChild name (newSection name)).setChild name = tree.setChild name := by
      funext child
      exact set_child_set_child ..
    simp only [new, Option.isNone_none, if_true, added, get_set_child_self, rewritten]

theorem lift (built : Built child path after ptr)
    (present : tree.get name = some child ∨
      tree.get name = none ∧ child = newSection name ∧ Lowercase name) :
    Built tree (name :: path) (tree.setChild name after) ptr where
  created := by rw [step_into some present, built.created, Option.map_some]
  found := by rw [walk_set_child_self, built.found]
  returned update := by
    rw [step_into update present, built.returned, Option.map_map]
    congr 1
    funext new
    rw [Function.comp_apply, replace_at_cons (get_set_child_self ..), set_child_set_child]
  kept place node walked := by
    cases place with
    | nil =>
        cases walked
        refine ⟨_, rfl, rfl, rfl, ?_, ?_⟩
        · intro other elsewhere
          apply get_set_child_ne
          rintro rfl
          exact elsewhere (by simp)
        · rintro (same | outside)
          · cases same
          · exact absurd List.nil_prefix outside
    | cons first place =>
        by_cases same : name = first
        · subst same
          rcases present with old | ⟨new, _, _⟩
          · rw [walk_child old] at walked
            obtain ⟨now, reached, names, labels, children, whole⟩ := built.kept place node walked
            refine ⟨now, by rw [walk_set_child_self, reached], names,
              labels, ?_, ?_⟩
            · intro other elsewhere
              exact children other (by simpa using elsewhere)
            · intro apart
              exact whole (by simpa using apart)
          · rw [walk_cons, new, Option.bind_none] at walked
            cases walked
        · refine ⟨node, ?_, rfl, rfl, fun _ _ => rfl, fun _ => rfl⟩
          rw [walk_set_child_ne _ _ same]
          exact walked
  added place node missing walked := by
    cases place with
    | nil => cases missing
    | cons first place =>
        by_cases same : name = first
        · subst same
          rw [walk_set_child_self] at walked
          rcases present with old | ⟨_, rfl, _⟩
          · rw [walk_child old] at missing
            obtain ⟨onPath, label⟩ := built.added place node missing walked
            exact ⟨List.cons_prefix_cons.mpr ⟨rfl, onPath⟩, label⟩
          · cases place with
            | nil =>
                cases walked
                obtain ⟨now, reached, _, labels, _⟩ := built.kept [] (newSection name) rfl
                cases reached
                exact ⟨by simp, labels⟩
            | cons second place =>
                have absent : (newSection name).walk (second :: place) = none :=
                  walk_childless rfl (List.cons_ne_nil _ _)
                obtain ⟨onPath, label⟩ := built.added (second :: place) node absent walked
                exact ⟨List.cons_prefix_cons.mpr ⟨rfl, onPath⟩, label⟩
        · rw [walk_set_child_ne _ _ same, missing] at walked
          cases walked

end Built

/-- Every name from the first missing one on is in lower case. -/
def LowercaseWhereMissing (tree : Node) (path : List String) : Prop :=
  ∀ front segment rest, path = front ++ segment :: rest → tree.walk (front ++ [segment]) = none →
    Lowercase segment

namespace LowercaseWhereMissing

variable {tree child : Node} {name : String} {rest : List String}

theorem cons_iff_of_present (found : tree.get name = some child) :
    LowercaseWhereMissing tree (name :: rest) ↔ LowercaseWhereMissing child rest := by
  constructor
  · intro lowercase front segment back split missing
    exact lowercase (name :: front) segment back (by rw [split, List.cons_append])
      (by rw [List.cons_append, walk_child found, missing])
  · intro lowercase front segment back split missing
    cases front with
    | nil =>
        obtain ⟨rfl, rfl⟩ := List.cons.inj split
        rw [List.nil_append, walk_single, found] at missing
        cases missing
    | cons first front =>
        obtain ⟨rfl, below⟩ := List.cons.inj split
        rw [List.cons_append, walk_child found] at missing
        exact lowercase front segment back below missing

theorem cons_iff_of_missing (free : tree.get name = none) :
    LowercaseWhereMissing tree (name :: rest) ↔
      Lowercase name ∧ LowercaseWhereMissing (newSection name) rest := by
  have absent (front : List String) (segment : String) :
      (newSection name).walk (front ++ [segment]) = none := walk_childless rfl (by simp)
  constructor
  · intro lowercase
    refine ⟨lowercase [] name rest rfl (by rw [List.nil_append, walk_single, free]), ?_⟩
    intro front segment back split _
    exact lowercase (name :: front) segment back (by rw [split, List.cons_append])
      (by rw [List.cons_append, walk_cons, free, Option.bind_none])
  · rintro ⟨own, lowercase⟩ front segment back split _
    cases front with
    | nil =>
        obtain ⟨rfl, rfl⟩ := List.cons.inj split
        exact own
    | cons first front =>
        obtain ⟨rfl, below⟩ := List.cons.inj split
        exact lowercase front segment back below (absent front segment)

end LowercaseWhereMissing

theorem built_of_lowercase {tree : Node} {path : List String} (lowercase : LowercaseWhereMissing tree path) :
    ∃ after ptr, Built tree path after ptr := by
  induction path generalizing tree with
  | nil => exact ⟨tree, tree, .here tree⟩
  | cons name rest ih =>
      cases found : tree.get name with
      | some child =>
          obtain ⟨after, ptr, built⟩ := ih ((LowercaseWhereMissing.cons_iff_of_present found).mp lowercase)
          exact ⟨_, ptr, built.lift (.inl found)⟩
      | none =>
          obtain ⟨own, below⟩ := (LowercaseWhereMissing.cons_iff_of_missing found).mp lowercase
          obtain ⟨after, ptr, built⟩ := ih below
          exact ⟨_, ptr, built.lift (.inr ⟨found, rfl, own⟩)⟩

/-- A section that is not stored under the name it was asked for is a panic. -/
theorem lowercase_of_created {tree result : Node} {path : List String} {update : Node → Option Node}
    (created : tree.createHierarchyFromIter path update = some result) : LowercaseWhereMissing tree path := by
  induction path generalizing tree result with
  | nil =>
      intro front segment rest split _
      simp at split
  | cons name rest ih =>
      cases found : tree.get name with
      | some child =>
          rw [LowercaseWhereMissing.cons_iff_of_present found]
          rw [Built.step_into update (.inl found)] at created
          obtain ⟨inner, below, _⟩ := Option.map_eq_some_iff.mp created
          exact ih below
      | none =>
          rw [LowercaseWhereMissing.cons_iff_of_missing found]
          by_cases own : Lowercase name
          · rw [Built.step_into update (.inr ⟨found, rfl, own⟩)] at created
            obtain ⟨inner, below, _⟩ := Option.map_eq_some_iff.mp created
            exact ⟨own, ih below⟩
          · have apart : (newSection name).name ≠ name := own
            have lost : (tree.add (newSection name)).get name = none := by
              rw [add, get_set_child_ne _ _ apart, found]
            simp only [createHierarchyFromIter, found, Option.isNone_none, if_true, lost] at created
            cases created

/-- What a caller of `createHierarchy` expects. -/
def CreatesHierarchy (tree : Node) (path : String) : Prop :=
  ∃ after ptr, tree.createHierarchy path some = some after ∧ after.getByPath path = some ptr ∧
    Built tree (Text.split '.' path) after ptr

/-- A hierarchy is built exactly when every segment from the first missing one
on is in lower case. Otherwise the new section is stored under another name,
possibly over an older node, and is not found. -/
theorem creates_hierarchy_iff (tree : Node) (path : String) :
    CreatesHierarchy tree path ↔
      ∀ front segment rest, Text.split '.' path = front ++ segment :: rest →
        tree.walk (front ++ [segment]) = none → Lowercase segment := by
  constructor
  · rintro ⟨after, ptr, created, _⟩
    exact lowercase_of_created created
  · intro lowercase
    obtain ⟨after, ptr, built⟩ := built_of_lowercase lowercase
    exact ⟨after, ptr, built.created, built.found, built⟩

omit [UnicodeTables] in
/-- The section is stored as `foo`. -/
theorem upper_case_hierarchy_panics :
    ¬ ∀ (_ : UnicodeTables) (tree : Node) (path : String), CreatesHierarchy tree path := by
  intro creates
  obtain ⟨after, ptr, created, _⟩ := creates .ascii newRoot "Foo"
  have panics : @createHierarchy .ascii newRoot "Foo" some = none := by decide +kernel
  rw [panics] at created
  cases created

end Building

end Crashlog.Node
