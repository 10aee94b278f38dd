import Crashlog.Graft

/-!
# Changing one label of a tree

The label of a node is everything but its name and its children. A decoder
that walks to a path, adds the sections that are missing and changes the label
of the last node is described by the labels at all paths.
-/

namespace Crashlog

structure Label where
  kind : NodeType
  description : String
  deriving DecidableEq, Repr

namespace Label

/-- The label of a section that was added on the way. -/
def fresh : Label := { kind := .sect, description := "" }

def value (label : Label) : Option UInt64 :=
  match label.kind with
  | .field value => some value
  | _ => none

end Label

namespace Node

def label (node : Node) : Label := { kind := node.kind, description := node.description }

def withLabel (node : Node) (label : Label) : Node :=
  { node with kind := label.kind, description := label.description }

def labelAt (node : Node) (path : List String) : Option Label := (node.walk path).map label

@[simp] theorem label_with_label (node : Node) (label : Label) : (node.withLabel label).label = label :=
  rfl

@[simp] theorem get_with_label (node : Node) (label : Label) (name : String) :
    (node.withLabel label).get name = node.get name := rfl

@[simp] theorem label_set_child (node : Node) (key : String) (child : Node) :
    (node.setChild key child).label = node.label := rfl

theorem label_at_nil (node : Node) : node.labelAt [] = some node.label := rfl

theorem label_at_cons (node : Node) (name : String) (rest : List String) :
    node.labelAt (name :: rest) = (node.get name).bind fun child => child.labelAt rest := by
  rw [labelAt, walk_cons, Option.map_bind]
  rfl

theorem label_at_childless {node : Node} (childless : node.children = []) {path : List String}
    (nonempty : path ≠ []) : node.labelAt path = none := by
  rw [labelAt, walk_childless childless nonempty, Option.map_none]

theorem get_value_by_path_eq (node : Node) (path : String) :
    node.getValueByPath path = (node.labelAt (Text.split '.' path)).bind Label.value := by
  rw [getValueByPath, getByPath, labelAt, Option.bind_map]
  rfl

/-- The labels after a change at the end of a path. -/
structure Relabelled (before after : Node) (path : List String) (change : Label → Label) : Prop where
  changed : after.labelAt path = some (change ((before.labelAt path).getD .fresh))
  onTheWay : ∀ front, front <+: path → front ≠ path →
    after.labelAt front = some ((before.labelAt front).getD .fresh)
  others : ∀ other, ¬ other <+: path → after.labelAt other = before.labelAt other

namespace Relabelled

variable {before after child : Node} {path : List String} {change : Label → Label} {name : String}

theorem here (node : Node) (change : Label → Label) :
    Relabelled node (node.withLabel (change node.label)) [] change where
  changed := rfl
  onTheWay front inside apart := absurd (List.prefix_nil.mp inside) apart
  others other outside := by
    cases other with
    | nil => exact absurd List.nil_prefix outside
    | cons name rest => simp only [label_at_cons, get_with_label]

/-- A change in a child, which may be new, changes the parent. -/
theorem lift (relabelled : Relabelled child after path change)
    (present : before.get name = some child ∨
      before.get name = none ∧ child.label = .fresh ∧ child.children = []) :
    Relabelled before (before.setChild name after) (name :: path) change := by
  have same (tail : List String) :
      (before.labelAt (name :: tail)).getD .fresh = (child.labelAt tail).getD .fresh := by
    rw [label_at_cons]
    rcases present with old | ⟨new, fresh, childless⟩
    · rw [old, Option.bind_some]
    · rw [new, Option.bind_none]
      cases tail with
      | nil => rw [label_at_nil, fresh, Option.getD_none, Option.getD_some]
      | cons second tail => rw [label_at_childless childless (by simp)]
  have below (tail : List String) : (before.setChild name after).labelAt (name :: tail) = after.labelAt tail := by
    rw [label_at_cons, get_set_child_self, Option.bind_some]
  refine ⟨?_, ?_, ?_⟩
  · rw [below, same]
    exact relabelled.changed
  · intro front inside apart
    cases front with
    | nil => rfl
    | cons first front =>
        obtain ⟨rfl, rest⟩ := List.cons_prefix_cons.mp inside
        rw [below, same]
        exact relabelled.onTheWay front rest (by simpa using apart)
  · intro other outside
    cases other with
    | nil => exact absurd List.nil_prefix outside
    | cons first other =>
        by_cases same : name = first
        · subst same
          have elsewhere : ¬ other <+: path := by simpa using outside
          rw [below, relabelled.others other elsewhere, label_at_cons]
          rcases present with old | ⟨new, _, childless⟩
          · rw [old, Option.bind_some]
          · rw [new, Option.bind_none]
            apply label_at_childless childless
            rintro rfl
            exact elsewhere List.nil_prefix
        · rw [label_at_cons, label_at_cons, get_set_child_ne _ _ same]

end Relabelled

section Building

variable [UnicodeTables]

/-- Names that are in lower case are found again, so the hierarchy is built. -/
theorem create_hierarchy_relabels (self : Node) {path : List String} (change : Label → Label)
    (lowercase : ∀ name ∈ path, Lowercase name) :
    ∃ result, self.createHierarchyFromIter path (fun node => some (node.withLabel (change node.label))) =
      some result ∧ Relabelled self result path change := by
  induction path generalizing self with
  | nil => exact ⟨_, rfl, .here self change⟩
  | cons name rest ih =>
      have own : (newSection name).name = name := lowercase name (by simp)
      have restLowercase : ∀ other ∈ rest, Lowercase other := fun other member =>
        lowercase other (by simp [member])
      cases found : self.get name with
      | some child =>
          obtain ⟨result, built, relabelled⟩ := ih child restLowercase
          refine ⟨self.setChild name result, ?_, relabelled.lift (.inl found)⟩
          simp [createHierarchyFromIter, found, built]
      | none =>
          obtain ⟨result, built, relabelled⟩ := ih (newSection name) restLowercase
          refine ⟨self.setChild name result, ?_, relabelled.lift (.inr ⟨found, rfl, rfl⟩)⟩
          have added : self.add (newSection name) = self.setChild name (newSection name) := by
            rw [add, own]
          simp [createHierarchyFromIter, found, added, built, set_child_set_child]

/-- A record that is added under a free name appears with its own label only. -/
theorem label_at_add_record {root : Node} {name : String} (lowercase : Lowercase name)
    (free : root.get name = none) (path : List String) :
    (root.add (newRecord name)).labelAt path =
      if path = [name] then some { kind := .record, description := "" } else root.labelAt path := by
  have own : (newRecord name).name = name := lowercase
  rw [add, own]
  cases path with
  | nil => rfl
  | cons first rest =>
      by_cases same : name = first
      · subst same
        rw [label_at_cons, label_at_cons, get_set_child_self, free, Option.bind_some, Option.bind_none]
        cases rest with
        | nil => simp [label_at_nil, label, newRecord]
        | cons second rest => rw [label_at_childless rfl (by simp), if_neg (by simp)]
      · have apart : first :: rest ≠ [name] := by
          intro equal
          exact same (List.cons.inj equal).1.symm
        rw [if_neg apart, label_at_cons, label_at_cons, get_set_child_ne _ _ same]

end Building

end Node

end Crashlog
