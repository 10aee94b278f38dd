import Crashlog.Node

/-!
# Merging one leaf into a tree

A decoded record is a tree with a single branch: a path of sections that ends
in one leaf. `Grafted` says what merging such a branch leaves at every path of
the tree, and `merge_hang` that the merge does so. The leaf takes the first of
its instance names that is free at the end of the path.
-/

namespace Crashlog.Node

theorem merge_eq (self other : Node) : self.merge other = self.mergeChildren other.children := by
  cases other
  rw [merge]

theorem add_to_childless {base child : Node} (childless : base.children = []) :
    base.add child = { base with children := [(child.name, child)] } := by
  simp [add, setChild, childless, OrderedMap.insert]

theorem merge_children_cons (self child : Node) (key : String) (rest : List (String × Node)) :
    self.mergeChildren ((key, child) :: rest) =
      (match self.get child.name with
        | none => some (self.add child)
        | some selfChild =>
            match selfChild.kind with
            | .record | .field _ => self.mergeInstance child
            | .root | .sect => (merge selfChild child).map (self.setChild child.name)).bind
        fun merged => merged.mergeChildren rest := by
  rw [mergeChildren]
  rfl

theorem merge_children_single (self child : Node) (key : String) :
    self.mergeChildren [(key, child)] =
      match self.get child.name with
      | none => some (self.add child)
      | some selfChild =>
          match selfChild.kind with
          | .record | .field _ => self.mergeInstance child
          | .root | .sect => (merge selfChild child).map (self.setChild child.name) := by
  rw [merge_children_cons]
  simp only [mergeChildren, Option.bind_fun_some]

section Branches

variable [UnicodeTables]

/-- A branch below `base`. -/
def hang (base : Node) (leaf : Node) : List String → Node
  | [] => { base with children := [(leaf.name, leaf)] }
  | name :: rest => { base with children := [(name, hang (newSection name) leaf rest)] }

@[simp] theorem hang_name (base leaf : Node) (path : List String) :
    (hang base leaf path).name = base.name := by
  cases path <;> rfl

@[simp] theorem hang_kind (base leaf : Node) (path : List String) :
    (hang base leaf path).kind = base.kind := by
  cases path <;> rfl

/-- Names that are kept by the conversion to lower case. -/
def Lowercase (name : String) : Prop := UnicodeTables.toLowercase name = name

instance (name : String) : Decidable (Lowercase name) := inferInstanceAs (Decidable (_ = _))

/-- Building a hierarchy in a node without children and merging a leaf into
its end makes a branch. -/
theorem create_hierarchy_hang {base leaf : Node} {path : List String} (childless : base.children = [])
    (lowercase : ∀ name ∈ path, Lowercase name) :
    base.createHierarchyFromIter path (fun ptr => ptr.merge (newRoot.add leaf)) =
      some (hang base leaf path) := by
  induction path generalizing base with
  | nil =>
      have single : (newRoot.add leaf).children = [(leaf.name, leaf)] := rfl
      rw [createHierarchyFromIter, merge_eq, single, merge_children_single, get_childless childless]
      rw [add_to_childless childless]
      rfl
  | cons name rest ih =>
      have own : (newSection name).name = name := lowercase name (by simp)
      have below := @ih (newSection name) rfl fun other member => lowercase other (by simp [member])
      rw [createHierarchyFromIter]
      have ptr : base.add (newSection name) = base.setChild name (newSection name) := by
        rw [add, own]
      simp only [get_childless childless, Option.isNone_none, if_true, ptr, get_set_child_self, below,
        Option.map_some]
      simp [hang, setChild, childless, OrderedMap.insert]

end Branches

/-- What grafting a leaf at the end of a path leaves of a tree. -/
structure Grafted (tree merged : Node) (path : List String) (leaf : Node) : Prop where
  placed : merged.walk (path ++ [leaf.name]) = some leaf
  sections : ∀ front, front <+: path → ∃ node, merged.walk front = some node ∧
    node.kind = ((tree.walk front).map Node.kind).getD .sect
  others : ∀ other, ¬ other <+: path → ¬ path ++ [leaf.name] <+: other →
    merged.walk other = tree.walk other

namespace Grafted

variable {tree leaf child merged : Node} {name : String} {rest : List String}

theorem here : Grafted tree (tree.add leaf) [] leaf where
  placed := by simp [walk_cons, add]
  sections front inside := by
    rw [List.prefix_nil] at inside
    subst inside
    exact ⟨_, rfl, rfl⟩
  others other outside elsewhere := by
    cases other with
    | nil => exact absurd List.nil_prefix outside
    | cons first rest =>
        have apart : leaf.name ≠ first := by
          rintro rfl
          exact elsewhere (by simp)
        rw [add, walk_set_child_ne _ _ apart]

/-- Grafting into a child, which may be new, grafts into the parent. -/
theorem lift (grafted : Grafted child merged rest leaf)
    (present : tree.get name = some child ∨
      tree.get name = none ∧ child.kind = .sect ∧ child.children = []) :
    Grafted tree (tree.setChild name merged) (name :: rest) leaf where
  placed := by
    rw [List.cons_append, walk_set_child_self, grafted.placed]
  sections front inside := by
    cases front with
    | nil => exact ⟨_, rfl, rfl⟩
    | cons first front =>
        obtain ⟨rfl, below⟩ := List.cons_prefix_cons.mp inside
        obtain ⟨node, found, kind⟩ := grafted.sections front below
        refine ⟨node, by rw [walk_set_child_self, found], ?_⟩
        rw [kind, walk_cons]
        rcases present with old | ⟨new, sect, childless⟩
        · rw [old, Option.bind_some]
        · rw [new, Option.bind_none]
          cases front with
          | nil => simp [sect]
          | cons second front => simp [walk_cons, get_childless childless]
  others other outside elsewhere := by
    cases other with
    | nil => exact absurd List.nil_prefix outside
    | cons first other =>
        by_cases same : name = first
        · subst same
          rw [List.cons_append, List.cons_prefix_cons] at elsewhere
          rw [List.cons_prefix_cons] at outside
          have below := grafted.others other (by simpa using outside) (by simpa using elsewhere)
          rw [walk_set_child_self, below]
          rcases present with old | ⟨new, _, childless⟩
          · rw [walk_child old]
          · rw [walk_cons tree, new, Option.bind_none]
            cases other with
            | nil => simp at outside
            | cons second other => rw [walk_cons, get_childless childless, Option.bind_none]
        · rw [walk_set_child_ne _ _ same]

end Grafted

section Merging

/-- Every node on the way is a section. -/
def Open (tree : Node) (path : List String) : Prop :=
  ∀ front, front ≠ [] → front <+: path → ∀ node, tree.walk front = some node → node.kind = .sect

theorem Open.child {self child : Node} {name : String} {rest : List String}
    (sections : self.Open (name :: rest)) (found : self.get name = some child) :
    child.kind = .sect ∧ child.Open rest := by
  refine ⟨sections [name] (by simp) (by simp) child (walk_child found []), ?_⟩
  intro front _ inside node below
  exact sections (name :: front) (by simp) (by simpa using inside) node
    (by rw [walk_child found, below])

/-- The first `count` instance names of a leaf are taken at the end of a path
and the next one is free. A node of the plain name is a record. -/
structure Instances (tree : Node) (path : List String) (name : String) (count : Nat) : Prop where
  taken : ∀ i < count, (tree.walk (path ++ [Text.instanceName name i])).isSome
  free : tree.walk (path ++ [Text.instanceName name count]) = none
  record : ∀ node, tree.walk (path ++ [name]) = some node → node.kind = .record

variable [UnicodeTables]

section Descent

variable {self child : Node} {name leafName : String} {rest : List String} {count : Nat}

omit [UnicodeTables] in
theorem Instances.of_child (instances : self.Instances (name :: rest) leafName count)
    (found : self.get name = some child) : child.Instances rest leafName count where
  taken i below := by
    rw [← walk_child found]
    exact instances.taken i below
  free := by
    rw [← walk_child found]
    exact instances.free
  record node below := by
    rw [← walk_child found] at below
    exact instances.record node below

omit [UnicodeTables] in
/-- Nothing is taken below a node that is missing. -/
theorem Instances.missing (instances : self.Instances (name :: rest) leafName count)
    (missing : self.get name = none) : count = 0 := by
  by_contra positive
  have taken := instances.taken 0 (by omega)
  rw [List.cons_append, walk_cons, missing] at taken
  cases taken

omit [UnicodeTables] in
theorem open_childless (childless : self.children = []) : self.Open rest := by
  intro front nonempty _ node below
  rw [walk_childless childless nonempty] at below
  cases below

omit [UnicodeTables] in
theorem instances_childless (childless : self.children = []) : self.Instances rest leafName 0 where
  taken i below := absurd below (Nat.not_lt_zero i)
  free := walk_childless childless (by simp)
  record node below := by
    rw [walk_childless childless (by simp)] at below
    cases below

end Descent

/-- The leaf joins the children of the node it is merged into. -/
theorem merge_hang_here {self base leaf : Node} {count : Nat} (instances : self.Instances [] leaf.name count)
    (round : count ≤ 2 ^ 32) :
    self.merge (hang base leaf []) =
      some (self.add { leaf with name := Text.instanceName leaf.name count }) := by
  have free := instances.free
  have taken := instances.taken
  have record := instances.record
  simp only [List.nil_append, walk_single] at free taken record
  rw [hang, merge_eq, merge_children_single]
  cases count with
  | zero =>
      rw [Text.instanceName] at free
      rw [free, Text.instanceName]
      cases leaf
      rfl
  | succ count =>
      obtain ⟨node, found⟩ := Option.isSome_iff_exists.mp (taken 0 (by omega))
      rw [Text.instanceName] at found
      have kind := record node found
      simp only [found, kind]
      exact merge_instance_eq_some round taken free

/-- A branch merged into a node without children is copied. -/
theorem merge_hang_childless {self base leaf : Node} {path : List String} (childless : self.children = [])
    (lowercase : ∀ name ∈ path, Lowercase name) :
    self.merge (hang base leaf path) = some (hang self leaf path) := by
  cases path with
  | nil =>
      rw [hang, merge_eq, merge_children_single, get_childless childless, add_to_childless childless]
      rfl
  | cons name rest =>
      have own : (newSection name).name = name := lowercase name (by simp)
      rw [hang, merge_eq, merge_children_single, get_childless childless, add_to_childless childless,
        hang_name, own]
      rfl

theorem merge_hang {self base leaf : Node} {path : List String} {count : Nat}
    (lowercase : ∀ name ∈ path, Lowercase name) (sections : self.Open path)
    (instances : self.Instances path leaf.name count) (round : count ≤ 2 ^ 32) :
    ∃ merged, self.merge (hang base leaf path) = some merged ∧
      Grafted self merged path { leaf with name := Text.instanceName leaf.name count } := by
  induction path generalizing self base with
  | nil => exact ⟨_, merge_hang_here instances round, .here⟩
  | cons name rest ih =>
      have own : (newSection name).name = name := lowercase name (by simp)
      have restLowercase : ∀ other ∈ rest, Lowercase other := fun other member =>
        lowercase other (by simp [member])
      rw [hang, merge_eq, merge_children_single, hang_name, own]
      cases found : self.get name with
      | none =>
          -- The branch is added as it is, which is also what merging it below would give.
          have first : count = 0 := instances.missing found
          subst first
          obtain ⟨merged, result, grafted⟩ := @ih (newSection name) (newSection name) restLowercase
            (open_childless rfl) (instances_childless rfl)
          rw [merge_hang_childless rfl restLowercase] at result
          cases result
          refine ⟨_, rfl, ?_⟩
          rw [add, hang_name, own]
          exact grafted.lift (.inr ⟨found, rfl, rfl⟩)
      | some child =>
          obtain ⟨kind, childOpen⟩ := sections.child found
          obtain ⟨merged, result, grafted⟩ :=
            @ih child (newSection name) restLowercase childOpen (instances.of_child found)
          simp only [kind, result, Option.map_some]
          exact ⟨_, rfl, grafted.lift (.inl found)⟩

/-- When every instance name is taken, the merge does not end. -/
theorem merge_hang_endless {self base leaf : Node} {path : List String}
    (lowercase : ∀ name ∈ path, Lowercase name) (sections : self.Open path)
    (taken : ∀ tries, (self.walk (path ++ [Text.instanceName leaf.name tries])).isSome)
    (record : ∀ node, self.walk (path ++ [leaf.name]) = some node → node.kind = .record) :
    self.merge (hang base leaf path) = none := by
  induction path generalizing self base with
  | nil =>
      simp only [List.nil_append, walk_single] at taken record
      obtain ⟨node, found⟩ := Option.isSome_iff_exists.mp (taken 0)
      rw [Text.instanceName] at found
      have kind := record node found
      rw [hang, merge_eq, merge_children_single]
      simp only [found, kind]
      exact merge_instance_endless.mpr taken
  | cons name rest ih =>
      have own : (newSection name).name = name := lowercase name (by simp)
      obtain ⟨child, found⟩ : ∃ child, self.get name = some child := by
        cases found : self.get name with
        | none =>
            have first := taken 0
            rw [List.cons_append, walk_cons, found] at first
            cases first
        | some child => exact ⟨child, rfl⟩
      obtain ⟨kind, childOpen⟩ := sections.child found
      have below := @ih child (newSection name)
        (fun other member => lowercase other (by simp [member])) childOpen
        (by simpa only [List.cons_append, walk_child found] using taken)
        (by simpa only [List.cons_append, walk_child found] using record)
      rw [hang, merge_eq, merge_children_single, hang_name, own]
      simp only [found, kind, below, Option.map_none]

end Merging

end Crashlog.Node
