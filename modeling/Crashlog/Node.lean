import Crashlog.OrderedMap
import Crashlog.Text

/-!
# The register tree

Nodes hold their children in an ordered map, under their names. A merge that
meets a record or a field under a name that is taken adds it under the next
free instance name. Two functions of the source can fail to return: the search
for a free name runs forever once every name of its counter is taken, and
building a hierarchy panics when a new section is not found under the name it
was asked for. Both are `none` here.

Statements about trees go through `walk`, the node at the end of a path.
-/

namespace Crashlog

/-- The kinds of nodes; a component of the tree is a `sect`. -/
inductive NodeType where
  | root
  | sect
  | record
  | field (value : UInt64)
  deriving DecidableEq, Repr

structure Node where
  name : String := ""
  description : String := ""
  kind : NodeType := .root
  children : List (String × Node) := []
  deriving BEq, Repr

namespace Node

def newRoot : Node := {}

section Names

variable [UnicodeTables]

def newSection (name : String) : Node := { name := UnicodeTables.toLowercase name, kind := .sect }

def newRecord (name : String) : Node := { name := UnicodeTables.toLowercase name, kind := .record }

def newField (name : String) (value : UInt64) : Node :=
  { name := UnicodeTables.toLowercase name, kind := .field value }

end Names

def get (self : Node) (name : String) : Option Node := OrderedMap.lookup self.children name

/-- The node at the end of a path of names. -/
def walk (self : Node) : List String → Option Node
  | [] => some self
  | name :: rest => (self.get name).bind fun child => child.walk rest

def getByPath (self : Node) (path : String) : Option Node := self.walk (Text.split '.' path)

def value (self : Node) : Option UInt64 :=
  match self.kind with
  | .field value => some value
  | _ => none

def getValueByPath (self : Node) (path : String) : Option UInt64 :=
  (self.getByPath path).bind Node.value

/-- A write to the child stored under a key. -/
def setChild (self : Node) (key : String) (child : Node) : Node :=
  { self with children := OrderedMap.insert key child self.children }

def add (self node : Node) : Node := self.setChild node.name node

/-- There is a free name among one more candidates than there are children,
unless the counter went through all its values, `merge_instance_endless`. -/
def mergeInstance (self other : Node) : Option Node :=
  let taken := fun name => (OrderedMap.lookup self.children name).isSome
  (Text.freeName taken other.name (self.children.length + 1) other.name 0).map fun name =>
    self.add { other with name }

mutual

def merge (self : Node) : Node → Option Node
  | ⟨_, _, _, children⟩ => mergeChildren self children

/-- The loop of `merge`. -/
def mergeChildren (self : Node) : List (String × Node) → Option Node
  | [] => some self
  | (_, child) :: rest => do
      let merged ← (match self.get child.name with
        | none => some (self.add child)
        | some selfChild =>
            match selfChild.kind with
            | .record | .field _ => self.mergeInstance child
            | .root | .sect => (merge selfChild child).map (self.setChild child.name))
      mergeChildren merged rest

end

/-- The node at the end of the path, with missing sections added, is handed to
`update`. -/
def createHierarchyFromIter [UnicodeTables] (self : Node) (path : List String)
    (update : Node → Option Node) : Option Node :=
  match path with
  | [] => update self
  | name :: rest =>
      let ptr := if (self.get name).isNone then self.add (newSection name) else self
      match ptr.get name with
      | none => none
      | some child => (createHierarchyFromIter child rest update).map (ptr.setChild name)

def createHierarchy [UnicodeTables] (self : Node) (path : String) (update : Node → Option Node) :
    Option Node :=
  self.createHierarchyFromIter (Text.split '.' path) update

/-! ## Reading what was written -/

@[simp] theorem walk_nil (self : Node) : self.walk [] = some self := rfl

theorem walk_cons (self : Node) (name : String) (rest : List String) :
    self.walk (name :: rest) = (self.get name).bind fun child => child.walk rest := rfl

theorem walk_single (self : Node) (name : String) : self.walk [name] = self.get name := by
  rw [walk_cons]
  simp

theorem walk_child {self child : Node} {name : String} (found : self.get name = some child)
    (rest : List String) : self.walk (name :: rest) = child.walk rest := by
  rw [walk_cons, found, Option.bind_some]

theorem get_childless {self : Node} (childless : self.children = []) (name : String) :
    self.get name = none := by
  rw [get, childless, OrderedMap.lookup_nil]

theorem walk_childless {self : Node} (childless : self.children = []) {path : List String}
    (nonempty : path ≠ []) : self.walk path = none := by
  cases path with
  | nil => exact absurd rfl nonempty
  | cons name rest => rw [walk_cons, get_childless childless, Option.bind_none]

theorem get_set_child (self : Node) (key name : String) (child : Node) :
    (self.setChild key child).get name = if key = name then some child else self.get name :=
  OrderedMap.lookup_insert _ _ _ _

@[simp] theorem get_set_child_self (self : Node) (key : String) (child : Node) :
    (self.setChild key child).get key = some child := by
  rw [get_set_child, if_pos rfl]

theorem get_set_child_ne (self : Node) {key name : String} (child : Node) (apart : key ≠ name) :
    (self.setChild key child).get name = self.get name := by
  rw [get_set_child, if_neg apart]

theorem walk_set_child_self (self child : Node) (key : String) (rest : List String) :
    (self.setChild key child).walk (key :: rest) = child.walk rest :=
  walk_child (get_set_child_self self key child) rest

theorem walk_set_child_ne (self : Node) {key name : String} (child : Node) (apart : key ≠ name)
    (rest : List String) : (self.setChild key child).walk (name :: rest) = self.walk (name :: rest) := by
  rw [walk_cons, walk_cons, get_set_child_ne _ _ apart]

theorem set_child_set_child (self : Node) (key : String) (old new : Node) :
    (self.setChild key old).setChild key new = self.setChild key new := by
  simp only [setChild, OrderedMap.insert_insert]

@[simp] theorem set_child_name (self : Node) (key : String) (child : Node) :
    (self.setChild key child).name = self.name := rfl

@[simp] theorem set_child_description (self : Node) (key : String) (child : Node) :
    (self.setChild key child).description = self.description := rfl

@[simp] theorem set_child_kind (self : Node) (key : String) (child : Node) :
    (self.setChild key child).kind = self.kind := rfl

theorem walk_append (self : Node) (front back : List String) :
    self.walk (front ++ back) = (self.walk front).bind fun node => node.walk back := by
  induction front generalizing self with
  | nil => rfl
  | cons name rest ih =>
      rw [List.cons_append, walk_cons, walk_cons]
      cases self.get name with
      | none => rfl
      | some child => exact ih child

/-! ## Instances -/

theorem free_name_start (taken : String → Bool) (name : String) (fuel : Nat) :
    Text.freeName taken name fuel name 0 =
      Text.freeName taken name fuel (Text.instanceName name 0) (Int32.ofNat 0) := rfl

/-- Instances with distinct names that are all present are children. -/
theorem instances_le_children {self : Node} {name : String} {count : Nat} (round : count ≤ 2 ^ 32 + 1)
    (present : ∀ i < count, (self.get (Text.instanceName name i)).isSome) :
    count ≤ self.children.length := by
  have inside : ∀ key ∈ (List.range count).map (Text.instanceName name),
      (OrderedMap.lookup self.children key).isSome := by
    intro key member
    obtain ⟨i, below, rfl⟩ := List.mem_map.mp member
    exact present i (List.mem_range.mp below)
  simpa using OrderedMap.length_le_of_present (Text.instance_names_nodup name round) inside

/-- The added instance has the first name that is not taken. -/
theorem merge_instance_eq_some {self other : Node} {count : Nat} (round : count ≤ 2 ^ 32)
    (before : ∀ i < count, (self.get (Text.instanceName other.name i)).isSome)
    (free : self.get (Text.instanceName other.name count) = none) :
    self.mergeInstance other =
      some (self.add { other with name := Text.instanceName other.name count }) := by
  have room := instances_le_children (by omega) before
  have found : Text.freeName (fun name => (OrderedMap.lookup self.children name).isSome) other.name
      (self.children.length + 1) (Text.instanceName other.name 0) (Int32.ofNat 0) =
        some (Text.instanceName other.name (0 + count)) := by
    apply Text.free_name_eq_some
    · intro i below
      rw [Nat.zero_add]
      exact before i below
    · rw [Nat.zero_add]
      exact Option.isSome_eq_false_iff.mpr (Option.isNone_iff_eq_none.mpr free)
    · omega
  rw [mergeInstance, free_name_start, found, Option.map_some, Nat.zero_add]

/-- The search for a name does not end exactly when every name is taken. -/
theorem merge_instance_endless {self other : Node} :
    self.mergeInstance other = none ↔
      ∀ tries, (self.get (Text.instanceName other.name tries)).isSome := by
  rw [mergeInstance, Option.map_eq_none_iff, free_name_start]
  constructor
  · intro exhausted
    have tried := Text.taken_of_free_name_none exhausted
    simp only [Nat.zero_add] at tried
    -- Fewer children than names in a round could not take all the tried names.
    have round : 2 ^ 32 ≤ self.children.length := by
      by_contra few
      have crowded := instances_le_children (by omega) tried
      omega
    intro tries
    cases tries with
    | zero => exact tried 0 (by omega)
    | succ tries =>
        rw [← Text.instance_name_round]
        exact tried _ (by omega)
  · intro all
    exact Text.free_name_eq_none all _ 0

end Node

end Crashlog
