import Crashlog.Node
import Mathlib.Data.List.Nodup

/-!
# Visiting a tree until something is found

A traversal goes down every branch and stops at the first node that it can
handle. `explore` is the traversal as code runs it. `frontier` keeps the path
of every node that was handled, and in an ordered tree these are exactly the
first nodes on their paths, each of them once.
-/

namespace Crashlog.Node

variable {α β : Type*}

theorem size_of_child {node : Node} {entry : String × Node} (member : entry ∈ node.children) :
    sizeOf entry.2 < sizeOf node := by
  obtain ⟨name, description, kind, children⟩ := node
  obtain ⟨key, child⟩ := entry
  have inside := List.sizeOf_lt_of_mem member
  simp only [Prod.mk.sizeOf_spec, Node.mk.sizeOf_spec] at inside ⊢
  omega

theorem size_of_get {node child : Node} {name : String} (found : node.get name = some child) :
    sizeOf child < sizeOf node :=
  size_of_child (OrderedMap.mem_of_lookup found)

/-- The children of every node of the tree are in order. -/
inductive Ordered : Node → Prop
  | intro {node : Node} (sorted : OrderedMap.Sorted node.children)
      (below : ∀ entry ∈ node.children, Ordered entry.2) : Ordered node

namespace Ordered

variable {node child : Node} {name : String}

theorem sorted (ordered : node.Ordered) : OrderedMap.Sorted node.children := by
  cases ordered with
  | intro sorted below => exact sorted

theorem children (ordered : node.Ordered) : ∀ entry ∈ node.children, entry.2.Ordered := by
  cases ordered with
  | intro sorted below => exact below

/-- The order is one of the children only. -/
theorem of_children (ordered : node.Ordered) (same : child.children = node.children) : child.Ordered :=
  .intro (same ▸ ordered.sorted) (same ▸ ordered.children)

theorem of_get (ordered : node.Ordered) (found : node.get name = some child) : child.Ordered :=
  ordered.children _ (OrderedMap.mem_of_lookup found)

theorem of_walk {path : List String} (ordered : node.Ordered) (found : node.walk path = some child) :
    child.Ordered := by
  induction path generalizing node with
  | nil =>
      cases found
      exact ordered
  | cons name rest ih =>
      obtain ⟨next, first, below⟩ := Option.bind_eq_some_iff.mp found
      exact ih (ordered.of_get first) below

theorem childless (empty : node.children = []) : node.Ordered :=
  .intro (by rw [empty]; exact OrderedMap.sorted_nil) (by simp [empty])

theorem set_child (ordered : node.Ordered) (childOrdered : child.Ordered) (key : String) :
    (node.setChild key child).Ordered := by
  refine .intro (OrderedMap.sorted_insert ordered.sorted key child) ?_
  intro entry member
  rcases OrderedMap.mem_insert member with rfl | old
  · exact childOrdered
  · exact ordered.children entry old

theorem add (ordered : node.Ordered) (childOrdered : child.Ordered) : (node.add child).Ordered :=
  ordered.set_child childOrdered child.name

end Ordered

/-- Induction over the children of a tree, their children and so on. -/
theorem forest_induction {motive : List (String × Node) → Prop} (nil : motive [])
    (cons : ∀ key child rest, motive child.children → motive rest → motive ((key, child) :: rest)) :
    ∀ children, motive children
  | [] => nil
  | (key, child) :: rest => by
      cases parts : child with
      | mk name description kind children =>
          exact cons key _ rest (forest_induction nil cons children) (forest_induction nil cons rest)
termination_by children => sizeOf children
decreasing_by
  · subst parts
    simp
    omega
  · simp

/-! ## Traversals -/

mutual

/-- A node that is handled is not looked into. -/
def explore (handle : Node → Option (List α)) : Node → List α
  | ⟨name, description, kind, children⟩ =>
      match handle ⟨name, description, kind, children⟩ with
      | some found => found
      | none => exploreChildren handle children

def exploreChildren (handle : Node → Option (List α)) : List (String × Node) → List α
  | [] => []
  | (_, child) :: rest => explore handle child ++ exploreChildren handle rest

end

mutual

def frontier (stop : Node → Option β) : Node → List (List String × β)
  | ⟨name, description, kind, children⟩ =>
      match stop ⟨name, description, kind, children⟩ with
      | some found => [([], found)]
      | none => frontierChildren stop children

def frontierChildren (stop : Node → Option β) : List (String × Node) → List (List String × β)
  | [] => []
  | (key, child) :: rest =>
      (frontier stop child).map (fun found => (key :: found.1, found.2)) ++ frontierChildren stop rest

end

theorem explore_eq (handle : Node → Option (List α)) (node : Node) :
    node.explore handle = (handle node).getD (exploreChildren handle node.children) := by
  cases node with
  | mk name description kind children =>
      rw [explore]
      cases handle ⟨name, description, kind, children⟩ <;> rfl

theorem frontier_eq (stop : Node → Option β) (node : Node) :
    node.frontier stop =
      ((stop node).map fun found => [([], found)]).getD (frontierChildren stop node.children) := by
  cases node with
  | mk name description kind children =>
      rw [frontier]
      cases stop ⟨name, description, kind, children⟩ <;> rfl

theorem frontier_children_eq (stop : Node → Option β) (children : List (String × Node)) :
    frontierChildren stop children = children.flatMap fun entry =>
      (entry.2.frontier stop).map fun found => (entry.1 :: found.1, found.2) := by
  induction children with
  | nil => rfl
  | cons entry rest ih => rw [frontierChildren, ih, List.flatMap_cons]

/-- Nodes below the top that are reached and handled. -/
theorem explore_children_eq_frontier (stop : Node → Option β) (handle : β → List α)
    (children : List (String × Node)) :
    exploreChildren (fun node => (stop node).map handle) children =
      (frontierChildren stop children).flatMap fun found => handle found.2 := by
  induction children using forest_induction with
  | nil => rfl
  | cons key child rest below beside =>
      rw [exploreChildren, frontierChildren, explore_eq, frontier_eq, beside, below, List.flatMap_append,
        List.flatMap_map]
      cases stop child <;> simp

theorem explore_eq_frontier (stop : Node → Option β) (handle : β → List α) (node : Node) :
    node.explore (fun node => (stop node).map handle) =
      (node.frontier stop).flatMap fun found => handle found.2 := by
  rw [explore_eq, frontier_eq, explore_children_eq_frontier stop handle]
  cases stop node <;> simp

theorem explore_children_forall {holds : α → Prop} {handle : Node → Option (List α)}
    (handled : ∀ node found, handle node = some found → ∀ item ∈ found, holds item)
    (children : List (String × Node)) : ∀ item ∈ exploreChildren handle children, holds item := by
  induction children using forest_induction with
  | nil =>
      rw [exploreChildren]
      exact List.forall_mem_nil _
  | cons key child rest below beside =>
      rw [exploreChildren, explore_eq, List.forall_mem_append]
      refine ⟨?_, beside⟩
      cases found : handle child with
      | some items => exact handled child items found
      | none => exact below

/-! ## The first nodes on their paths -/

/-- A path whose end is handled and with no other handled node on the way,
where the start of the path counts as well. -/
structure First (stop : Node → Option β) (node : Node) (path : List String) (found : β) : Prop where
  reached : ∃ last, node.walk path = some last ∧ stop last = some found
  passed : ∀ front, front <+: path → front ≠ path → ∀ middle, node.walk front = some middle →
    stop middle = none

/-- The same below the start, which is passed in any case. -/
structure FirstBelow (stop : Node → Option β) (node : Node) (path : List String) (found : β) : Prop where
  nonempty : path ≠ []
  reached : ∃ last, node.walk path = some last ∧ stop last = some found
  passed : ∀ front, front ≠ [] → front <+: path → front ≠ path →
    ∀ middle, node.walk front = some middle → stop middle = none

section Paths

variable {stop : Node → Option β} {node child : Node} {path : List String} {found : β}

theorem first_below_cons {name : String} {rest : List String} (here : node.get name = some child) :
    FirstBelow stop node (name :: rest) found ↔ First stop child rest found := by
  constructor
  · intro below
    refine ⟨?_, ?_⟩
    · rw [← walk_child here]
      exact below.reached
    · intro front inside apart middle walked
      exact below.passed (name :: front) (by simp) (by simpa using inside) (by simpa using apart)
        middle (by rw [walk_child here, walked])
  · intro first
    refine ⟨by simp, ?_, ?_⟩
    · rw [walk_child here]
      exact first.reached
    · intro front nonempty inside apart middle walked
      cases front with
      | nil => exact absurd rfl nonempty
      | cons other front =>
          obtain ⟨rfl, below⟩ := List.cons_prefix_cons.mp inside
          rw [walk_child here] at walked
          exact first.passed front below (by simpa using apart) middle walked

/-- What is first below a node is first from one of its children. -/
theorem first_below_iff :
    FirstBelow stop node path found ↔ ∃ name rest child, path = name :: rest ∧
      node.get name = some child ∧ First stop child rest found := by
  constructor
  · intro first
    cases path with
    | nil => exact absurd rfl first.nonempty
    | cons name rest =>
        obtain ⟨last, walked, _⟩ := first.reached
        obtain ⟨child, here, _⟩ := Option.bind_eq_some_iff.mp walked
        exact ⟨name, rest, child, rfl, here, (first_below_cons here).mp first⟩
  · rintro ⟨name, rest, child, rfl, here, first⟩
    exact (first_below_cons here).mpr first

theorem first_of_stop (stopped : stop node = some found) {other : β} :
    First stop node path other ↔ path = [] ∧ other = found := by
  constructor
  · intro first
    have here : path = [] := by
      by_contra apart
      have passed := first.passed [] List.nil_prefix (Ne.symm apart) node rfl
      rw [stopped] at passed
      cases passed
    subst here
    obtain ⟨last, walked, same⟩ := first.reached
    cases walked
    rw [stopped] at same
    exact ⟨rfl, (Option.some.inj same).symm⟩
  · rintro ⟨rfl, rfl⟩
    refine ⟨⟨node, rfl, stopped⟩, ?_⟩
    intro front inside apart
    exact absurd (List.prefix_nil.mp inside) apart

theorem first_of_passed (passed : stop node = none) :
    First stop node path found ↔ FirstBelow stop node path found := by
  constructor
  · intro first
    refine ⟨?_, first.reached, fun front _ => first.passed front⟩
    rintro rfl
    obtain ⟨last, walked, stopped⟩ := first.reached
    cases walked
    rw [passed] at stopped
    cases stopped
  · intro below
    refine ⟨below.reached, ?_⟩
    intro front inside apart middle walked
    by_cases empty : front = []
    · subst empty
      cases walked
      exact passed
    · exact below.passed front empty inside apart middle walked

theorem mem_frontier_children_iff (sorted : OrderedMap.Sorted node.children) :
    (path, found) ∈ frontierChildren stop node.children ↔
      ∃ name rest child, path = name :: rest ∧ node.get name = some child ∧
        (rest, found) ∈ child.frontier stop := by
  rw [frontier_children_eq]
  constructor
  · intro member
    obtain ⟨⟨name, child⟩, inside, below⟩ := List.mem_flatMap.mp member
    obtain ⟨⟨rest, other⟩, deeper, same⟩ := List.mem_map.mp below
    cases same
    exact ⟨name, rest, child, rfl, OrderedMap.lookup_of_mem sorted inside, deeper⟩
  · rintro ⟨name, rest, child, rfl, here, below⟩
    exact List.mem_flatMap.mpr ⟨(name, child), OrderedMap.mem_of_lookup here,
      List.mem_map.mpr ⟨(rest, found), below, rfl⟩⟩

theorem mem_frontier_iff (ordered : node.Ordered) :
    (path, found) ∈ node.frontier stop ↔ First stop node path found := by
  induction ordered generalizing path with
  | @intro node sorted below ih =>
      rw [frontier_eq]
      cases stopped : stop node with
      | some here => simp [first_of_stop stopped]
      | none =>
          rw [first_of_passed stopped, Option.map_none, Option.getD_none, mem_frontier_children_iff sorted,
            first_below_iff]
          constructor
          · rintro ⟨name, rest, child, path, here, member⟩
            exact ⟨name, rest, child, path, here, (ih _ (OrderedMap.mem_of_lookup here)).mp member⟩
          · rintro ⟨name, rest, child, path, here, first⟩
            exact ⟨name, rest, child, path, here, (ih _ (OrderedMap.mem_of_lookup here)).mpr first⟩

theorem mem_frontier_children_iff_first (ordered : node.Ordered) :
    (path, found) ∈ frontierChildren stop node.children ↔ FirstBelow stop node path found := by
  rw [mem_frontier_children_iff ordered.sorted, first_below_iff]
  constructor
  · rintro ⟨name, rest, child, path, here, member⟩
    exact ⟨name, rest, child, path, here, (mem_frontier_iff (ordered.of_get here)).mp member⟩
  · rintro ⟨name, rest, child, path, here, first⟩
    exact ⟨name, rest, child, path, here, (mem_frontier_iff (ordered.of_get here)).mpr first⟩

theorem frontier_children_paths_nodup {children : List (String × Node)}
    (sorted : OrderedMap.Sorted children)
    (below : ∀ entry ∈ children, ((entry.2.frontier stop).map Prod.fst).Nodup) :
    ((frontierChildren stop children).map Prod.fst).Nodup := by
  rw [frontier_children_eq, List.map_flatMap, List.nodup_flatMap]
  constructor
  · intro entry member
    have paths : ((entry.2.frontier stop).map fun found => (entry.1 :: found.1, found.2)).map Prod.fst =
        ((entry.2.frontier stop).map Prod.fst).map (entry.1 :: ·) := by
      rw [List.map_map, List.map_map]
      rfl
    rw [paths]
    exact (below entry member).map (fun _ _ same => (List.cons.inj same).2)
  · rw [OrderedMap.Sorted, List.pairwise_map] at sorted
    refine sorted.imp fun less => ?_
    intro path left right
    simp only [List.mem_map, exists_exists_and_eq_and] at left right
    obtain ⟨first, _, rfl⟩ := left
    obtain ⟨second, _, same⟩ := right
    exact absurd (List.cons.inj same).1 (ne_of_gt less)

theorem frontier_paths_nodup (ordered : node.Ordered) : ((node.frontier stop).map Prod.fst).Nodup := by
  induction ordered with
  | @intro node sorted below ih =>
      rw [frontier_eq]
      cases stop node with
      | some found => simp
      | none => exact frontier_children_paths_nodup sorted ih

/-- Two handled nodes on the way to one path are the same. -/
theorem first_unique {left right : List String} {leftFound rightFound : β}
    (leftFirst : First stop node left leftFound) (rightFirst : First stop node right rightFound)
    (leftFront : left <+: path) (rightFront : right <+: path) : left = right ∧ leftFound = rightFound := by
  have shorter {first second : List String} {firstFound secondFound : β}
      (firstStop : First stop node first firstFound) (secondStop : First stop node second secondFound)
      (inside : first <+: second) : first = second := by
    by_contra apart
    obtain ⟨last, walked, stopped⟩ := firstStop.reached
    have passed := secondStop.passed first inside apart last walked
    rw [stopped] at passed
    cases passed
  have same : left = right := by
    rcases List.prefix_or_prefix_of_prefix leftFront rightFront with inside | inside
    · exact shorter leftFirst rightFirst inside
    · exact (shorter rightFirst leftFirst inside).symm
  subst same
  obtain ⟨last, walked, stopped⟩ := leftFirst.reached
  obtain ⟨other, again, otherStopped⟩ := rightFirst.reached
  rw [walked] at again
  cases again
  rw [stopped] at otherStopped
  exact ⟨rfl, Option.some.inj otherStopped⟩

end Paths

section Extend

variable {γ : Type*} {stop : Node → Option β} {below : β → List (List String × γ)} {node : Node}

/-- What is found below the nodes of a frontier, with the whole paths. -/
def extend (stop : Node → Option β) (below : β → List (List String × γ)) (node : Node) :
    List (List String × γ) :=
  (node.frontier stop).flatMap fun found =>
    (below found.2).map fun origin => (found.1 ++ origin.1, origin.2)

theorem mem_extend_iff (ordered : node.Ordered) {path : List String} {value : γ} :
    (path, value) ∈ node.extend stop below ↔
      ∃ front rest found, path = front ++ rest ∧ First stop node front found ∧
        (rest, value) ∈ below found := by
  rw [extend, List.mem_flatMap]
  constructor
  · rintro ⟨⟨front, found⟩, member, inside⟩
    obtain ⟨⟨rest, other⟩, deeper, same⟩ := List.mem_map.mp inside
    cases same
    exact ⟨front, rest, found, rfl, (mem_frontier_iff ordered).mp member, deeper⟩
  · rintro ⟨front, rest, found, rfl, first, deeper⟩
    exact ⟨(front, found), (mem_frontier_iff ordered).mpr first,
      List.mem_map.mpr ⟨(rest, value), deeper, rfl⟩⟩

theorem extend_paths_nodup (ordered : node.Ordered)
    (inner : ∀ front found, First stop node front found → ((below found).map Prod.fst).Nodup) :
    ((node.extend stop below).map Prod.fst).Nodup := by
  rw [extend, List.map_flatMap, List.nodup_flatMap]
  constructor
  · intro found member
    have first := (mem_frontier_iff ordered).mp member
    have paths : ((below found.2).map fun origin => (found.1 ++ origin.1, origin.2)).map Prod.fst =
        ((below found.2).map Prod.fst).map (found.1 ++ ·) := by
      rw [List.map_map, List.map_map]
      rfl
    rw [paths]
    exact (inner found.1 found.2 first).map (fun _ _ same => List.append_cancel_left same)
  · have distinct : ((node.frontier stop).map Prod.fst).Nodup := frontier_paths_nodup ordered
    rw [List.Nodup, List.pairwise_map] at distinct
    refine distinct.imp_of_mem ?_
    intro left right leftMember rightMember apart path leftPath rightPath
    simp only [List.mem_map, exists_exists_and_eq_and] at leftPath rightPath
    obtain ⟨first, _, rfl⟩ := leftPath
    obtain ⟨second, _, same⟩ := rightPath
    exact apart (first_unique ((mem_frontier_iff ordered).mp leftMember)
      ((mem_frontier_iff ordered).mp rightMember) (List.prefix_append _ _)
      (same ▸ List.prefix_append _ _)).1

end Extend

end Crashlog.Node
