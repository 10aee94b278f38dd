import Crashlog.Graft
import Crashlog.Merge

/-!
# Trees merged in turn

Trees are merged into one, the first one first. Of two leaves with one name
that arrive at one place, the one that arrives first gets the smaller instance
number: when the other one comes, that number and all below it are taken.
-/

namespace Crashlog.Node

/-- The trees merged one after the other. -/
def mergeInTurn (start : Node) (trees : List Node) : Option Node := trees.foldlM merge start

theorem merge_in_turn_cons {start root tree : Node} {rest : List Node} :
    mergeInTurn start (tree :: rest) = some root ↔
      ∃ merged, start.merge tree = some merged ∧ mergeInTurn merged rest = some root := by
  rw [mergeInTurn, List.foldlM_cons]
  exact Option.bind_eq_some_iff

theorem merge_in_turn_append {start root : Node} {front back : List Node} :
    mergeInTurn start (front ++ back) = some root ↔
      ∃ middle, mergeInTurn start front = some middle ∧ mergeInTurn middle back = some root := by
  rw [mergeInTurn, List.foldlM_append]
  exact Option.bind_eq_some_iff

theorem merge_in_turn_extends {start root : Node} {trees : List Node}
    (merged : mergeInTurn start trees = some root) : start.Extends root := by
  induction trees generalizing start with
  | nil =>
      cases merged
      exact .refl _
  | cons tree rest ih =>
      obtain ⟨next, step, others⟩ := merge_in_turn_cons.mp merged
      exact (merge_extends step).trans (ih others)

/-- The nodes of the leaf are below the path, with their kinds and descriptions. -/
def HoldsAt (root : Node) (path : List String) (leaf : Node) : Prop :=
  ∀ below node, leaf.walk below = some node →
    ∃ now, root.walk (path ++ below) = some now ∧ now.label = node.label

section Arrival

variable {self merged root leaf : Node} {path : List String} {name : String}

theorem Extends.kind (extended : self.Extends root) {node : Node} (walked : self.walk path = some node) :
    ∃ now, root.walk path = some now ∧ now.kind = node.kind := by
  obtain ⟨now, found, same⟩ := extended path node walked
  exact ⟨now, found, congrArg Label.kind same⟩

theorem Extends.open_of (extended : self.Extends root) (sections : root.Open path) : self.Open path := by
  intro front nonempty inside node walked
  obtain ⟨now, found, same⟩ := extended.kind walked
  rw [← same]
  exact sections front nonempty inside now found

theorem Extends.holds_at (extended : merged.Extends root) (placed : merged.walk path = some leaf) :
    root.HoldsAt path leaf := by
  intro below node walked
  refine extended (path ++ below) node ?_
  rw [walk_append, placed, Option.bind_some, walked]

theorem holds_at_rename (held : root.HoldsAt path { leaf with name }) : root.HoldsAt path leaf := by
  intro below node walked
  cases below with
  | nil =>
      cases walked
      exact held [] { leaf with name } rfl
  | cons first rest => exact held (first :: rest) node walked

/-- A node of the plain name is a record. -/
def PlainRecord (root : Node) (path : List String) (name : String) : Prop :=
  ∀ node, root.walk (path ++ [name]) = some node → node.kind = .record

theorem Extends.plain_record_of (extended : self.Extends root) (plain : root.PlainRecord path name) :
    self.PlainRecord path name := by
  intro node walked
  obtain ⟨now, found, same⟩ := extended.kind walked
  rw [← same]
  exact plain now found

/-- The numbers start over after one round, so the first free one is in it. -/
theorem instances_of_free (plain : self.PlainRecord path name) {tries : Nat}
    (free : self.walk (path ++ [Text.instanceName name tries]) = none) :
    ∃ count ≤ 2 ^ 32, self.Instances path name count := by
  classical
  have some_free : ∃ tries, self.walk (path ++ [Text.instanceName name tries]) = none := ⟨tries, free⟩
  have taken : ∀ i < Nat.find some_free, (self.walk (path ++ [Text.instanceName name i])).isSome :=
    fun i below => Option.isSome_iff_ne_none.mpr (Nat.find_min some_free below)
  refine ⟨Nat.find some_free, ?_, taken, Nat.find_spec some_free, plain⟩
  by_contra late
  obtain ⟨behind, same⟩ : ∃ behind, Nat.find some_free = behind + 1 := ⟨Nat.find some_free - 1, by omega⟩
  have again := taken (behind % 2 ^ 32 + 1) (by omega)
  rw [Text.instance_name_round, ← same, Nat.find_spec some_free] at again
  cases again

variable [UnicodeTables]

/-- The leaf of a branch that was merged is under the first number that was free. -/
theorem arrived (lowercase : ∀ segment ∈ path, Lowercase segment)
    (step : self.merge (newRoot.hang leaf path) = some merged) (sections : merged.Open path)
    (plain : merged.PlainRecord path leaf.name) :
    ∃ count, self.Instances path leaf.name count ∧
      merged.walk (path ++ [Text.instanceName leaf.name count]) =
        some { leaf with name := Text.instanceName leaf.name count } := by
  have extended := merge_extends step
  have before := extended.plain_record_of plain
  have some_free : ∃ tries, self.walk (path ++ [Text.instanceName leaf.name tries]) = none := by
    by_contra none_free
    have endless := @merge_hang_endless _ self newRoot leaf path lowercase (extended.open_of sections)
      (fun tries => Option.isSome_iff_ne_none.mpr fun free => none_free ⟨tries, free⟩) before
    rw [endless] at step
    cases step
  obtain ⟨tries, free⟩ := some_free
  obtain ⟨count, round, instances⟩ := instances_of_free before free
  obtain ⟨after, result, grafted⟩ :=
    @merge_hang _ self newRoot leaf path count lowercase (extended.open_of sections) instances round
  rw [step, Option.some_inj] at result
  rw [result]
  exact ⟨count, instances, grafted.placed⟩

omit [UnicodeTables] in
/-- The numbers up to that of the first leaf are taken when the other one arrives. -/
theorem number_lt {later : Node} {i j : Nat} (first : self.Instances path name i)
    (placed : (merged.walk (path ++ [Text.instanceName name i])).isSome) (grown : self.Extends merged)
    (kept : merged.Extends later) (second : later.Instances path name j) : i < j := by
  have taken (number : Nat) (within : number ≤ i) :
      (later.walk (path ++ [Text.instanceName name number])).isSome := by
    have held : (merged.walk (path ++ [Text.instanceName name number])).isSome := by
      rcases Nat.lt_or_eq_of_le within with below | rfl
      · obtain ⟨node, walked⟩ := Option.isSome_iff_exists.mp (first.taken number below)
        obtain ⟨now, found, _⟩ := grown _ node walked
        rw [found]
        rfl
      · exact placed
    obtain ⟨node, walked⟩ := Option.isSome_iff_exists.mp held
    obtain ⟨now, found, _⟩ := kept _ node walked
    rw [found]
    rfl
  by_contra reached
  have held := taken j (by omega)
  rw [second.free] at held
  cases held

end Arrival

/-- Branches to one place, with leaves of one name, are numbered as they arrive. -/
theorem branches_numbered [UnicodeTables] {start root leaf other : Node} {before between after : List Node}
    {path : List String}
    (merged : mergeInTurn start (before ++ newRoot.hang leaf path :: (between ++ newRoot.hang other path :: after)) =
      some root)
    (named : leaf.name = other.name) (lowercase : ∀ segment ∈ path, Lowercase segment) (sections : root.Open path)
    (plain : root.PlainRecord path leaf.name) :
    ∃ i j, i < j ∧ root.HoldsAt (path ++ [Text.instanceName leaf.name i]) leaf ∧
      root.HoldsAt (path ++ [Text.instanceName leaf.name j]) other := by
  obtain ⟨first, _, rest⟩ := merge_in_turn_append.mp merged
  obtain ⟨next, firstStep, later⟩ := merge_in_turn_cons.mp rest
  obtain ⟨second, ran, last⟩ := merge_in_turn_append.mp later
  obtain ⟨final, secondStep, others⟩ := merge_in_turn_cons.mp last
  have fromNext := merge_in_turn_extends later
  have fromFinal := merge_in_turn_extends others
  obtain ⟨i, firstInstances, firstPlaced⟩ :=
    arrived lowercase firstStep (fromNext.open_of sections) (fromNext.plain_record_of plain)
  obtain ⟨j, secondInstances, secondPlaced⟩ := arrived lowercase secondStep (fromFinal.open_of sections)
    (fromFinal.plain_record_of (named ▸ plain))
  rw [← named] at secondInstances secondPlaced
  refine ⟨i, j, ?_, holds_at_rename (fromNext.holds_at firstPlaced),
    holds_at_rename (fromFinal.holds_at secondPlaced)⟩
  refine number_lt firstInstances ?_ (merge_extends firstStep) (merge_in_turn_extends ran) secondInstances
  rw [firstPlaced]
  rfl

end Crashlog.Node
