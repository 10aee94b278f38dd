import Crashlog.Label
import Crashlog.Traversal
import Mathlib.Data.List.Forall2
import Mathlib.Data.Multiset.OrderedMonoid
import Mathlib.Data.Nat.Find
import Mathlib.Tactic.Abel

/-!
# What a merge keeps

A merge goes down where a section has the name of a child that arrives, and
adds the child elsewhere, under a free instance name if its own is taken by a
record or a field. Nothing of the first tree is ever touched. Of the second
tree only a field that arrives at a section is lost: the section takes over
its children, but it has no place for a value.
-/

namespace Crashlog

def NodeType.values : NodeType → Multiset UInt64
  | .field value => {value}
  | _ => 0

namespace Node

/-! ## The steps of a merge -/

/-- The body of the loop of `merge`. -/
def mergeChild (self child : Node) : Option Node :=
  match self.get child.name with
  | none => some (self.add child)
  | some selfChild =>
      match selfChild.kind with
      | .record | .field _ => self.mergeInstance child
      | .root | .sect => (merge selfChild child).map (self.setChild child.name)

theorem merge_children_step (self child : Node) (key : String) (rest : List (String × Node)) :
    self.mergeChildren ((key, child) :: rest) =
      (self.mergeChild child).bind fun merged => merged.mergeChildren rest :=
  merge_children_cons self child key rest

/-- The section, or the root, that has a name. -/
def heldSection (self : Node) (name : String) : Option Node :=
  (self.get name).filter fun held => held.kind = .root ∨ held.kind = .sect

theorem held_section_eq_some_iff {self held : Node} {name : String} :
    self.heldSection name = some held ↔
      self.get name = some held ∧ (held.kind = .root ∨ held.kind = .sect) := by
  rw [heldSection, Option.filter_eq_some_iff, decide_eq_true_iff]

theorem merge_child_of_section {self held child : Node} (found : self.heldSection child.name = some held) :
    self.mergeChild child = (held.merge child).map (self.setChild child.name) := by
  obtain ⟨stored, kind⟩ := held_section_eq_some_iff.mp found
  unfold mergeChild
  rw [stored]
  rcases kind with kind | kind <;> simp only [kind]

/-- The child is added as it is when its name is free, so both cases are one search. -/
theorem merge_child_of_other {self child : Node} (other : self.heldSection child.name = none) :
    self.mergeChild child = self.mergeInstance child := by
  unfold mergeChild
  cases stored : self.get child.name with
  | none =>
      have free : self.get (Text.instanceName child.name 0) = none := stored
      rw [merge_instance_eq_some (Nat.zero_le _) (by simp) free]
      cases child
      rfl
  | some held =>
      cases kind : held.kind with
      | root =>
          rw [held_section_eq_some_iff.mpr ⟨stored, .inl kind⟩] at other
          cases other
      | sect =>
          rw [held_section_eq_some_iff.mpr ⟨stored, .inr kind⟩] at other
          cases other
      | record => simp only [kind]
      | field value => simp only [kind]

/-- The first instance name that no child has. -/
def FirstFree (self : Node) (name : String) (tries : Nat) : Prop :=
  self.get (Text.instanceName name tries) = none ∧
    ∀ earlier < tries, (self.get (Text.instanceName name earlier)).isSome

/-- The names start over after one round, so the first free one is in it. -/
theorem FirstFree.tries_le {self : Node} {name : String} {tries : Nat} (first : self.FirstFree name tries) :
    tries ≤ 2 ^ 32 := by
  by_contra late
  obtain ⟨behind, rfl⟩ : ∃ behind, tries = behind + 1 := ⟨tries - 1, by omega⟩
  have taken := first.2 (behind % 2 ^ 32 + 1) (by omega)
  rw [Text.instance_name_round, first.1] at taken
  cases taken

theorem merge_instance_eq_some_iff {self child after : Node} :
    self.mergeInstance child = some after ↔
      ∃ tries, self.FirstFree child.name tries ∧
        after = self.add { child with name := Text.instanceName child.name tries } := by
  constructor
  · intro merged
    have some_free : ∃ tries, self.get (Text.instanceName child.name tries) = none := by
      by_contra none_free
      have endless : self.mergeInstance child = none :=
        merge_instance_endless.mpr fun tries =>
          Option.isSome_iff_ne_none.mpr fun free => none_free ⟨tries, free⟩
      rw [endless] at merged
      cases merged
    classical
    have first : self.FirstFree child.name (Nat.find some_free) :=
      ⟨Nat.find_spec some_free, fun earlier before =>
        Option.isSome_iff_ne_none.mpr (Nat.find_min some_free before)⟩
    rw [merge_instance_eq_some first.tries_le first.2 first.1] at merged
    exact ⟨Nat.find some_free, first, (Option.some.inj merged).symm⟩
  · rintro ⟨tries, first, rfl⟩
    exact merge_instance_eq_some first.tries_le first.2 first.1

/-- Everything that a step of a merge can do: the child is added under a free
name, or merged into the section that has its name. -/
theorem merge_child_cases {self child after : Node} (merged : self.mergeChild child = some after) :
    (∃ name, self.heldSection child.name = none ∧ self.get name = none ∧
      after = self.add { child with name }) ∨
    ∃ held into, self.heldSection child.name = some held ∧ held.merge child = some into ∧
      after = self.setChild child.name into := by
  cases found : self.heldSection child.name with
  | none =>
      rw [merge_child_of_other found] at merged
      obtain ⟨tries, first, same⟩ := merge_instance_eq_some_iff.mp merged
      exact .inl ⟨_, rfl, first.1, same⟩
  | some held =>
      rw [merge_child_of_section found] at merged
      obtain ⟨into, done, same⟩ := Option.map_eq_some_iff.mp merged
      exact .inr ⟨held, into, rfl, done, same.symm⟩

/-! ## The first tree stays -/

/-- Every node of the tree is still at its path, with its kind and description. -/
def Extends (self after : Node) : Prop :=
  ∀ path node, self.walk path = some node → ∃ now, after.walk path = some now ∧ now.label = node.label

namespace Extends

variable {self between after child held into : Node} {name : String}

theorem refl (self : Node) : self.Extends self := fun _ node walked => ⟨node, walked, rfl⟩

theorem trans (first : self.Extends between) (second : between.Extends after) : self.Extends after := by
  intro path node walked
  obtain ⟨middle, reached, labels⟩ := first path node walked
  obtain ⟨now, found, same⟩ := second path middle reached
  exact ⟨now, found, same.trans labels⟩

/-- A child under a free name hides nothing, and neither does one that extends
the child it replaces. -/
theorem set_child (present : self.get name = none ∨ ∃ held, self.get name = some held ∧ held.Extends child) :
    self.Extends (self.setChild name child) := by
  intro path node walked
  cases path with
  | nil =>
      cases walked
      exact ⟨_, rfl, rfl⟩
  | cons first rest =>
      by_cases same : name = first
      · subst same
        rcases present with free | ⟨held, stored, extended⟩
        · rw [walk_cons, free, Option.bind_none] at walked
          cases walked
        · rw [walk_child stored] at walked
          rw [walk_set_child_self]
          exact extended rest node walked
      · rw [walk_set_child_ne _ _ same]
        exact ⟨node, walked, rfl⟩

end Extends

theorem merge_children_extends (children : List (String × Node)) :
    ∀ self after : Node, self.mergeChildren children = some after → self.Extends after := by
  induction children using forest_induction with
  | nil =>
      intro self after merged
      rw [mergeChildren] at merged
      cases merged
      exact .refl self
  | cons key child rest below later =>
      intro self after merged
      rw [merge_children_step] at merged
      obtain ⟨between, step, others⟩ := Option.bind_eq_some_iff.mp merged
      refine Extends.trans ?_ (later between after others)
      rcases merge_child_cases step with ⟨name, _, free, rfl⟩ | ⟨held, into, found, inner, rfl⟩
      · exact .set_child (.inl free)
      · rw [merge_eq] at inner
        have stored := (held_section_eq_some_iff.mp found).1
        exact .set_child (.inr ⟨held, stored, below held into inner⟩)

theorem merge_extends {self other after : Node} (merged : self.merge other = some after) :
    self.Extends after := by
  rw [merge_eq] at merged
  exact merge_children_extends other.children self after merged

/-! ## The values of a tree -/

mutual

/-- The values of all fields of a tree. -/
def fieldValues : Node → Multiset UInt64
  | ⟨_, _, kind, children⟩ => kind.values + childValues children

def childValues : List (String × Node) → Multiset UInt64
  | [] => 0
  | (_, child) :: rest => fieldValues child + childValues rest

end

mutual

/-- The values of the fields that a merge brings to a section or a root, as
which they are lost. -/
def lostValues (self : Node) : Node → Multiset UInt64
  | ⟨_, _, kind, children⟩ => kind.values + lostBelow self children

def lostBelow (self : Node) : List (String × Node) → Multiset UInt64
  | [] => 0
  | (_, child) :: rest =>
      (match self.heldSection child.name with
        | some held => lostValues held child
        | none => 0) +
      match self.mergeChild child with
      | some merged => lostBelow merged rest
      | none => 0

end

theorem field_values_eq (node : Node) : node.fieldValues = node.kind.values + childValues node.children := by
  cases node
  rw [fieldValues]

theorem lost_values_eq (self other : Node) :
    self.lostValues other = other.kind.values + self.lostBelow other.children := by
  cases other
  rw [lostValues]

theorem child_values_eq (children : List (String × Node)) :
    childValues children = (children.map fun entry => entry.2.fieldValues).sum := by
  induction children with
  | nil => rfl
  | cons entry rest ih => rw [childValues, ih, List.map_cons, List.sum_cons]

theorem field_values_rename (child : Node) (name : String) :
    ({ child with name } : Node).fieldValues = child.fieldValues := by
  rw [field_values_eq, field_values_eq]

theorem field_values_set_child {self : Node} (sorted : OrderedMap.Sorted self.children) (name : String)
    (child : Node) :
    (self.setChild name child).fieldValues + (self.get name).elim 0 fieldValues =
      self.fieldValues + child.fieldValues := by
  have exchanged := OrderedMap.sum_insert sorted name child fieldValues
  rw [← child_values_eq, ← child_values_eq] at exchanged
  rw [field_values_eq (self.setChild name child), field_values_eq self]
  change self.kind.values + childValues (OrderedMap.insert name child self.children) +
    (OrderedMap.lookup self.children name).elim 0 fieldValues = _
  rw [add_assoc, exchanged, add_assoc]

theorem Ordered.rename {child : Node} (ordered : child.Ordered) (name : String) :
    ({ child with name } : Node).Ordered :=
  ordered.of_children rfl

/-- The values that a section gains are gained by the node with the section. -/
theorem merged_section_values {self held into child : Node} (sorted : OrderedMap.Sorted self.children)
    (stored : self.get child.name = some held)
    (inner : into.fieldValues + held.lostBelow child.children = held.fieldValues + childValues child.children) :
    (self.setChild child.name into).fieldValues + held.lostBelow child.children =
      self.fieldValues + childValues child.children := by
  have exchanged := field_values_set_child sorted child.name into
  rw [stored, Option.elim_some] at exchanged
  apply add_right_cancel (b := held.fieldValues)
  rw [add_right_comm, exchanged, add_assoc, inner]
  abel

/-- What the result of a merge has and what is lost make up what was there. -/
theorem merge_children_values (children : List (String × Node)) :
    ∀ self after : Node, self.Ordered → (∀ entry ∈ children, entry.2.Ordered) →
      self.mergeChildren children = some after →
      after.Ordered ∧
        after.fieldValues + self.lostBelow children = self.fieldValues + childValues children := by
  induction children using forest_induction with
  | nil =>
      intro self after ordered _ merged
      rw [mergeChildren] at merged
      cases merged
      exact ⟨ordered, by rw [lostBelow, childValues]⟩
  | cons key child rest below later =>
      intro self after ordered each merged
      rw [merge_children_step] at merged
      obtain ⟨between, step, others⟩ := Option.bind_eq_some_iff.mp merged
      have childOrdered : child.Ordered := each (key, child) (by simp)
      have restOrdered : ∀ entry ∈ rest, entry.2.Ordered := fun entry member => each entry (by simp [member])
      rw [lostBelow, step, childValues]
      rcases merge_child_cases step with ⟨name, other, free, rfl⟩ | ⟨held, into, found, inner, rfl⟩
      · obtain ⟨afterOrdered, values⟩ := later _ after (ordered.add (childOrdered.rename name)) restOrdered others
        have added := field_values_set_child ordered.sorted name { child with name }
        rw [free, field_values_rename, Option.elim_none, add_zero] at added
        refine ⟨afterOrdered, ?_⟩
        simp only [other, zero_add]
        rw [values, add, added, add_assoc]
      · have stored := (held_section_eq_some_iff.mp found).1
        have heldOrdered := ordered.of_get stored
        rw [merge_eq] at inner
        obtain ⟨intoOrdered, innerValues⟩ := below held into heldOrdered childOrdered.children inner
        obtain ⟨afterOrdered, values⟩ :=
          later _ after (ordered.set_child intoOrdered child.name) restOrdered others
        have balance := merged_section_values ordered.sorted stored innerValues
        refine ⟨afterOrdered, ?_⟩
        simp only [found]
        rw [lost_values_eq, field_values_eq child]
        calc after.fieldValues + (child.kind.values + held.lostBelow child.children +
              (self.setChild child.name into).lostBelow rest)
            = (after.fieldValues + (self.setChild child.name into).lostBelow rest) +
                (child.kind.values + held.lostBelow child.children) := by abel
          _ = ((self.setChild child.name into).fieldValues + held.lostBelow child.children) +
                (child.kind.values + childValues rest) := by rw [values]; abel
          _ = self.fieldValues + (child.kind.values + childValues child.children + childValues rest) := by
              rw [balance]
              abel

theorem merge_values {self other after : Node} (selfOrdered : self.Ordered) (otherOrdered : other.Ordered)
    (merged : self.merge other = some after) :
    after.fieldValues + self.lostValues other = self.fieldValues + other.fieldValues := by
  rw [merge_eq] at merged
  have values := (merge_children_values other.children self after selfOrdered otherOrdered.children merged).2
  rw [lost_values_eq, field_values_eq other, add_left_comm, values, add_left_comm]

/-! ## Children under their names -/

/-- Every child is stored under its name, as `add` does it. -/
inductive Keyed : Node → Prop
  | intro {node : Node} (named : ∀ entry ∈ node.children, entry.2.name = entry.1)
      (below : ∀ entry ∈ node.children, Keyed entry.2) : Keyed node

namespace Keyed

variable {node child : Node} {name : String}

theorem childless (empty : node.children = []) : node.Keyed :=
  .intro (by simp [empty]) (by simp [empty])

theorem named (keyed : node.Keyed) : ∀ entry ∈ node.children, entry.2.name = entry.1 := by
  cases keyed with
  | intro named below => exact named

theorem children (keyed : node.Keyed) : ∀ entry ∈ node.children, entry.2.Keyed := by
  cases keyed with
  | intro named below => exact below

theorem of_get (keyed : node.Keyed) (found : node.get name = some child) :
    child.name = name ∧ child.Keyed := by
  have member := OrderedMap.mem_of_lookup found
  exact ⟨keyed.named _ member, keyed.children _ member⟩

theorem set_child (keyed : node.Keyed) (childKeyed : child.Keyed) (named : child.name = name) :
    (node.setChild name child).Keyed := by
  constructor
  · intro entry member
    rcases OrderedMap.mem_insert member with rfl | old
    · exact named
    · exact keyed.named entry old
  · intro entry member
    rcases OrderedMap.mem_insert member with rfl | old
    · exact childKeyed
    · exact keyed.children entry old

theorem add (keyed : node.Keyed) (childKeyed : child.Keyed) : (node.add child).Keyed :=
  keyed.set_child childKeyed rfl

theorem rename (keyed : node.Keyed) (name : String) : ({ node with name } : Node).Keyed :=
  .intro keyed.named keyed.children

end Keyed

theorem merge_children_keyed (children : List (String × Node)) :
    ∀ self after : Node, self.Keyed → (∀ entry ∈ children, entry.2.Keyed) →
      self.mergeChildren children = some after → after.name = self.name ∧ after.Keyed := by
  induction children using forest_induction with
  | nil =>
      intro self after keyed _ merged
      rw [mergeChildren] at merged
      cases merged
      exact ⟨rfl, keyed⟩
  | cons key child rest below later =>
      intro self after keyed each merged
      rw [merge_children_step] at merged
      obtain ⟨between, step, others⟩ := Option.bind_eq_some_iff.mp merged
      have childKeyed : child.Keyed := each (key, child) (by simp)
      have restKeyed : ∀ entry ∈ rest, entry.2.Keyed := fun entry member => each entry (by simp [member])
      have stepKeyed : between.name = self.name ∧ between.Keyed := by
        rcases merge_child_cases step with ⟨name, _, _, rfl⟩ | ⟨held, into, found, inner, rfl⟩
        · exact ⟨rfl, keyed.add (childKeyed.rename name)⟩
        · obtain ⟨heldName, heldKeyed⟩ := keyed.of_get (held_section_eq_some_iff.mp found).1
          rw [merge_eq] at inner
          obtain ⟨sameName, intoKeyed⟩ := below held into heldKeyed childKeyed.children inner
          exact ⟨rfl, keyed.set_child intoKeyed (sameName.trans heldName)⟩
      obtain ⟨sameName, afterKeyed⟩ := later between after stepKeyed.2 restKeyed others
      exact ⟨sameName.trans stepKeyed.1, afterKeyed⟩

theorem Keyed.merge {self other after : Node} (keyed : self.Keyed) (otherKeyed : other.Keyed)
    (merged : self.merge other = some after) : after.Keyed := by
  rw [merge_eq] at merged
  exact (merge_children_keyed other.children self after keyed otherKeyed.children merged).2

/-! ## When nothing is lost -/

mutual

/-- No field is brought to a section or a root, and there is a free name for
everything that is added. -/
def MergesWhole (self : Node) : Node → Prop
  | ⟨_, _, kind, children⟩ => (∀ value, kind ≠ .field value) ∧ MergesWholeBelow self children

/-- A child that is added may take the name of one that arrives later. What is
merged into a section takes no name of this level. -/
def MergesWholeBelow (self : Node) : List (String × Node) → Prop
  | [] => True
  | (_, child) :: rest =>
      match self.heldSection child.name with
      | some held => MergesWhole held child ∧ MergesWholeBelow self rest
      | none => ∃ tries, self.FirstFree child.name tries ∧
          MergesWholeBelow (self.add { child with name := Text.instanceName child.name tries }) rest

end

theorem merges_whole_eq (self other : Node) :
    self.MergesWhole other ↔
      (∀ value, other.kind ≠ .field value) ∧ self.MergesWholeBelow other.children := by
  cases other
  rw [MergesWhole]

theorem values_eq_zero_iff (kind : NodeType) : kind.values = 0 ↔ ∀ value, kind ≠ .field value := by
  cases kind <;> simp [NodeType.values]

/-- Only names matter for what is added, and only the sections that children
arrive at are looked into. -/
theorem merges_whole_below_congr {name : String} (children : List (String × Node))
    (absent : ∀ entry ∈ children, entry.2.name ≠ name) {self other : Node}
    (apart : ∀ key, name ≠ key → self.get key = other.get key)
    (present : (self.get name).isSome = (other.get name).isSome) :
    self.MergesWholeBelow children ↔ other.MergesWholeBelow children := by
  induction children generalizing self other with
  | nil => rw [MergesWholeBelow, MergesWholeBelow]
  | cons entry rest ih =>
      obtain ⟨key, child⟩ := entry
      have restAbsent : ∀ entry ∈ rest, entry.2.name ≠ name := fun entry member => absent entry (by simp [member])
      have stored : self.get child.name = other.get child.name := apart _ (absent (key, child) (by simp)).symm
      have taken : ∀ key, (self.get key).isSome = (other.get key).isSome := by
        intro key
        by_cases same : name = key
        · rw [← same, present]
        · rw [apart key same]
      rw [MergesWholeBelow, MergesWholeBelow, heldSection, heldSection, stored]
      cases (other.get child.name).filter _ with
      | some held => simp only [ih restAbsent apart present]
      | none =>
          have firsts : ∀ tries, self.FirstFree child.name tries ↔ other.FirstFree child.name tries := by
            intro tries
            simp only [FirstFree, ← Option.isNone_iff_eq_none, ← Option.not_isSome, taken]
          have added : ∀ free, (self.add { child with name := free }).MergesWholeBelow rest ↔
              (other.add { child with name := free }).MergesWholeBelow rest := by
            intro free
            apply ih restAbsent
            · intro key away
              rw [add, add, get_set_child, get_set_child, apart key away]
            · rw [add, add, get_set_child, get_set_child]
              split_ifs
              · rfl
              · exact present
          simp only [firsts, added]

theorem merges_whole_added_iff {self child : Node} (other : self.heldSection child.name = none)
    (key : String) (rest : List (String × Node)) :
    self.MergesWholeBelow ((key, child) :: rest) ↔
      ∃ merged, self.mergeInstance child = some merged ∧ merged.MergesWholeBelow rest := by
  rw [MergesWholeBelow, other]
  constructor
  · rintro ⟨tries, first, whole⟩
    exact ⟨_, merge_instance_eq_some_iff.mpr ⟨tries, first, rfl⟩, whole⟩
  · rintro ⟨merged, added, whole⟩
    obtain ⟨tries, first, rfl⟩ := merge_instance_eq_some_iff.mp added
    exact ⟨tries, first, whole⟩

/-- It does not matter what became of the section. -/
theorem merges_whole_merged_iff {self held child : Node} (found : self.heldSection child.name = some held)
    {rest : List (String × Node)} (absent : ∀ entry ∈ rest, entry.2.name ≠ child.name) (key : String)
    (into : Node) :
    self.MergesWholeBelow ((key, child) :: rest) ↔
      held.MergesWhole child ∧ (self.setChild child.name into).MergesWholeBelow rest := by
  have stored := (held_section_eq_some_iff.mp found).1
  have kept : self.MergesWholeBelow rest ↔ (self.setChild child.name into).MergesWholeBelow rest :=
    merges_whole_below_congr rest absent (fun key away => (get_set_child_ne self into away).symm)
      (by rw [stored, get_set_child_self]; rfl)
  rw [MergesWholeBelow, found, ← kept]

theorem merges_whole_below_iff (children : List (String × Node)) :
    ∀ self : Node, OrderedMap.Sorted children → (∀ entry ∈ children, entry.2.name = entry.1) →
      (∀ entry ∈ children, entry.2.Ordered ∧ entry.2.Keyed) →
        (self.MergesWholeBelow children ↔
          (self.mergeChildren children).isSome ∧ self.lostBelow children = 0) := by
  induction children using forest_induction with
  | nil =>
      intro self _ _ _
      rw [MergesWholeBelow, mergeChildren, lostBelow]
      simp
  | cons key child rest below later =>
      intro self sorted named each
      obtain ⟨childOrdered, childKeyed⟩ := each (key, child) (by simp)
      obtain ⟨least, restSorted⟩ := List.pairwise_cons.mp sorted
      have restNamed : ∀ entry ∈ rest, entry.2.name = entry.1 := fun entry member => named entry (by simp [member])
      have after : ∀ self : Node, self.MergesWholeBelow rest ↔
          (self.mergeChildren rest).isSome ∧ self.lostBelow rest = 0 := fun self =>
        later self restSorted restNamed fun entry member => each entry (by simp [member])
      rw [merge_children_step, lostBelow]
      cases found : self.heldSection child.name with
      | none =>
          rw [merges_whole_added_iff found, merge_child_of_other found]
          cases step : self.mergeInstance child with
          | none => simp
          | some merged => simp [after]
      | some held =>
          have inner : held.MergesWholeBelow child.children ↔
              (held.mergeChildren child.children).isSome ∧ held.lostBelow child.children = 0 :=
            below held childOrdered.sorted childKeyed.named fun entry member =>
              ⟨childOrdered.children entry member, childKeyed.children entry member⟩
          have absent : ∀ entry ∈ rest, entry.2.name ≠ child.name := by
            intro entry member same
            rw [restNamed entry member, named (key, child) (by simp)] at same
            exact absurd same (ne_of_gt (least entry.1 (List.mem_map_of_mem member)))
          rw [merge_child_of_section found, merge_eq]
          cases step : held.mergeChildren child.children with
          | none =>
              rw [merges_whole_merged_iff found absent key held, merges_whole_eq, inner, step]
              simp
          | some into =>
              rw [merges_whole_merged_iff found absent key into, merges_whole_eq, inner, step, after]
              simp only [Option.map_some, Option.bind_some, Option.isSome_some, true_and, add_eq_zero,
                values_eq_zero_iff, lost_values_eq]
              exact and_left_comm

theorem merges_whole_iff (self : Node) {other : Node} (ordered : other.Ordered) (keyed : other.Keyed) :
    self.MergesWhole other ↔ (self.merge other).isSome ∧ self.lostValues other = 0 := by
  rw [merges_whole_eq, merges_whole_below_iff other.children self ordered.sorted keyed.named
    fun entry member => ⟨ordered.children entry member, keyed.children entry member⟩]
  rw [lost_values_eq, add_eq_zero, values_eq_zero_iff, merge_eq]
  exact and_left_comm

/-! ## Where the fields land -/

/-- Each name of the place is the one on the path, or that name with an instance number. -/
def PlaceOf (place path : List String) : Prop :=
  List.Forall₂ (fun name original => ∃ tries, name = Text.instanceName original tries) place path

theorem PlaceOf.self (path : List String) : PlaceOf path path :=
  List.forall₂_same.mpr fun _ _ => ⟨0, rfl⟩

/-- Every field of the second tree is in the merged one, with its value and its
description: under its own name, or under its name with an instance number, in
the sections that took over the ones it was in, or in copies of them. -/
def Lands (other merged : Node) : Prop :=
  ∀ path node value, other.walk path = some node → node.kind = .field value →
    ∃ place found, PlaceOf place path ∧ merged.walk place = some found ∧ found.label = node.label

/-- A child that is copied has its nodes where it had them. -/
theorem walk_copied (self child : Node) (name : String) {path : List String} {node : Node}
    (walked : child.walk path = some node) :
    ∃ found, (self.add { child with name }).walk (name :: path) = some found ∧ found.label = node.label := by
  rw [add, walk_set_child_self]
  cases path with
  | nil =>
      cases walked
      exact ⟨_, rfl, rfl⟩
  | cons first rest => exact ⟨node, walked, rfl⟩

theorem merge_children_lands (children : List (String × Node)) :
    ∀ self after : Node, (∀ entry ∈ children, entry.2.Keyed) → self.lostBelow children = 0 →
      self.mergeChildren children = some after →
        ∀ entry ∈ children, ∀ path node value, entry.2.walk path = some node → node.kind = .field value →
          ∃ place found, PlaceOf place (entry.2.name :: path) ∧ after.walk place = some found ∧
            found.label = node.label := by
  induction children using forest_induction with
  | nil =>
      intro self after _ _ _ entry member
      exact absurd member List.not_mem_nil
  | cons key child rest below later =>
      intro self after keyed kept merged
      rw [List.forall_mem_cons] at keyed
      rw [merge_children_step] at merged
      obtain ⟨between, step, others⟩ := Option.bind_eq_some_iff.mp merged
      rw [lostBelow, step, add_eq_zero] at kept
      have carried : ∀ place found, between.walk place = some found → ∃ now, after.walk place = some now ∧
          now.label = found.label := merge_children_extends rest between after others
      rw [List.forall_mem_cons]
      refine ⟨?_, later between after keyed.2 kept.2 others⟩
      intro path node value walked kind
      -- It is enough to find the field before the rest of the children arrive.
      suffices between : ∃ place found, PlaceOf place (child.name :: path) ∧ between.walk place = some found ∧
          found.label = node.label by
        obtain ⟨place, found, named, here, same⟩ := between
        obtain ⟨now, there, label⟩ := carried place found here
        exact ⟨place, now, named, there, label.trans same⟩
      cases held : self.heldSection child.name with
      | none =>
          rw [merge_child_of_other held] at step
          obtain ⟨tries, _, rfl⟩ := merge_instance_eq_some_iff.mp step
          obtain ⟨found, here, same⟩ := walk_copied self child (Text.instanceName child.name tries) walked
          exact ⟨_ :: path, found, .cons ⟨tries, rfl⟩ (PlaceOf.self path), here, same⟩
      | some sect =>
          rw [held] at kept
          have whole : sect.lostValues child = 0 := kept.1
          rw [lost_values_eq, add_eq_zero, values_eq_zero_iff] at whole
          rw [merge_child_of_section held, merge_eq] at step
          obtain ⟨into, inner, rfl⟩ := Option.map_eq_some_iff.mp step
          cases path with
          | nil =>
              cases walked
              exact absurd kind (whole.1 value)
          | cons first rest =>
              rw [walk_cons] at walked
              obtain ⟨grandchild, stored, walked⟩ := Option.bind_eq_some_iff.mp walked
              obtain ⟨place, found, named, here, same⟩ := below sect into keyed.1.children whole.2 inner
                (first, grandchild) (OrderedMap.mem_of_lookup stored) rest node value walked kind
              rw [(keyed.1.of_get stored).1] at named
              refine ⟨child.name :: place, found, .cons ⟨0, rfl⟩ named, ?_, same⟩
              rw [walk_set_child_self, here]

theorem merge_lands {self other merged : Node} (keyed : other.Keyed) (kept : self.lostValues other = 0)
    (done : self.merge other = some merged) : other.Lands merged := by
  intro path node value walked kind
  rw [lost_values_eq, add_eq_zero, values_eq_zero_iff] at kept
  rw [merge_eq] at done
  cases path with
  | nil =>
      cases walked
      exact absurd kind (kept.1 value)
  | cons first rest =>
      rw [walk_cons] at walked
      obtain ⟨child, stored, walked⟩ := Option.bind_eq_some_iff.mp walked
      obtain ⟨place, found, named, here, same⟩ := merge_children_lands other.children self merged
        keyed.children kept.2 done (first, child) (OrderedMap.mem_of_lookup stored) rest node value walked kind
      rw [(keyed.of_get stored).1] at named
      exact ⟨place, found, named, here, same⟩

/-- A merge that comes to an end, keeps every node of the first tree and every
value of both, and has every field of the second tree in its place. -/
def LosesNothing (self other : Node) : Prop :=
  ∃ merged, self.merge other = some merged ∧ self.Extends merged ∧ other.Lands merged ∧
    merged.fieldValues = self.fieldValues + other.fieldValues

/-- A merge loses nothing exactly when no field of the second tree arrives at a
section or root of its name, and every search for a free name ends. A tree that
is built with `add` and `merge` is `Keyed`; a child that is renamed in place,
through `get_mut`, is not. -/
theorem merge_loses_nothing_iff (self other : Node) (selfOrdered : self.Ordered)
    (otherOrdered : other.Ordered) (otherKeyed : other.Keyed) :
    self.LosesNothing other ↔ self.MergesWhole other := by
  rw [merges_whole_iff self otherOrdered otherKeyed]
  constructor
  · rintro ⟨merged, done, _, _, values⟩
    refine ⟨by rw [done]; rfl, ?_⟩
    have balance := merge_values selfOrdered otherOrdered done
    rw [values] at balance
    simpa using balance
  · rintro ⟨ends, kept⟩
    obtain ⟨merged, done⟩ := Option.isSome_iff_exists.mp ends
    refine ⟨merged, done, merge_extends done, merge_lands otherKeyed kept done, ?_⟩
    have balance := merge_values selfOrdered otherOrdered done
    rwa [kept, add_zero] at balance

/-- A tree with one child. -/
def holding (child : Node) : Node := newRoot.add child

theorem holding_ordered {child : Node} (ordered : child.Ordered) : (holding child).Ordered :=
  (Ordered.childless rfl).add ordered

theorem holding_keyed {child : Node} (keyed : child.Keyed) : (holding child).Keyed :=
  (Keyed.childless rfl).add keyed

/-- A field arrives at a field of its name and is renamed. -/
theorem second_field_renamed :
    LosesNothing (holding { name := "foo", kind := .field 1 }) (holding { name := "foo", kind := .field 2 }) :=
  (merge_loses_nothing_iff (holding { name := "foo", kind := .field 1 })
    (holding { name := "foo", kind := .field 2 }) (holding_ordered (.childless rfl))
    (holding_ordered (.childless rfl)) (holding_keyed (.childless rfl))).mpr
    ((merges_whole_iff _ (holding_ordered (.childless rfl)) (holding_keyed (.childless rfl))).mpr
      ⟨by decide +kernel, by decide +kernel⟩)

/-- The same field arrives at a section of its name. -/
theorem field_merged_into_section_lost :
    ¬ ∀ self other : Node, self.Ordered → self.Keyed → other.Ordered → other.Keyed →
      self.LosesNothing other := by
  intro keeps
  obtain ⟨merged, done, _, _, values⟩ := keeps (holding { name := "foo", kind := .sect })
    (holding { name := "foo", kind := .field 2 }) (holding_ordered (.childless rfl))
    (holding_keyed (.childless rfl)) (holding_ordered (.childless rfl)) (holding_keyed (.childless rfl))
  have unchanged : (holding { name := "foo", kind := .sect }).merge (holding { name := "foo", kind := .field 2 }) =
      some (holding { name := "foo", kind := .sect }) := by rfl
  rw [unchanged] at done
  cases done
  revert values
  decide +kernel

end Node

end Crashlog
