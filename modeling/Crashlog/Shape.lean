import Crashlog.JsonExport
import Crashlog.Merge

/-!
# The shape of a tree

The children of every node are in order, under their own names, and below the
top there is no root. Merging trees and building hierarchies keeps this shape,
and the names stay within any set of names that has the names of the decoder
and is closed under numbering instances. Names other than the reserved name of
the JSON are such a set.
-/

namespace Crashlog

namespace Text

/-- An ASCII text that begins with a letter. -/
def PlainName (text : String) : Prop := AllChars (fun c => c.toNat < 128) text ∧ text.toList.head?.any Char.isAlpha

instance (text : String) : Decidable (PlainName text) := inferInstanceAs (Decidable (_ ∧ _))

theorem plain_name_append_number {text : String} (plain : PlainName text) (n : Nat) : PlainName (text ++ toString n) := by
  obtain ⟨ascii, letter⟩ := plain
  constructor
  · intro c member
    rw [String.toList_append, List.mem_append] at member
    rcases member with front | number
    · exact ascii c front
    · have digit := nat_digits number
      rw [Char.isDigit, Bool.and_eq_true, decide_eq_true_iff, decide_eq_true_iff] at digit
      have bound : c.toNat ≤ 57 := digit.2
      change c.toNat < 128
      omega
  · rw [String.toList_append]
    cases chars : text.toList with
    | nil =>
        rw [chars] at letter
        cases letter
    | cons c rest =>
        rw [chars] at letter
        exact letter

end Text

/-! ## Names -/

/-- The names that the decoder and a merge make are allowed. -/
structure Admits [UnicodeTables] (allowed : String → Prop) : Prop where
  instances : ∀ name tries, allowed name → allowed (Text.instanceName name tries)
  plain : ∀ text, Text.PlainName text → allowed (UnicodeTables.toLowercase text)

theorem admits_all [UnicodeTables] : Admits fun _ => True := ⟨fun _ _ _ => trivial, fun _ _ => trivial⟩

theorem lower_letter {c : Char} (ascii : c.toNat < 128) (letter : c.isAlpha) : c.toLower ≠ '_' := by
  have all : ∀ n < 128, (Char.ofNat n).isAlpha → (Char.ofNat n).toLower ≠ '_' := by decide
  have own := all c.toNat ascii
  rw [Char.ofNat_toNat] at own
  exact own letter

/-- Neither the decoder nor a merge makes the reserved name. -/
theorem admits_unreserved [UnicodeTables] : Admits fun name => name ≠ "_value" where
  instances name tries plain made := by
    rw [Text.instance_name_eq] at made
    have chars := congrArg String.toList made
    rw [String.toList_append] at chars
    rcases List.eq_nil_or_concat (Text.instanceNumber tries).toList with none | ⟨front, last, whole⟩
    · rw [none, List.append_nil] at chars
      exact plain (String.toList_injective chars)
    · have number := Text.instance_number_chars tries last (by simp [whole])
      rw [whole, List.concat_eq_append, ← List.append_assoc] at chars
      have same := congrArg List.getLast? chars
      rw [List.getLast?_append_cons, List.getLast?_singleton] at same
      have letter : last = 'e' := Option.some.inj same
      rw [letter] at number
      exact absurd number (by decide)
  plain text plain made := by
    rw [UnicodeTables.to_lowercase_ascii text plain.1] at made
    have chars := congrArg String.toList made
    rw [String.toList_ofList] at chars
    obtain ⟨ascii, letter⟩ := plain
    cases split : text.toList with
    | nil =>
        rw [split] at letter
        cases letter
    | cons c rest =>
        rw [split] at chars letter
        have first : c.toLower = '_' := (List.cons.inj chars).1
        exact lower_letter (ascii c (by rw [split]; exact List.mem_cons_self)) letter first

/-! ## Well-formed trees -/

namespace Node

/-- What a node is to its parent. -/
structure Fits (allowed : String → Prop) (key : String) (node : Node) : Prop where
  named : node.name = key
  allowed : allowed key
  notRoot : node.kind ≠ .root

/-- The children of every node are in order, under their names, which are
allowed, and no child is a root. -/
inductive Shaped (allowed : String → Prop) : Node → Prop
  | intro {node : Node} (sorted : OrderedMap.Sorted node.children)
      (fits : ∀ entry ∈ node.children, Fits allowed entry.1 entry.2)
      (below : ∀ entry ∈ node.children, Shaped allowed entry.2) : Shaped allowed node

/-- A change that keeps the place of a node. -/
structure Stays (before after : Node) : Prop where
  name : after.name = before.name
  notRoot : before.kind ≠ .root → after.kind ≠ .root

theorem Stays.refl (node : Node) : Stays node node := ⟨rfl, fun notRoot => notRoot⟩

theorem Stays.fits {allowed : String → Prop} {before after : Node} {key : String} (stays : Stays before after)
    (fits : Fits allowed key before) : Fits allowed key after :=
  ⟨stays.name.trans fits.named, fits.allowed, stays.notRoot fits.notRoot⟩

namespace Shaped

variable {allowed : String → Prop} {node child : Node} {name : String}

theorem sorted (shaped : node.Shaped allowed) : OrderedMap.Sorted node.children := by
  cases shaped with
  | intro sorted => exact sorted

theorem fits (shaped : node.Shaped allowed) : ∀ entry ∈ node.children, Fits allowed entry.1 entry.2 := by
  cases shaped with
  | intro _ fits => exact fits

theorem children (shaped : node.Shaped allowed) : ∀ entry ∈ node.children, entry.2.Shaped allowed := by
  cases shaped with
  | intro _ _ below => exact below

theorem of_get (shaped : node.Shaped allowed) (found : node.get name = some child) :
    Fits allowed name child ∧ child.Shaped allowed := by
  have member := OrderedMap.mem_of_lookup found
  exact ⟨shaped.fits _ member, shaped.children _ member⟩

/-- The shape is one of the children only. -/
theorem of_children (shaped : node.Shaped allowed) (same : child.children = node.children) : child.Shaped allowed :=
  .intro (same ▸ shaped.sorted) (same ▸ shaped.fits) (same ▸ shaped.children)

theorem childless (empty : node.children = []) : node.Shaped allowed :=
  .intro (by rw [empty]; exact OrderedMap.sorted_nil) (by simp [empty]) (by simp [empty])

theorem set_child (shaped : node.Shaped allowed) (fitting : Fits allowed name child)
    (childShaped : child.Shaped allowed) : (node.setChild name child).Shaped allowed := by
  refine .intro (OrderedMap.sorted_insert shaped.sorted name child) ?_ ?_
  · intro entry member
    rcases OrderedMap.mem_insert member with rfl | old
    · exact fitting
    · exact shaped.fits entry old
  · intro entry member
    rcases OrderedMap.mem_insert member with rfl | old
    · exact childShaped
    · exact shaped.children entry old

theorem add (shaped : node.Shaped allowed) (permitted : allowed child.name) (notRoot : child.kind ≠ .root)
    (childShaped : child.Shaped allowed) : (node.add child).Shaped allowed :=
  shaped.set_child ⟨rfl, permitted, notRoot⟩ childShaped

theorem ordered (shaped : node.Shaped allowed) : node.Ordered := by
  induction shaped with
  | intro sorted _ _ ih => exact .intro sorted ih

theorem keyed (shaped : node.Shaped allowed) : node.Keyed := by
  induction shaped with
  | intro _ fits _ ih => exact .intro (fun entry member => (fits entry member).named) ih

theorem unreserved (shaped : node.Shaped fun name => name ≠ "_value") : node.Unreserved := by
  induction shaped with
  | intro _ fits _ ih =>
      refine .of_children fun entry member => ?_
      exact ⟨(fits entry member).notRoot, (fits entry member).allowed, ih entry member⟩

/-- The registers of such a tree are read back from its JSON. -/
theorem json_registers (shaped : node.Shaped fun name => name ≠ "_value") (isRoot : node.kind = .root)
    (path : String) : node.serialize.getValueByPath path = node.getValueByPath path :=
  get_value_by_path_serialize shaped.ordered ⟨isRoot, shaped.unreserved⟩ path

end Shaped

/-! ## Merging and building -/

section Operations

variable [UnicodeTables] {allowed : String → Prop}

/-- A merge keeps the shape and changes nothing but the children. -/
theorem merge_children_shaped (admits : Admits allowed) (children : List (String × Node)) :
    ∀ self after : Node, self.Shaped allowed →
      (∀ entry ∈ children, Fits allowed entry.1 entry.2 ∧ entry.2.Shaped allowed) →
      self.mergeChildren children = some after →
      after.Shaped allowed ∧ after.name = self.name ∧ after.kind = self.kind := by
  induction children using forest_induction with
  | nil =>
      intro self after shaped _ merged
      rw [mergeChildren] at merged
      cases merged
      exact ⟨shaped, rfl, rfl⟩
  | cons key child rest below later =>
      intro self after shaped each merged
      rw [merge_children_step] at merged
      obtain ⟨between, step, others⟩ := Option.bind_eq_some_iff.mp merged
      obtain ⟨fitting, childShaped⟩ := each (key, child) List.mem_cons_self
      have own : Fits allowed child.name child := ⟨rfl, fitting.named ▸ fitting.allowed, fitting.notRoot⟩
      have stepped : between.Shaped allowed ∧ between.name = self.name ∧ between.kind = self.kind := by
        cases found : self.heldSection child.name with
        | none =>
            rw [merge_child_of_other found] at step
            obtain ⟨tries, _, rfl⟩ := merge_instance_eq_some_iff.mp step
            refine ⟨shaped.add ?_ own.notRoot (childShaped.of_children rfl), rfl, rfl⟩
            exact admits.instances child.name tries own.allowed
        | some held =>
            rw [merge_child_of_section found] at step
            obtain ⟨into, inner, rfl⟩ := Option.map_eq_some_iff.mp step
            rw [merge_eq] at inner
            obtain ⟨heldFits, heldShaped⟩ := shaped.of_get (held_section_eq_some_iff.mp found).1
            obtain ⟨intoShaped, name, kind⟩ := below held into heldShaped
              (fun entry member => ⟨childShaped.fits entry member, childShaped.children entry member⟩) inner
            refine ⟨shaped.set_child ⟨name.trans heldFits.named, heldFits.allowed, ?_⟩ intoShaped, rfl, rfl⟩
            rw [kind]
            exact heldFits.notRoot
      obtain ⟨afterShaped, name, kind⟩ := later between after stepped.1
        (fun entry member => each entry (List.mem_cons_of_mem _ member)) others
      exact ⟨afterShaped, name.trans stepped.2.1, kind.trans stepped.2.2⟩

theorem merge_shaped (admits : Admits allowed) {self other after : Node} (shaped : self.Shaped allowed)
    (otherShaped : other.Shaped allowed) (merged : self.merge other = some after) :
    after.Shaped allowed ∧ after.name = self.name ∧ after.kind = self.kind := by
  rw [merge_eq] at merged
  exact merge_children_shaped admits other.children self after shaped
    (fun entry member => ⟨otherShaped.fits entry member, otherShaped.children entry member⟩) merged

/-- What a change of one node must keep. -/
def Keeps (allowed : String → Prop) (update : Node → Option Node) : Prop :=
  ∀ node after, node.Shaped allowed → update node = some after → after.Shaped allowed ∧ Stays node after

theorem keeps_merge (admits : Admits allowed) {other : Node} (otherShaped : other.Shaped allowed) :
    Keeps allowed fun node => node.merge other := by
  intro node after shaped merged
  obtain ⟨afterShaped, name, kind⟩ := merge_shaped admits shaped otherShaped merged
  exact ⟨afterShaped, name, fun notRoot => kind ▸ notRoot⟩

/-- A hierarchy whose new sections have allowed names. -/
theorem create_hierarchy_shaped {self after : Node} {path : List String} {update : Node → Option Node}
    (shaped : self.Shaped allowed) (names : ∀ name ∈ path, allowed (UnicodeTables.toLowercase name))
    (keeps : Keeps allowed update) (created : self.createHierarchyFromIter path update = some after) :
    after.Shaped allowed ∧ Stays self after ∧ (path ≠ [] → after.kind = self.kind) := by
  induction path generalizing self after with
  | nil =>
      obtain ⟨afterShaped, stays⟩ := keeps self after shaped created
      exact ⟨afterShaped, stays, fun nonempty => absurd rfl nonempty⟩
  | cons name rest ih =>
      rw [List.forall_mem_cons] at names
      have extended : (if (self.get name).isNone then self.add (newSection name) else self).Shaped allowed := by
        split_ifs
        · exact shaped.add names.1 (by simp [newSection]) (.childless rfl)
        · exact shaped
      have label : (if (self.get name).isNone then self.add (newSection name) else self).label = self.label ∧
          (if (self.get name).isNone then self.add (newSection name) else self).name = self.name := by
        split_ifs
        · exact ⟨rfl, rfl⟩
        · exact ⟨rfl, rfl⟩
      rw [createHierarchyFromIter] at created
      generalize (if (self.get name).isNone then self.add (newSection name) else self) = ptr at *
      cases found : ptr.get name with
      | none =>
          rw [found] at created
          cases created
      | some child =>
          rw [found] at created
          obtain ⟨inner, below, rfl⟩ := Option.map_eq_some_iff.mp created
          obtain ⟨fitting, childShaped⟩ := extended.of_get found
          obtain ⟨innerShaped, stays, _⟩ := ih childShaped names.2 below
          have kind : ptr.kind = self.kind := congrArg Label.kind label.1
          refine ⟨extended.set_child (stays.fits fitting) innerShaped, ⟨label.2, ?_⟩, fun _ => kind⟩
          exact fun notRoot => kind ▸ notRoot

end Operations

end Node

end Crashlog
