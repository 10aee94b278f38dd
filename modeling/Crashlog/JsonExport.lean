import Crashlog.Digits
import Crashlog.Json
import Crashlog.Traversal

/-!
# The JSON of a register tree

A field is written as its value, or with its value under a reserved name when
it has children; other nodes are written as their children. The value of every
field is read back from the JSON of a tree along the path of the field.
-/

namespace Crashlog

namespace Node

/-- A value with all its hexadecimal digits, behind a prefix. -/
def showValue (value : UInt64) : String := "0x" ++ Text.hex 1 value.toNat

mutual

def serialize : Node → Json
  | ⟨_, _, kind, children⟩ =>
      match kind with
      | .field value =>
          if children.isEmpty then .string (showValue value)
          else Json.serializeMap (("_value", .string (showValue value)) :: serializeChildren children)
      | .root => Json.serializeMap [("crashlog_data", Json.serializeMap (serializeChildren children))]
      | .sect | .record => Json.serializeMap (serializeChildren children)

def serializeChildren : List (String × Node) → List (String × Json)
  | [] => []
  | (k, v) :: rest => (k, serialize v) :: serializeChildren rest

end

/-- Below the node there is no root, and nothing under the reserved name. -/
def Unreserved (node : Node) : Prop :=
  ∀ path name last, node.walk (path ++ [name]) = some last → last.kind ≠ .root ∧ name ≠ "_value"

structure Exportable (top : Node) : Prop where
  isRoot : top.kind = .root
  below : top.Unreserved

end Node

namespace Json

def parseValue (text : String) : Option UInt64 :=
  (Text.stripPrefix "0x" text).bind fun digits => (Text.fromStrRadix 16 (2 ^ 64) digits).map UInt64.ofNat

/-- The value of the field that was written. -/
def fieldValue : Json → Option UInt64
  | .string text => parseValue text
  | written => ((written.get "_value").bind asStr).bind parseValue

theorem field_value_map (entries : List (String × Json)) :
    (serializeMap entries).fieldValue = (((serializeMap entries).get "_value").bind asStr).bind parseValue := rfl

/-- The reserved name belongs to no node. -/
def getValueByPath (self : Json) (path : String) : Option UInt64 :=
  let names := Text.split '.' path
  if "_value" ∈ names then none
  else (self.walk ("crashlog_data" :: names)).bind fieldValue

end Json

namespace Node

/-! ## One node -/

theorem parse_show_value (value : UInt64) : Json.parseValue (showValue value) = some value := by
  have digits : Text.stripPrefix "0x" (showValue value) = some (Text.hex 1 value.toNat) := by
    simp [Text.stripPrefix, showValue]
  rw [Json.parseValue, digits, Option.bind_some, Text.from_str_radix_hex value.toNat_lt, Option.map_some,
    UInt64.ofNat_toNat]

theorem serialize_children_keys (children : List (String × Node)) :
    (serializeChildren children).map Prod.fst = children.map Prod.fst := by
  induction children with
  | nil => rfl
  | cons entry rest ih => rw [serializeChildren, List.map_cons, List.map_cons, ih]

theorem lookup_serialize_children (children : List (String × Node)) (name : String) :
    OrderedMap.lookup (serializeChildren children) name = (OrderedMap.lookup children name).map serialize := by
  induction children with
  | nil => rfl
  | cons entry rest ih =>
      rw [serializeChildren, OrderedMap.lookup, OrderedMap.lookup, ih]
      split_ifs <;> rfl

theorem serialize_children_distinct {children : List (String × Node)} (sorted : OrderedMap.Sorted children) :
    ((serializeChildren children).map Prod.fst).Nodup := by
  rw [serialize_children_keys]
  exact sorted.imp fun less => ne_of_lt less

namespace Unreserved

variable {node child : Node} {name : String}

theorem of_get (unreserved : node.Unreserved) (found : node.get name = some child) : child.Unreserved := by
  intro path last node walked
  refine unreserved (name :: path) last node ?_
  rw [List.cons_append, walk_child found, walked]

theorem get_spec (unreserved : node.Unreserved) (found : node.get name = some child) :
    child.kind ≠ .root ∧ name ≠ "_value" :=
  unreserved [] name child (by rw [List.nil_append, walk_single, found])

theorem of_children
    (below : ∀ entry ∈ node.children, entry.2.kind ≠ .root ∧ entry.1 ≠ "_value" ∧ entry.2.Unreserved) :
    node.Unreserved := by
  intro path name last walked
  cases path with
  | nil =>
      rw [List.nil_append, walk_single] at walked
      obtain ⟨notRoot, plain, _⟩ := below _ (OrderedMap.mem_of_lookup walked)
      exact ⟨notRoot, plain⟩
  | cons first rest =>
      rw [List.cons_append, walk_cons] at walked
      obtain ⟨child, found, deeper⟩ := Option.bind_eq_some_iff.mp walked
      exact (below _ (OrderedMap.mem_of_lookup found)).2.2 rest name last deeper

theorem absent (unreserved : node.Unreserved) : node.get "_value" = none := by
  cases found : node.get "_value" with
  | none => rfl
  | some child => exact absurd rfl (unreserved.get_spec found).2

theorem fresh (unreserved : node.Unreserved) : "_value" ∉ (serializeChildren node.children).map Prod.fst := by
  rw [serialize_children_keys, ← OrderedMap.lookup_isSome_iff]
  have absent : OrderedMap.lookup node.children "_value" = none := unreserved.absent
  rw [absent]
  simp

end Unreserved

section Written

variable {node : Node} (sorted : OrderedMap.Sorted node.children) (unreserved : node.Unreserved)
include sorted

theorem get_serialize_children (name : String) :
    (Json.serializeMap (serializeChildren node.children)).get name = (node.get name).map serialize := by
  rw [Json.get_serialize_map (serialize_children_distinct sorted), lookup_serialize_children]
  rfl

include unreserved

/-- The entry of the value stands before the children. -/
theorem get_serialize_field (value : UInt64) (name : String) :
    (Json.serializeMap (("_value", .string (showValue value)) :: serializeChildren node.children)).get name =
      if "_value" = name then some (.string (showValue value)) else (node.get name).map serialize := by
  have distinct := List.nodup_cons.mpr ⟨unreserved.fresh, serialize_children_distinct sorted⟩
  rw [Json.get_serialize_map (by simpa using distinct), OrderedMap.lookup, lookup_serialize_children]
  rfl

/-- The children of a node are found in what is written of it. -/
theorem get_serialize (notRoot : node.kind ≠ .root) {name : String} (plain : name ≠ "_value") :
    node.serialize.get name = (node.get name).map serialize := by
  obtain ⟨label, description, kind, children⟩ := node
  cases kind with
  | root => exact absurd rfl notRoot
  | sect =>
      rw [serialize]
      exact get_serialize_children sorted name
  | record =>
      rw [serialize]
      exact get_serialize_children sorted name
  | field value =>
      rw [serialize]
      split_ifs with childless
      · rw [get_childless (List.isEmpty_iff.mp childless)]
        rfl
      · exact (get_serialize_field sorted unreserved value name).trans (if_neg plain.symm)

theorem field_value_serialize (notRoot : node.kind ≠ .root) : node.serialize.fieldValue = node.value := by
  have missing := get_serialize_children sorted "_value"
  rw [unreserved.absent, Option.map_none] at missing
  obtain ⟨label, description, kind, children⟩ := node
  cases kind with
  | root => exact absurd rfl notRoot
  | sect =>
      rw [serialize, Json.field_value_map, missing]
      rfl
  | record =>
      rw [serialize, Json.field_value_map, missing]
      rfl
  | field value =>
      rw [serialize]
      split_ifs with childless
      · rw [Json.fieldValue, parse_show_value]
        rfl
      · have written := (get_serialize_field sorted unreserved value "_value").trans (if_pos rfl)
        rw [Json.field_value_map, written, Option.bind_some, Json.asStr, Option.bind_some, parse_show_value]
        rfl

end Written

/-! ## Paths -/

theorem walk_serialize {names : List String} {node : Node} (ordered : node.Ordered)
    (unreserved : node.Unreserved) (notRoot : node.kind ≠ .root) (plain : "_value" ∉ names) :
    (node.serialize.walk names).bind Json.fieldValue = (node.walk names).bind Node.value := by
  induction names generalizing node with
  | nil => exact field_value_serialize ordered.sorted unreserved notRoot
  | cons name rest ih =>
      rw [List.mem_cons, not_or] at plain
      obtain ⟨here, later⟩ := plain
      rw [Json.walk, walk_cons, get_serialize ordered.sorted unreserved notRoot (Ne.symm here)]
      cases found : node.get name with
      | none => rfl
      | some child =>
          rw [Option.map_some, Option.bind_some, Option.bind_some]
          exact ih (ordered.of_get found) (unreserved.of_get found) (unreserved.get_spec found).1 later

theorem walk_reserved {names : List String} {node : Node} (unreserved : node.Unreserved)
    (reserved : "_value" ∈ names) : node.walk names = none := by
  induction names generalizing node with
  | nil => exact absurd reserved List.not_mem_nil
  | cons name rest ih =>
      rw [walk_cons]
      cases found : node.get name with
      | none => rfl
      | some child =>
          rw [List.mem_cons, or_iff_right (unreserved.get_spec found).2.symm] at reserved
          exact ih (unreserved.of_get found) reserved

/-- The root writes its children as a section does, under a name of its own. -/
theorem get_serialize_root {top : Node} (isRoot : top.kind = .root) :
    top.serialize.get "crashlog_data" = some { top with kind := .sect }.serialize := by
  obtain ⟨name, description, kind, children⟩ := top
  subst isRoot
  rw [serialize, serialize]
  exact OrderedMap.lookup_insert_self [] _ _

/-- The value of a field is read back from the JSON. -/
theorem get_value_by_path_serialize {top : Node} (ordered : top.Ordered) (exportable : top.Exportable)
    (path : String) : top.serialize.getValueByPath path = top.getValueByPath path := by
  have nonempty : Text.split '.' path ≠ [] := Text.split_ne_nil _ _
  rw [Json.getValueByPath, getValueByPath, getByPath]
  split_ifs with reserved
  · rw [walk_reserved exportable.below reserved, Option.bind_none]
  · -- Below the top the root is a section like any other.
    have data : ({ top with kind := .sect } : Node).Ordered := ordered.of_children rfl
    have same (names : List String) (steps : names ≠ []) : ({ top with kind := .sect } : Node).walk names = top.walk names := by
      cases names with
      | nil => exact absurd rfl steps
      | cons name rest => rfl
    have unreserved : ({ top with kind := .sect } : Node).Unreserved := by
      intro front name last walked
      rw [same _ (by simp)] at walked
      exact exportable.below front name last walked
    rw [Json.walk, get_serialize_root exportable.isRoot, Option.bind_some,
      walk_serialize data unreserved (by simp) reserved, same _ nonempty]

/-- The JSON of a tree determines the registers in it. -/
theorem json_determines_registers (left right : Node) (leftOrdered : left.Ordered) (rightOrdered : right.Ordered)
    (leftExportable : left.Exportable) (rightExportable : right.Exportable) :
    (left.serialize = right.serialize → ∀ path, left.getValueByPath path = right.getValueByPath path) ∧
      ∀ path, left.serialize.getValueByPath path = left.getValueByPath path := by
  have read := get_value_by_path_serialize leftOrdered leftExportable
  refine ⟨?_, read⟩
  intro same path
  rw [← read path, same, get_value_by_path_serialize rightOrdered rightExportable]

/-- A field below a field, below a node of some kind. -/
def nestedFields (kind : NodeType) : Node :=
  let baz : Node := { name := "baz", kind := .field 1 }
  let bar : Node := { name := "bar", kind := .field 42, children := [("baz", baz)] }
  let foo : Node := { name := "foo", kind, children := [("bar", bar)] }
  { children := [("foo", foo)] }

theorem nested_fields_ordered (kind : NodeType) : (nestedFields kind).Ordered := by
  have single (key : String) (child top : Node) (only : top.children = [(key, child)]) (ordered : child.Ordered) :
      top.Ordered := by
    refine .intro ?_ ?_
    · rw [only]
      exact List.pairwise_singleton _ _
    · rw [only, List.forall_mem_singleton]
      exact ordered
  exact single _ _ _ rfl (single _ _ _ rfl (single _ _ _ rfl (.childless rfl)))

theorem nested_fields_exportable {kind : NodeType} (notRoot : kind ≠ .root) : (nestedFields kind).Exportable := by
  have plain : "foo" ≠ "_value" := by decide
  refine ⟨rfl, .of_children (List.forall_mem_singleton.mpr ⟨notRoot, plain, ?_⟩)⟩
  refine .of_children (List.forall_mem_singleton.mpr ⟨by decide, by decide, ?_⟩)
  refine .of_children (List.forall_mem_singleton.mpr ⟨by decide, by decide, ?_⟩)
  exact .of_children (List.forall_mem_nil _)

example : (nestedFields .sect).serialize = .object [("crashlog_data", .object [("foo", .object [("bar",
    .object [("_value", .string "0x2a"), ("baz", .string "0x1")])])])] := by rfl

/-- The kinds of nodes without a value are not written. -/
theorem nested_fields_registers :
    (∀ path, (nestedFields .sect).getValueByPath path = (nestedFields .record).getValueByPath path) ∧
      ∀ path, (nestedFields .sect).serialize.getValueByPath path = (nestedFields .sect).getValueByPath path :=
  have both := json_determines_registers (nestedFields .sect) (nestedFields .record) (nested_fields_ordered _)
    (nested_fields_ordered _) (nested_fields_exportable (by decide)) (nested_fields_exportable (by decide))
  ⟨both.1 rfl, both.2⟩

end Node

end Crashlog
