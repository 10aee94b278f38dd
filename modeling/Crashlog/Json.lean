import Crashlog.OrderedMap

/-!
# JSON values

Texts and objects, the values that are written here. The members of an object
stand in the order of their names: two values are equal when they are the same
JSON. A serializer hands over the entries of a map one after the other.
-/

namespace Crashlog

inductive Json where
  | string (text : String)
  | object (members : List (String × Json))
  deriving Repr

namespace Json

/-- The object of the entries; the last one under a name stays. -/
def serializeMap (entries : List (String × Json)) : Json :=
  .object (entries.foldl (fun members entry => OrderedMap.insert entry.1 entry.2 members) [])

def get : Json → String → Option Json
  | .string _, _ => none
  | .object members, name => OrderedMap.lookup members name

def asStr : Json → Option String
  | .string text => some text
  | .object _ => none

/-- The value at the end of a path of names. -/
def walk (self : Json) : List String → Option Json
  | [] => some self
  | name :: rest => (self.get name).bind fun child => child.walk rest

@[simp] theorem get_string (text name : String) : (string text).get name = none := rfl

theorem lookup_foldl_insert {entries : List (String × Json)} (distinct : (entries.map Prod.fst).Nodup)
    (members : List (String × Json)) (name : String) :
    OrderedMap.lookup (entries.foldl (fun members entry => OrderedMap.insert entry.1 entry.2 members) members) name =
      (OrderedMap.lookup entries name).or (OrderedMap.lookup members name) := by
  induction entries generalizing members with
  | nil => rfl
  | cons entry rest ih =>
      obtain ⟨stored, value⟩ := entry
      obtain ⟨fresh, others⟩ := List.nodup_cons.mp distinct
      rw [List.foldl_cons, ih others, OrderedMap.lookup_insert, OrderedMap.lookup]
      split_ifs with same
      · subst same
        have absent : OrderedMap.lookup rest stored = none := by
          rw [← Option.not_isSome_iff_eq_none, OrderedMap.lookup_isSome_iff]
          exact fresh
        rw [absent, Option.none_or, Option.some_or]
      · rfl

/-- Entries with distinct names are all found. -/
theorem get_serialize_map {entries : List (String × Json)} (distinct : (entries.map Prod.fst).Nodup)
    (name : String) : (serializeMap entries).get name = OrderedMap.lookup entries name := by
  rw [serializeMap, get, lookup_foldl_insert distinct, OrderedMap.lookup_nil, Option.or_none]

end Json

end Crashlog
