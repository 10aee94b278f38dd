import Crashlog.Decode
import Crashlog.Hierarchy
import Crashlog.Merge

/-!
# The die of a record

Decoding puts a record under a die. With and without collateral the die is
chosen in different orders: a name that only the box has wins over the number
of the record itself. A name that is not in lower case is no place at all, the
hierarchy that leads to it cannot be built.
-/

namespace Crashlog

open Bytes

/-! ## A node put under a location -/

namespace Node

/-- The children are in order and under their own names. -/
structure OwnNames (node : Node) : Prop where
  sorted : OrderedMap.Sorted node.children
  named : ∀ entry ∈ node.children, entry.2.name = entry.1

namespace OwnNames

variable {node child : Node}

theorem new : newRoot.OwnNames where
  sorted := OrderedMap.sorted_nil
  named := List.forall_mem_nil _

theorem set_child (own : node.OwnNames) {name : String} (named : child.name = name) :
    (node.setChild name child).OwnNames where
  sorted := OrderedMap.sorted_insert own.sorted name child
  named entry member := by
    rcases OrderedMap.mem_insert member with rfl | old
    · exact named
    · exact own.named entry old

theorem add (own : node.OwnNames) (child : Node) : (node.add child).OwnNames := own.set_child rfl

end OwnNames

theorem merge_children_name {children : List (String × Node)} {self after : Node}
    (merged : self.mergeChildren children = some after) : after.name = self.name := by
  induction children generalizing self with
  | nil =>
      rw [mergeChildren] at merged
      cases merged
      rfl
  | cons entry rest ih =>
      obtain ⟨key, child⟩ := entry
      rw [merge_children_step] at merged
      obtain ⟨between, step, others⟩ := Option.bind_eq_some_iff.mp merged
      refine (ih others).trans ?_
      rcases merge_child_cases step with ⟨name, _, _, rfl⟩ | ⟨held, into, _, _, rfl⟩ <;> rfl

/-- Whatever is merged, the children are added under their names. -/
theorem OwnNames.merge_children {children : List (String × Node)} {self after : Node} (own : self.OwnNames)
    (merged : self.mergeChildren children = some after) : after.OwnNames := by
  induction children generalizing self with
  | nil =>
      rw [mergeChildren] at merged
      cases merged
      exact own
  | cons entry rest ih =>
      obtain ⟨key, child⟩ := entry
      rw [merge_children_step] at merged
      obtain ⟨between, step, others⟩ := Option.bind_eq_some_iff.mp merged
      rcases merge_child_cases step with ⟨name, _, _, rfl⟩ | ⟨held, into, found, inner, rfl⟩
      · exact ih (own.add _) others
      · have stored := OrderedMap.mem_of_lookup (held_section_eq_some_iff.mp found).1
        rw [merge_eq] at inner
        exact ih (own.set_child ((merge_children_name inner).trans (own.named _ stored))) others

theorem OwnNames.merge {self other after : Node} (own : self.OwnNames) (merged : self.merge other = some after) :
    after.OwnNames := by
  rw [merge_eq] at merged
  exact own.merge_children merged

/-- Children whose names are all free are added as they are. -/
theorem merge_children_free {children : List (String × Node)} (sorted : OrderedMap.Sorted children)
    (named : ∀ entry ∈ children, entry.2.name = entry.1) {self : Node}
    (free : ∀ entry ∈ children, self.get entry.1 = none) :
    ∃ after, self.mergeChildren children = some after ∧
      ∀ name, after.get name = (OrderedMap.lookup children name).or (self.get name) := by
  induction children generalizing self with
  | nil => exact ⟨self, by rw [mergeChildren], fun name => rfl⟩
  | cons entry rest ih =>
      obtain ⟨key, child⟩ := entry
      obtain ⟨least, restSorted⟩ := List.pairwise_cons.mp sorted
      rw [List.forall_mem_cons] at named free
      have own : child.name = key := named.1
      have added : self.mergeChild child = some (self.setChild key child) := by
        rw [mergeChild, own, free.1, add, own]
      have apart : ∀ other ∈ rest, key ≠ other.1 := fun other member =>
        ne_of_lt (least other.1 (List.mem_map_of_mem member))
      have restFree : ∀ other ∈ rest, (self.setChild key child).get other.1 = none := by
        intro other member
        rw [get_set_child_ne _ _ (apart other member)]
        exact free.2 other member
      obtain ⟨after, merged, found⟩ := ih restSorted named.2 restFree
      refine ⟨after, by rw [merge_children_step, added, Option.bind_some, merged], fun name => ?_⟩
      rw [found, get_set_child, OrderedMap.lookup]
      split_ifs with same
      · have later : OrderedMap.lookup rest name = none := by
          cases held : OrderedMap.lookup rest name with
          | none => rfl
          | some value => exact absurd same (apart _ (OrderedMap.mem_of_lookup held))
        rw [later]
        rfl
      · rfl

/-- The new node is where the old one was. -/
theorem walk_replace_at {self ptr : Node} {path : List String} (found : self.walk path = some ptr) (new : Node) :
    (self.replaceAt path new).walk path = some new := by
  induction path generalizing self with
  | nil => rfl
  | cons name rest ih =>
      rw [walk_cons] at found
      obtain ⟨child, held, below⟩ := Option.bind_eq_some_iff.mp found
      rw [replace_at_cons held, walk_set_child_self]
      exact ih below

end Node

namespace Record

open Node

/-- The segments of a location. -/
def segments (customRoot : Option String) : List String := (customRoot.map (Text.split '.')).getD []

variable [UnicodeTables]

/-- The tree has the children of the node at the location. -/
structure PlacedAt (customRoot : Option String) (recordNode root : Node) : Prop where
  put : putUnder customRoot recordNode = some root
  found : ∃ ptr, root.walk (segments customRoot) = some ptr ∧ ∀ name, ptr.get name = recordNode.get name

/-- A new section of a new tree has no children. -/
theorem get_built {path : List String} {after ptr : Node} (built : Built newRoot path after ptr) (name : String) :
    ptr.get name = none := by
  cases held : ptr.get name with
  | none => rfl
  | some child =>
      have walked : after.walk (path ++ [name]) = some child := by
        rw [walk_append, built.found, Option.bind_some, walk_single, held]
      have absent : newRoot.walk (path ++ [name]) = none := walk_childless rfl (by simp)
      have longer := (built.added _ child absent walked).1.length_le
      simp at longer

theorem merge_at_built {path : List String} {after ptr recordNode : Node} (built : Built newRoot path after ptr)
    (own : recordNode.OwnNames) :
    ∃ root, newRoot.createHierarchyFromIter path (fun ptr => ptr.merge recordNode) = some root ∧
      ∃ ptr, root.walk path = some ptr ∧ ∀ name, ptr.get name = recordNode.get name := by
  have free : ∀ entry ∈ recordNode.children, ptr.get entry.1 = none := fun entry _ => get_built built entry.1
  obtain ⟨merged, ran, found⟩ := merge_children_free own.sorted own.named free
  have same (name : String) : merged.get name = recordNode.get name := by
    rw [found, get_built built, Option.or_none]
    rfl
  refine ⟨after.replaceAt path merged, ?_, merged, walk_replace_at built.found merged, same⟩
  rw [built.returned, merge_eq, ran, Option.map_some]

/-- A location is made exactly when its segments are in lower case. -/
theorem placed_at_iff {customRoot : Option String} {recordNode : Node} (own : recordNode.OwnNames) :
    (∃ root, PlacedAt customRoot recordNode root) ↔ ∀ segment ∈ segments customRoot, Lowercase segment := by
  cases customRoot with
  | none =>
      obtain ⟨root, merged, found⟩ := merge_at_built (.here newRoot) own
      exact iff_of_true ⟨root, merged, found⟩ (List.forall_mem_nil _)
  | some location =>
      constructor
      · rintro ⟨root, placed⟩ segment member
        obtain ⟨front, back, split⟩ := List.append_of_mem member
        exact lowercase_of_created placed.put front segment back split (walk_childless rfl (by simp))
      · intro lowercase
        have missing : LowercaseWhereMissing newRoot (Text.split '.' location) :=
          fun front segment back split _ => lowercase segment (by simp [segments, split])
        obtain ⟨after, ptr, built⟩ := built_of_lowercase missing
        obtain ⟨root, merged, found⟩ := merge_at_built built own
        exact ⟨root, merged, found⟩

/-! ## What is put there -/

/-- The node of the record, before it is put anywhere: that of its layouts, or
its header where they are missing or malformed. -/
def decodeContent (record : Record) (cm : CollateralManager) : Option (Node × CollateralManager) := do
  let (decoded, cm) ← (if record.isCore then record.decodeAsCoreRecord cm
    else record.decodeWithDecodeDef cm "layout.csv" 0)
  some (match decoded with
    | .ok node => node
    | .error _ => record.decodeHeader, cm)

variable {record : Record} {cm after : CollateralManager} {recordNode : Node}

theorem decode_content_target_info (decoded : record.decodeContent cm = some (recordNode, after)) :
    after.targetInfo = cm.targetInfo := by
  obtain ⟨⟨result, next⟩, inner, same⟩ := Option.bind_eq_some_iff.mp decoded
  cases same
  split_ifs at inner
  · exact decode_as_core_record_target_info inner
  · exact decode_with_decode_def_target_info inner

theorem decode_eq_some_iff {root : Node} :
    record.decode cm = some (root, after) ↔ ∃ recordNode, record.decodeContent cm = some (recordNode, after) ∧
      putUnder (record.getRootPathUsingCm cm) recordNode = some root := by
  constructor
  · intro decoded
    obtain ⟨⟨result, next⟩, inner, placed⟩ := Option.bind_eq_some_iff.mp decoded
    obtain ⟨placedRoot, put, same⟩ := Option.bind_eq_some_iff.mp placed
    cases same
    have content : record.decodeContent cm = some (_, after) := Option.bind_eq_some_iff.mpr ⟨_, inner, rfl⟩
    rw [get_root_path_using_cm_congr (decode_content_target_info content)] at put
    exact ⟨_, content, put⟩
  · rintro ⟨recordNode, content, put⟩
    have kept := decode_content_target_info content
    obtain ⟨⟨result, next⟩, inner, same⟩ := Option.bind_eq_some_iff.mp content
    cases same
    rw [← get_root_path_using_cm_congr kept] at put
    exact Option.bind_eq_some_iff.mpr ⟨_, inner, Option.bind_eq_some_iff.mpr ⟨root, put, rfl⟩⟩

theorem decode_header_own_names (record : Record) : record.decodeHeader.OwnNames := OwnNames.new.add _

theorem decode_with_paths_own_names {decodeDef : String} {offset : Nat} {paths : List ItemPath} {root : Node}
    (decoded : record.decodeWithPaths decodeDef offset cm paths = some (.ok root, after)) : root.OwnNames := by
  induction paths generalizing cm with
  | nil => cases decoded
  | cons path rest ih =>
      unfold decodeWithPaths at decoded
      split at decoded
      · exact ih decoded
      · split at decoded
        · cases decoded
        · cases decoded
        · obtain ⟨merged, into, same⟩ := Option.map_eq_some_iff.mp decoded
          cases same
          exact OwnNames.new.merge into

theorem decode_with_decode_def_own_names {decodeDef : String} {offset : Nat} {root : Node}
    (decoded : record.decodeWithDecodeDef cm decodeDef offset = some (.ok root, after)) : root.OwnNames := by
  unfold decodeWithDecodeDef at decoded
  split at decoded
  · cases decoded
  · exact decode_with_paths_own_names decoded

theorem decode_subsections_own_names {sect root : Node} {names : List String}
    (decoded : record.decodeSubsections sect cm names = some (.ok root, after)) : root.OwnNames := by
  induction names generalizing cm with
  | nil => cases decoded
  | cons subsectionName rest ih =>
      unfold decodeSubsections at decoded
      split at decoded
      · cases decoded
      · exact ih decoded
      · simp only at decoded
        split at decoded
        · cases decoded
        · split at decoded
          · exact ih decoded
          · obtain ⟨_, _, same⟩ := Option.map_eq_some_iff.mp decoded
            cases same
            exact OwnNames.new.add _

theorem decode_content_own_names (decoded : record.decodeContent cm = some (recordNode, after)) :
    recordNode.OwnNames := by
  obtain ⟨⟨result, next⟩, inner, same⟩ := Option.bind_eq_some_iff.mp decoded
  cases same
  cases result with
  | error error => exact decode_header_own_names record
  | ok node =>
      split_ifs at inner
      · unfold decodeAsCoreRecord at inner
        split at inner
        · cases inner
        · exact decode_subsections_own_names inner
      · exact decode_with_decode_def_own_names inner

end Record

/-! ## The same die, by name or by number -/

/-- The ways to spell the location of a header that carries a die. -/
inductive Header.Locates (header : Header) (cm : CollateralManager) : String → Prop where
  | numbered {dieId : UInt8} (carried : header.dieId = some dieId) : header.Locates cm
      ("processors.cpu" ++ toString header.socketId.toNat ++ ".die" ++ toString dieId.toNat)
  | named {die : String} (known : header.die cm = some die) : header.Locates cm
      ("processors.cpu" ++ toString header.socketId.toNat ++ "." ++ die)

namespace Header

variable {header : Header} {cm : CollateralManager}

theorem Locates.number_of_unnamed {location : String} (locates : header.Locates cm location)
    (unnamed : header.die cm = none) :
    ∃ dieId, header.dieId = some dieId ∧ location =
      "processors.cpu" ++ toString header.socketId.toNat ++ ".die" ++ toString dieId.toNat := by
  cases locates with
  | numbered carried => exact ⟨_, carried, rfl⟩
  | named known =>
      rw [unnamed] at known
      cases known

theorem die_id_of_die {die : String} (known : header.die cm = some die) :
    ∃ dieId, header.dieId = some dieId := by
  obtain ⟨dieId, carried, _⟩ := Option.bind_eq_some_iff.mp known
  exact ⟨dieId, carried⟩

end Header

namespace Record

open Node

/-- The header that decoding without collateral takes the location from. -/
def locationHeader (record : Record) : Option Header :=
  if record.header.dieId.isSome then some record.header
  else record.context.parentHeader.filter fun parentHeader => parentHeader.dieId.isSome

/-- Both locations spell the die of one header, or neither of them is a die. -/
structure LocatedAlike (record : Record) (cm : CollateralManager) : Prop where
  nowhere : record.locationHeader = none →
    record.getRootPath = none ∧ record.getRootPathUsingCm cm = none
  located : ∀ header, record.locationHeader = some header →
    (∃ dieId, header.dieId = some dieId ∧ record.getRootPath =
      some ("processors.cpu" ++ toString header.socketId.toNat ++ ".die" ++ toString dieId.toNat)) ∧
    ∃ location, record.getRootPathUsingCm cm = some location ∧ header.Locates cm location

/-- Both ways of decoding come back, with the record under a spelling of the die
of one header, or both with the record at the top. -/
structure AttributedAlike [UnicodeTables] (record : Record) (cm : CollateralManager) : Prop
    extends LocatedAlike record cm where
  withoutCm : ∃ root, record.decodeWithoutCm = some root ∧
    PlacedAt record.getRootPath record.decodeHeader root
  usingCm : ∃ recordNode root after, record.decodeContent cm = some (recordNode, after) ∧
    record.decode cm = some (root, after) ∧ PlacedAt (record.getRootPathUsingCm cm) recordNode root

/-- The die name of a box that says what the number of the record's own die says. -/
def SameDie (own parent : Header) (die : String) : Prop :=
  parent.socketId = own.socketId ∧ ∃ dieId, own.dieId = some dieId ∧ die = "die" ++ toString dieId.toNat

/-- The die name that the location with collateral is spelled with. -/
def dieName (record : Record) (cm : CollateralManager) : Option String :=
  (record.header.die cm).or (record.context.parentHeader.bind fun parent => parent.die cm)

variable {record : Record} {cm : CollateralManager}

/-- What stands before the first delimiter and behind it is determined. -/
theorem first_delimiter_determined {delimiter : Char} {before otherBefore after otherAfter : List Char}
    (plain : delimiter ∉ before) (otherPlain : delimiter ∉ otherBefore)
    (same : before ++ delimiter :: after = otherBefore ++ delimiter :: otherAfter) :
    before = otherBefore ∧ after = otherAfter := by
  induction before generalizing otherBefore with
  | nil =>
      cases otherBefore with
      | nil => exact ⟨rfl, (List.cons.inj same).2⟩
      | cons c rest => exact absurd (by simp [(List.cons.inj same).1]) otherPlain
  | cons c rest ih =>
      cases otherBefore with
      | nil => exact absurd (by simp [(List.cons.inj same).1]) plain
      | cons d otherRest =>
          obtain ⟨rfl, tails⟩ := List.cons.inj same
          rw [List.mem_cons, not_or] at plain otherPlain
          obtain ⟨rfl, afters⟩ := ih plain.2 otherPlain.2 tails
          exact ⟨rfl, afters⟩

/-- The number of a socket ends at the first dot. -/
theorem location_injective {socketId otherSocketId : UInt8} {name otherName : String}
    (same : "processors.cpu" ++ toString socketId.toNat ++ "." ++ name =
      "processors.cpu" ++ toString otherSocketId.toNat ++ "." ++ otherName) :
    socketId = otherSocketId ∧ name = otherName := by
  have undotted (n : Nat) : '.' ∉ (toString n).toList := fun inside =>
    absurd (Text.nat_digits inside) (by decide)
  have chars := congrArg String.toList same
  simp only [String.toList_append, List.append_assoc, List.append_cancel_left_eq] at chars
  obtain ⟨numbers, names⟩ := first_delimiter_determined (undotted _) (undotted _) chars
  have printed : toString socketId.toNat = toString otherSocketId.toNat :=
    String.toList_injective numbers
  rw [Nat.toString_eq_repr, Nat.toString_eq_repr] at printed
  exact ⟨UInt8.toNat_inj.mp (Text.nat_repr_injective printed), String.toList_injective names⟩

/-- Where the location with collateral comes from. -/
theorem root_path_using_cm_eq (record : Record) (cm : CollateralManager) :
    record.getRootPathUsingCm cm = (record.header.getRootPathUsingCm cm).or
      ((record.context.parentHeader.bind fun parent => parent.getRootPathUsingCm cm).or
        record.getRootPath) := by
  unfold getRootPathUsingCm
  cases record.header.getRootPathUsingCm cm with
  | some path => rfl
  | none =>
      cases record.context.parentHeader.bind fun parent => parent.getRootPathUsingCm cm <;> rfl

theorem unnamed_without_die (own : record.header.dieId = none) : record.header.die cm = none := by
  rw [Header.die, own]
  rfl

/-- The location of a header is spelled in one of its ways. -/
theorem locates_of_parent {parent : Header} {dieId : UInt8} (carried : parent.dieId = some dieId) :
    ∃ location, (parent.getRootPathUsingCm cm).or parent.getRootPath = some location ∧
      parent.Locates cm location := by
  rw [parent.root_path_using_cm_eq, parent.root_path_eq, carried]
  cases known : parent.die cm with
  | some die => exact ⟨_, rfl, .named known⟩
  | none => exact ⟨_, rfl, .numbered carried⟩

theorem own_location {dieId : UInt8} (own : record.header.dieId = some dieId) :
    record.locationHeader = some record.header ∧ record.getRootPath =
      some ("processors.cpu" ++ toString record.header.socketId.toNat ++ ".die" ++ toString dieId.toNat) := by
  rw [locationHeader, getRootPath, record.header.root_path_eq, own]
  exact ⟨rfl, rfl⟩

theorem located_without_die (own : record.header.dieId = none) : LocatedAlike record cm := by
  have ownPath : record.header.getRootPath = none := by
    rw [record.header.root_path_eq, own]
    rfl
  have ownNamed : record.header.getRootPathUsingCm cm = none := by
    rw [record.header.root_path_using_cm_eq, unnamed_without_die own]
    rfl
  have plain : record.getRootPath = record.context.parentHeader.bind Header.getRootPath := by
    rw [getRootPath, ownPath]
    cases record.context.parentHeader <;> rfl
  have named : record.getRootPathUsingCm cm = record.context.parentHeader.bind fun parent =>
      (parent.getRootPathUsingCm cm).or parent.getRootPath := by
    rw [root_path_using_cm_eq, ownNamed, Option.none_or, plain]
    cases record.context.parentHeader <;> rfl
  have source : record.locationHeader =
      record.context.parentHeader.filter fun parentHeader => parentHeader.dieId.isSome := by
    rw [locationHeader, own]
    rfl
  refine ⟨?_, ?_⟩
  · intro nowhere
    rw [source] at nowhere
    rw [plain, named]
    cases box : record.context.parentHeader with
    | none => exact ⟨rfl, rfl⟩
    | some parent =>
        have silent : parent.dieId = none := by simpa [box, Option.filter] using nowhere
        have unnamed : parent.die cm = none := by rw [Header.die, silent]; rfl
        simp [parent.root_path_eq, parent.root_path_using_cm_eq, silent, unnamed]
  · intro header located
    rw [source] at located
    obtain ⟨box, carries⟩ := Option.filter_eq_some_iff.mp located
    obtain ⟨dieId, carried⟩ := Option.isSome_iff_exists.mp carries
    rw [plain, named, box, Option.bind_some, Option.bind_some]
    refine ⟨⟨dieId, carried, ?_⟩, locates_of_parent carried⟩
    rw [header.root_path_eq, carried]
    rfl

theorem located_with_name (known : (record.header.die cm).isSome) : LocatedAlike record cm := by
  obtain ⟨die, known⟩ := Option.isSome_iff_exists.mp known
  obtain ⟨dieId, own⟩ := Header.die_id_of_die known
  obtain ⟨source, plain⟩ := own_location own
  refine ⟨?_, ?_⟩
  · intro nowhere
    rw [source] at nowhere
    cases nowhere
  · intro header located
    rw [source] at located
    cases located
    refine ⟨⟨dieId, own, plain⟩, _, ?_, .named known⟩
    rw [root_path_using_cm_eq, record.header.root_path_using_cm_eq, known]
    rfl

/-- A die that only the header numbers: the name of the box comes first. -/
theorem located_without_name_iff {dieId : UInt8} (own : record.header.dieId = some dieId)
    (unnamed : record.header.die cm = none) :
    LocatedAlike record cm ↔
      ∀ parent die, record.context.parentHeader = some parent → parent.die cm = some die →
        SameDie record.header parent die := by
  obtain ⟨source, plain⟩ := own_location own
  have named : record.getRootPathUsingCm cm =
      (record.context.parentHeader.bind fun parent => parent.getRootPathUsingCm cm).or
        record.getRootPath := by
    rw [root_path_using_cm_eq, record.header.root_path_using_cm_eq, unnamed]
    rfl
  constructor
  · intro alike parent die box known
    obtain ⟨_, location, found, locates⟩ := alike.located _ source
    rw [named, box, Option.bind_some, parent.root_path_using_cm_eq, known] at found
    obtain ⟨ownId, carried, numbered⟩ := locates.number_of_unnamed unnamed
    rw [← Option.some.inj found, Header.spell_number] at numbered
    obtain ⟨sockets, names⟩ := location_injective numbered
    exact ⟨sockets, ownId, carried, names⟩
  · intro same
    refine ⟨?_, ?_⟩
    · intro nowhere
      rw [source] at nowhere
      cases nowhere
    · intro header located
      rw [source] at located
      cases located
      refine ⟨⟨dieId, own, plain⟩, _, ?_, .numbered own⟩
      rw [named, plain]
      cases found : record.context.parentHeader.bind fun parent => parent.getRootPathUsingCm cm with
      | none => rfl
      | some path =>
          obtain ⟨parent, box, spelled⟩ := Option.bind_eq_some_iff.mp found
          rw [parent.root_path_using_cm_eq] at spelled
          obtain ⟨die, known, rfl⟩ := Option.map_eq_some_iff.mp spelled
          obtain ⟨sockets, id, carried, rfl⟩ := same parent die box known
          rw [own] at carried
          cases carried
          rw [Option.some_or, sockets, Header.spell_number]

/-- The two locations spell the die of one header exactly when the own header
has no die, or the collateral names that die, or it names no die of the box, or
names it by the number of the record's own. -/
theorem located_alike_iff (record : Record) (cm : CollateralManager) :
    LocatedAlike record cm ↔
      record.header.dieId = none ∨ (record.header.die cm).isSome ∨
        ∀ parent die, record.context.parentHeader = some parent → parent.die cm = some die →
          SameDie record.header parent die := by
  cases own : record.header.dieId with
  | none => exact iff_of_true (located_without_die own) (.inl rfl)
  | some dieId =>
      cases known : record.header.die cm with
      | some die => exact iff_of_true (located_with_name (by simp [known])) (.inr (.inl rfl))
      | none => simp only [located_without_name_iff own known, reduceCtorEq, Option.isSome_none,
          Bool.false_eq_true, false_or]

/-! ## Both ways come back -/

variable [UnicodeTables]

theorem root_path_lowercase (record : Record) : ∀ segment ∈ segments record.getRootPath, Lowercase segment := by
  rw [segments, ← root_path_location]
  exact record.location_lowercase

/-- A numbered die is in lower case, so only a name can keep a location from being made. -/
theorem using_cm_lowercase_iff (record : Record) (cm : CollateralManager) :
    (∀ segment ∈ segments (record.getRootPathUsingCm cm), Lowercase segment) ↔
      ∀ die, record.dieName cm = some die → ∀ segment ∈ Text.split '.' die, Lowercase segment := by
  have named (header : Header) (die : String) :
      (∀ segment ∈ Text.split '.' ("processors.cpu" ++ toString header.socketId.toNat ++ "." ++ die),
        Lowercase segment) ↔ ∀ segment ∈ Text.split '.' die, Lowercase segment := by
    rw [Header.split_location, List.forall_mem_cons, List.forall_mem_cons]
    have first : Lowercase "processors" := lowercase_plain (by decide)
    have second : Lowercase ("cpu" ++ toString header.socketId.toNat) := lowercase_numbered (by decide) _
    exact ⟨fun all => all.2.2, fun names => ⟨first, second, names⟩⟩
  rw [root_path_using_cm_eq, dieName, record.header.root_path_using_cm_eq]
  cases record.header.die cm with
  | some die => simpa [segments] using named record.header die
  | none =>
      cases box : record.context.parentHeader with
      | none => simpa using record.root_path_lowercase
      | some parent =>
          simp only [Option.map_none, Option.none_or, Option.bind_some, parent.root_path_using_cm_eq]
          cases parent.die cm with
          | some die => simpa [segments] using named parent die
          | none => simpa using record.root_path_lowercase

theorem without_cm_placed (record : Record) :
    ∃ root, record.decodeWithoutCm = some root ∧ PlacedAt record.getRootPath record.decodeHeader root := by
  obtain ⟨root, placed⟩ := (placed_at_iff record.decode_header_own_names).mpr record.root_path_lowercase
  exact ⟨root, by rw [decode_without_cm_put, placed.put], placed⟩

/-- Decoding with and without collateral attribute a record to the same die
exactly when its layouts are decoded, the die name of its location is in lower
case, and that name is its own or says what its own number says. -/
theorem attributed_alike_iff (record : Record) (cm : CollateralManager) :
    AttributedAlike record cm ↔
      (record.decodeContent cm).isSome ∧
      (∀ die, record.dieName cm = some die → ∀ segment ∈ Text.split '.' die, Lowercase segment) ∧
      (record.header.dieId = none ∨ (record.header.die cm).isSome ∨
        ∀ parent die, record.context.parentHeader = some parent → parent.die cm = some die →
          SameDie record.header parent die) := by
  rw [← located_alike_iff, ← using_cm_lowercase_iff]
  constructor
  · intro alike
    obtain ⟨recordNode, root, after, content, _, placed⟩ := alike.usingCm
    refine ⟨by simp [content], ?_, alike.toLocatedAlike⟩
    exact (placed_at_iff (decode_content_own_names content)).mp ⟨root, placed⟩
  · rintro ⟨returns, lowercase, alike⟩
    obtain ⟨⟨recordNode, after⟩, content⟩ := Option.isSome_iff_exists.mp returns
    obtain ⟨root, placed⟩ := (placed_at_iff (decode_content_own_names content)).mpr lowercase
    exact ⟨alike, record.without_cm_placed,
      recordNode, root, after, content, decode_eq_some_iff.mpr ⟨recordNode, content, placed.put⟩, placed⟩

/-- A type 6 header of a product. -/
def typeSixHeader (productId : UInt32) (socketId dieId : UInt8) : Header where
  version := { headerType := 6, productId, recordType := RecordTypes.MCA }
  headerType := .type6 0 0 0 dieId socketId 0 [] false

omit [UnicodeTables] in
/-- A record of die 1 on socket 0 without a name, in a box of a named die on socket 1. -/
theorem named_box_attracts_record :
    ¬ ∀ (_ : UnicodeTables) (record : Record) (cm : CollateralManager), AttributedAlike record cm := by
  intro alike
  let record : Record := {
    header := typeSixHeader 0x7a 0 1
    context := { parentHeader := some (typeSixHeader 0x7b 1 0) } }
  let cm : CollateralManager := {
    tree := { get := fun _ _ => .error .internalError }
    items := fun _ => none
    targetInfo := fun productId =>
      if productId = 0x7b then
        some { product := "XYZ", productId := "0x7b", variant := "all", dieId := fun _ => some "compute0" }
      else none }
  have own : record.header.dieId = some 1 := rfl
  have unnamed : record.header.die cm = none := rfl
  have same := (located_without_name_iff own unnamed).mp (@AttributedAlike.toLocatedAlike .ascii _ _ (alike .ascii record cm))
    (typeSixHeader 0x7b 1 0) "compute0" rfl rfl
  exact absurd same.1 (by decide)

end Record

end Crashlog
