import Crashlog.HeaderTree
import Mathlib.Data.List.Induction

/-!
# Every record once

The tree of a whole Crash Log is the merge of the trees of its records.
Records with the same location and type name share a slot; the number of
earlier records in the slot decides the instance name. `Decoded` is the
invariant of the merge: every record is at its place, and every node is part
of a location or lies at or below such a place.
-/

namespace Crashlog

open Bytes

variable [UnicodeTables]

/-! ## Slots and places -/

namespace Record

def sameSlot (left right : Record) : Bool :=
  decide (left.location = right.location ∧ left.typeName = right.typeName)

/-- The number of earlier records in the slot of a record. -/
def earlier (before : List Record) (record : Record) : Nat := before.countP record.sameSlot

def place (before : List Record) (record : Record) : List String :=
  record.location ++ [Text.instanceName record.typeName (earlier before record)]

theorem same_slot_iff {left right : Record} :
    left.sameSlot right ↔ left.location = right.location ∧ left.typeName = right.typeName := by
  simp [sameSlot]

theorem same_slot_congr {left right : Record} (same : left.sameSlot right) :
    left.sameSlot = right.sameSlot := by
  obtain ⟨location, typeName⟩ := same_slot_iff.mp same
  funext other
  simp only [sameSlot, location, typeName]

theorem same_slot_self (record : Record) : record.sameSlot record := by
  simp [sameSlot]

omit [UnicodeTables] in
/-- The last name of a place is never on the way to a die, so a place does not
lead through a location and determines its own. -/
theorem place_not_prefix (record other : Record) {name : String} (apart : name ≠ "processors") :
    ¬ record.location ++ [name] <+: other.location := by
  intro inside
  rcases record.location_cases with root | ⟨_, _, die⟩
  · rcases other.location_cases with otherRoot | ⟨_, _, otherDie⟩
    · simp [root, otherRoot] at inside
    · rw [root, otherDie, List.nil_append, List.cons_prefix_cons] at inside
      exact apart inside.1
  · have short : other.location.length ≤ 3 := by
      rcases other.location_cases with otherRoot | ⟨_, _, otherDie⟩
      · simp [otherRoot]
      · simp [otherDie]
    have long := inside.length_le
    rw [List.length_append, die] at long
    simp only [List.length_cons, List.length_nil] at long
    omega

omit [UnicodeTables] in
theorem place_determines (record other : Record) {name otherName : String} {path : List String}
    (apart : name ≠ "processors") (otherApart : otherName ≠ "processors")
    (inside : record.location ++ [name] <+: path)
    (otherInside : other.location ++ [otherName] <+: path) :
    record.location = other.location ∧ name = otherName := by
  have sameLength : ∀ left right : Record, ∀ leftName rightName : String,
      left.location.length = right.location.length →
      left.location ++ [leftName] <+: path → right.location ++ [rightName] <+: path →
      left.location = right.location ∧ leftName = rightName := by
    intro left right leftName rightName lengths leftInside rightInside
    have equal : left.location ++ [leftName] = right.location ++ [rightName] :=
      List.IsPrefix.eq_of_length
        (List.prefix_of_prefix_length_le leftInside rightInside (by simp [lengths])) (by simp [lengths])
    have parts := List.append_inj equal lengths
    exact ⟨parts.1, by simpa using parts.2⟩
  have mixed : ∀ left right : Record, ∀ leftName rightName : String, leftName ≠ "processors" →
      left.location = [] → right.location.head? = some "processors" →
      left.location ++ [leftName] <+: path → right.location ++ [rightName] <+: path → False := by
    intro left right leftName rightName leftApart root die leftInside rightInside
    have leftHead : path.head? = some leftName := by
      obtain ⟨rest, rfl⟩ := leftInside
      simp [root]
    have rightHead : path.head? = some "processors" := by
      obtain ⟨rest, rfl⟩ := rightInside
      rw [List.append_assoc, List.head?_append, die]
      rfl
    rw [leftHead, Option.some.injEq] at rightHead
    exact leftApart rightHead
  rcases record.location_cases with root | ⟨_, _, die⟩
  · rcases other.location_cases with otherRoot | ⟨_, _, otherDie⟩
    · exact sameLength _ _ _ _ (by rw [root, otherRoot]) inside otherInside
    · exact (mixed record other _ _ apart root (by rw [otherDie]; rfl) inside otherInside).elim
  · rcases other.location_cases with otherRoot | ⟨_, _, otherDie⟩
    · exact (mixed other record _ _ otherApart otherRoot (by rw [die]; rfl) otherInside inside).elim
    · exact sameLength _ _ _ _ (by rw [die, otherDie]; rfl) inside otherInside

theorem places_determine {before otherBefore : List Record} {record other : Record}
    {path : List String} (round : earlier before record ≤ 2 ^ 32)
    (otherRound : earlier otherBefore other ≤ 2 ^ 32) (inside : place before record <+: path)
    (otherInside : place otherBefore other <+: path) :
    record.sameSlot other ∧ earlier before record = earlier otherBefore other := by
  obtain ⟨locations, names⟩ := place_determines record other
    (record.instance_ne_processors _ round) (other.instance_ne_processors _ otherRound)
    inside otherInside
  obtain ⟨types, counts⟩ := Text.instance_name_injective record.type_name_unnumbered
    other.type_name_unnumbered round otherRound names
  exact ⟨same_slot_iff.mpr ⟨locations, types⟩, counts⟩

omit [UnicodeTables] in
/-- Every smaller count belongs to an earlier element. -/
theorem exists_counted {α : Type} {holds : α → Bool} {items : List α} {i : Nat}
    (below : i < items.countP holds) :
    ∃ before item after, items = before ++ item :: after ∧ holds item ∧ before.countP holds = i := by
  induction items using List.reverseRecOn with
  | nil => simp at below
  | append_singleton items last ih =>
      rw [List.countP_append, List.countP_singleton] at below
      by_cases inside : i < items.countP holds
      · obtain ⟨before, item, after, rfl, found, count⟩ := ih inside
        exact ⟨before, item, after ++ [last], by simp, found, count⟩
      · split_ifs at below with here
        · exact ⟨items, last, [], by simp, here, by omega⟩
        · omega

theorem earlier_lt {records before after : List Record} {record other : Record}
    (split : records = before ++ record :: after) (same : other.sameSlot record) :
    earlier before record < records.countP other.sameSlot := by
  rw [split, List.countP_append, List.countP_cons_of_pos same, earlier, ← same_slot_congr same]
  omega

end Record

/-! ## The invariant of the merge -/

/-- The path is on the way to the location of a record. -/
def Trunk (records : List Record) (path : List String) : Prop :=
  path = [] ∨ ∃ record ∈ records, path <+: record.location

/-- No slot is used more often than the counter has values, and once. -/
def Countable (records : List Record) : Prop :=
  ∀ before record after, records = before ++ record :: after → record.earlier before ≤ 2 ^ 32

structure Decoded (records : List Record) (root : Node) : Prop where
  countable : Countable records
  present : ∀ before record after, records = before ++ record :: after →
    root.walk (record.place before) =
      some (record.node (Text.instanceName record.typeName (record.earlier before)))
  only : ∀ path node, root.walk path = some node →
    (Trunk records path ∧ node.kind = if path = [] then .root else .sect) ∨
      ∃ before record after, records = before ++ record :: after ∧ record.place before <+: path

namespace Decoded

variable {records : List Record} {root : Node} {record : Record}

theorem start : Decoded [] Node.newRoot where
  countable before record after split := by simp at split
  present before record after split := by simp at split
  only path node walked := by
    cases path with
    | nil =>
        cases walked
        exact .inl ⟨.inl rfl, rfl⟩
    | cons name rest =>
        rw [Node.walk_cons, Node.get_childless rfl, Option.bind_none] at walked
        cases walked

omit [UnicodeTables] in
theorem trunk_not_place {path : List String} {name : String} (apart : name ≠ "processors")
    (trunk : Trunk records path) : ¬ record.location ++ [name] <+: path := by
  intro inside
  rcases trunk with rfl | ⟨other, _, onWay⟩
  · simp at inside
  · exact Record.place_not_prefix record other apart (inside.trans onWay)

theorem sections (decoded : Decoded records root) (record : Record) : root.Open record.location := by
  intro front nonempty inside node walked
  rcases decoded.only front node walked with ⟨_, kind⟩ | ⟨before, other, after, split, placed⟩
  · rwa [if_neg nonempty] at kind
  · have apart := other.instance_ne_processors _ (decoded.countable _ _ _ split)
    exact absurd (placed.trans inside) (Record.place_not_prefix other record apart)

/-- The instances of a slot that are in the tree already. -/
theorem slot_present (decoded : Decoded records root) {i : Nat} (below : i < record.earlier records) :
    ∃ other : Record, root.walk (record.location ++ [Text.instanceName record.typeName i]) =
      some (other.node (Text.instanceName record.typeName i)) := by
  obtain ⟨before, other, after, split, same, count⟩ := Record.exists_counted below
  have found := decoded.present before other after split
  obtain ⟨locations, types⟩ := Record.same_slot_iff.mp same
  have index : other.earlier before = i := by
    rw [Record.earlier, ← Record.same_slot_congr same, count]
  rw [Record.place, index, ← locations, ← types] at found
  exact ⟨other, found⟩

theorem slot_free (decoded : Decoded records root) (round : record.earlier records ≤ 2 ^ 32) :
    root.walk (record.place records) = none := by
  cases walked : root.walk (record.place records) with
  | none => rfl
  | some node =>
      have apart := record.instance_ne_processors _ round
      rcases decoded.only _ node walked with ⟨trunk, _⟩ | ⟨before, other, after, split, placed⟩
      · exact absurd (List.prefix_refl _) (trunk_not_place apart trunk)
      · obtain ⟨same, counts⟩ := Record.places_determine round (decoded.countable _ _ _ split)
          (List.prefix_refl _) placed
        have later := Record.earlier_lt split same
        rw [← counts] at later
        exact absurd later (lt_irrefl _)

theorem instances (decoded : Decoded records root) (round : record.earlier records ≤ 2 ^ 32) :
    root.Instances record.location record.typeName (record.earlier records) where
  taken i below := by
    obtain ⟨other, found⟩ := decoded.slot_present below
    rw [found]
    rfl
  free := decoded.slot_free round
  record node walked := by
    by_cases first : record.earlier records = 0
    · have free := decoded.slot_free round
      rw [Record.place, first, Text.instanceName, walked] at free
      cases free
    · obtain ⟨other, found⟩ := decoded.slot_present (Nat.pos_of_ne_zero first)
      rw [Text.instanceName, walked] at found
      cases found
      rfl

omit [UnicodeTables] in
theorem split_snoc {records before after : List Record} {record last : Record}
    (split : records ++ [last] = before ++ record :: after) :
    (after = [] ∧ record = last ∧ before = records) ∨
      ∃ rest, after = rest ++ [last] ∧ records = before ++ record :: rest := by
  induction after using List.reverseRecOn with
  | nil =>
      have parts := List.append_inj' split rfl
      exact .inl ⟨rfl, by simpa using parts.2.symm, parts.1.symm⟩
  | append_singleton rest other =>
      have joined : before ++ record :: (rest ++ [other]) = (before ++ record :: rest) ++ [other] := by
        simp
      rw [joined] at split
      have parts := List.append_inj' split rfl
      refine .inr ⟨rest, ?_, parts.1⟩
      rw [List.singleton_inj.mp parts.2]

/-- The subtree grafted for one more record. -/
abbrev Addition (records : List Record) (record : Record) (root merged : Node) : Prop :=
  root.Grafted merged record.location (record.node (Text.instanceName record.typeName (record.earlier records)))

/-- Only the way to the new record and its own place can differ. -/
theorem present_snoc {merged : Node} (decoded : Decoded records root)
    (round : record.earlier records ≤ 2 ^ 32) (grafted : Addition records record root merged) :
    ∀ before other after, records ++ [record] = before ++ other :: after →
      merged.walk (other.place before) =
        some (other.node (Text.instanceName other.typeName (other.earlier before))) := by
  intro before other after split
  rcases split_snoc split with ⟨_, rfl, rfl⟩ | ⟨rest, _, old⟩
  · exact grafted.placed
  · have otherRound := decoded.countable _ _ _ old
    rw [← decoded.present _ _ _ old]
    apply grafted.others
    · exact Record.place_not_prefix other record (other.instance_ne_processors _ otherRound)
    · intro inside
      obtain ⟨same, counts⟩ := Record.places_determine round otherRound inside (List.prefix_refl _)
      have later := Record.earlier_lt old same
      rw [← counts] at later
      exact absurd later (lt_irrefl _)

/-- A section on the way to the new record is new, or was one before. -/
theorem trunk_kind {path : List String} (decoded : Decoded records root)
    (onWay : path <+: record.location) :
    ((root.walk path).map Node.kind).getD .sect = if path = [] then .root else .sect := by
  cases old : root.walk path with
  | none =>
      have nonempty : path ≠ [] := by
        rintro rfl
        cases old
      rw [if_neg nonempty]
      rfl
  | some oldNode =>
      rcases decoded.only path oldNode old with ⟨_, oldKind⟩ | ⟨before, other, after, split, placed⟩
      · exact oldKind
      · have apart := other.instance_ne_processors _ (decoded.countable _ _ _ split)
        exact absurd (placed.trans onWay) (Record.place_not_prefix other record apart)

theorem only_snoc {merged : Node} (decoded : Decoded records root)
    (grafted : Addition records record root merged) :
    ∀ path node, merged.walk path = some node →
      (Trunk (records ++ [record]) path ∧ node.kind = if path = [] then .root else .sect) ∨
        ∃ before other after, records ++ [record] = before ++ other :: after ∧
          other.place before <+: path := by
  intro path node walked
  by_cases onWay : path <+: record.location
  · obtain ⟨found, foundWalked, kind⟩ := grafted.sections path onWay
    rw [walked] at foundWalked
    cases foundWalked
    refine .inl ⟨.inr ⟨record, by simp, onWay⟩, ?_⟩
    rw [kind]
    exact decoded.trunk_kind onWay
  · by_cases inside : record.place records <+: path
    · exact .inr ⟨records, record, [], rfl, inside⟩
    · rw [grafted.others path onWay inside] at walked
      rcases decoded.only path node walked with ⟨trunk, kind⟩ | ⟨before, other, after, split, placed⟩
      · refine .inl ⟨?_, kind⟩
        rcases trunk with rfl | ⟨other, member, otherWay⟩
        · exact .inl rfl
        · exact .inr ⟨other, by simp [member], otherWay⟩
      · exact .inr ⟨before, other, after ++ [record], by simp [split], placed⟩

theorem countable_snoc :
    Countable (records ++ [record]) ↔ Countable records ∧ record.earlier records ≤ 2 ^ 32 := by
  constructor
  · intro countable
    refine ⟨?_, countable records record [] rfl⟩
    intro before other after split
    exact countable before other (after ++ [record]) (by simp [split])
  · rintro ⟨countable, round⟩ before other after split
    rcases split_snoc split with ⟨_, rfl, rfl⟩ | ⟨rest, _, old⟩
    · exact round
    · exact countable _ _ _ old

/-- Merging the tree of one more record. -/
theorem step (decoded : Decoded records root) (round : record.earlier records ≤ 2 ^ 32) :
    ∃ merged, CrashLog.mergeRecord root record = some merged ∧ Decoded (records ++ [record]) merged := by
  have instances : root.Instances record.location (record.node record.typeName).name
      (record.earlier records) := decoded.instances round
  obtain ⟨merged, result, grafted⟩ :=
    @Node.merge_hang _ _ Node.newRoot _ _ _ record.location_lowercase (decoded.sections record)
      instances round
  refine ⟨merged, ?_, countable_snoc.mpr ⟨decoded.countable, round⟩, decoded.present_snoc round grafted,
    decoded.only_snoc grafted⟩
  rw [CrashLog.mergeRecord, record.decode_without_cm_eq]
  exact result

/-- A slot that has used up its names keeps the merge from ending. -/
theorem endless (decoded : Decoded records root) (crowded : 2 ^ 32 < record.earlier records) :
    CrashLog.mergeRecord root record = none := by
  rw [CrashLog.mergeRecord, record.decode_without_cm_eq]
  apply Node.merge_hang_endless record.location_lowercase (decoded.sections record)
  · intro tries
    have inRound : ∀ i ≤ 2 ^ 32,
        (root.walk (record.location ++ [Text.instanceName record.typeName i])).isSome := by
      intro i within
      obtain ⟨other, found⟩ := decoded.slot_present (within.trans_lt crowded)
      rw [found]
      rfl
    cases tries with
    | zero => exact inRound 0 (by omega)
    | succ tries =>
        have name : (record.node record.typeName).name = record.typeName := rfl
        rw [name, ← Text.instance_name_round]
        exact inRound _ (by omega)
  · intro node walked
    obtain ⟨other, found⟩ := decoded.slot_present ((Nat.zero_le _).trans_lt crowded)
    have name : (record.node record.typeName).name = record.typeName := rfl
    rw [Text.instanceName, ← name, walked] at found
    cases found
    rfl

end Decoded

/-! ## All records -/

theorem merge_records (records : List Record) :
    (Countable records → ∃ root,
      records.foldlM CrashLog.mergeRecord Node.newRoot = some root ∧ Decoded records root) ∧
      (¬ Countable records → records.foldlM CrashLog.mergeRecord Node.newRoot = none) := by
  induction records using List.reverseRecOn with
  | nil =>
      refine ⟨fun _ => ⟨Node.newRoot, rfl, .start⟩, fun crowded => ?_⟩
      exact absurd Decoded.start.countable crowded
  | append_singleton records record ih =>
      have last : ∀ root : Node, [record].foldlM CrashLog.mergeRecord root =
          CrashLog.mergeRecord root record := by
        intro root
        simp
      rw [List.foldlM_append, Decoded.countable_snoc]
      by_cases countable : Countable records
      · obtain ⟨root, merged, decoded⟩ := ih.1 countable
        simp only [merged, Option.bind_eq_bind, Option.bind_some, last]
        constructor
        · rintro ⟨_, round⟩
          exact decoded.step round
        · intro crowded
          exact decoded.endless (by have := not_and.mp crowded countable; omega)
      · rw [ih.2 countable]
        exact ⟨fun both => absurd both.1 countable, fun _ => rfl⟩

namespace CrashLog

theorem decode_without_cm_eq (crashlog : CrashLog) :
    crashlog.decodeWithoutCm = crashlog.records.foldlM mergeRecord Node.newRoot :=
  foldlM_regions mergeRecord crashlog Node.newRoot

end CrashLog

/-- The names of the records of a slot: the plain name, then numbered ones. -/
def numberedName (name : String) : Nat → String
  | 0 => name
  | number + 1 => name ++ toString number

/-- The tree holds every record once, under its location and its number in its
slot, with its header as the only child, and no other record. -/
structure HeadersDecoded (records : List Record) (root : Node) : Prop where
  present : ∀ before record after, records = before ++ record :: after →
    root.walk (record.location ++ [numberedName record.typeName (record.earlier before)]) =
      some (record.node (numberedName record.typeName (record.earlier before)))
  only : ∀ path node, root.walk path = some node → node.kind = .record →
    ∃ before record after, records = before ++ record :: after ∧
      path = record.location ++ [numberedName record.typeName (record.earlier before)]
  once : ∀ before record after otherBefore other otherAfter,
    records = before ++ record :: after → records = otherBefore ++ other :: otherAfter →
      record.location ++ [numberedName record.typeName (record.earlier before)] =
        other.location ++ [numberedName other.typeName (other.earlier otherBefore)] →
      before = otherBefore

omit [UnicodeTables] in
theorem instance_name_numbered {name : String} {number : Nat} (small : number ≤ 2 ^ 31) :
    Text.instanceName name number = numberedName name number := by
  cases number with
  | zero => rfl
  | succ number => rw [Text.instanceName, numberedName, Text.display_nat (by omega)]

namespace Record

/-- Two records of a slot have different numbers of earlier ones. -/
theorem split_determined {records before after otherBefore otherAfter : List Record}
    {record other : Record} (split : records = before ++ record :: after)
    (otherSplit : records = otherBefore ++ other :: otherAfter) (same : record.sameSlot other)
    (counts : record.earlier before = other.earlier otherBefore) : before = otherBefore := by
  have reversed : other.sameSlot record := by
    rw [← same_slot_congr same]
    exact record.same_slot_self
  -- Of two different splits the shorter one is counted by the longer one.
  have ordered : ∀ (front back frontRest backRest : List Record) (first second : Record),
      records = front ++ first :: frontRest → records = back ++ second :: backRest →
      second.sameSlot first → front.length < back.length →
      first.earlier front < second.earlier back := by
    intro front back frontRest backRest first second frontSplit backSplit slot shorter
    have frontWhole : front ++ [first] <+: records := ⟨frontRest, by simp [frontSplit]⟩
    have backWhole : back <+: records := ⟨second :: backRest, backSplit.symm⟩
    obtain ⟨rest, joined⟩ : front ++ [first] <+: back := by
      apply List.prefix_of_prefix_length_le frontWhole backWhole
      rw [List.length_append, List.length_singleton]
      exact shorter
    exact earlier_lt (by rw [← joined, List.append_assoc, List.singleton_append]) slot
  rcases Nat.lt_trichotomy before.length otherBefore.length with shorter | equal | longer
  · have less := ordered _ _ _ _ _ _ split otherSplit reversed shorter
    omega
  · exact (List.append_inj (split.symm.trans otherSplit) equal).1
  · have less := ordered _ _ _ _ _ _ otherSplit split same longer
    omega

end Record

namespace CrashLog

/-- As long as no slot is used more than 2 ^ 31 + 1 times the counter has not
wrapped, and the instance names are the numbered ones. -/
theorem headers_decoded_of_counts {records : List Record} {root : Node} (decoded : Decoded records root)
    (counts : ∀ record ∈ records, records.countP record.sameSlot ≤ 2 ^ 31 + 1) :
    HeadersDecoded records root := by
  have small : ∀ before record after, records = before ++ record :: after →
      record.earlier before ≤ 2 ^ 31 := by
    intro before record after split
    have less := Record.earlier_lt split record.same_slot_self
    have bound := counts record (by simp [split])
    omega
  have place_eq : ∀ before record after, records = before ++ record :: after →
      record.place before =
        record.location ++ [numberedName record.typeName (record.earlier before)] := by
    intro before record after split
    rw [Record.place, instance_name_numbered (small _ _ _ split)]
  refine ⟨?_, ?_, ?_⟩
  · intro before record after split
    have found := decoded.present before record after split
    rwa [place_eq _ _ _ split, instance_name_numbered (small _ _ _ split)] at found
  · intro path node walked kind
    rcases decoded.only path node walked with ⟨_, trunk⟩ | ⟨before, record, after, split, inside⟩
    · rw [kind] at trunk
      split_ifs at trunk
    · obtain ⟨rest, rfl⟩ := inside
      rw [Node.walk_append, decoded.present _ _ _ split, Option.bind_some] at walked
      have here := record.node_below _ walked kind
      refine ⟨before, record, after, split, ?_⟩
      rw [here, List.append_nil, place_eq _ _ _ split]
  · intro before record after otherBefore other otherAfter split otherSplit same
    rw [← place_eq _ _ _ split, ← place_eq _ _ _ otherSplit] at same
    obtain ⟨slot, equal⟩ := Record.places_determine (decoded.countable _ _ _ split)
      (decoded.countable _ _ _ otherSplit) (List.prefix_refl _) (same ▸ List.prefix_refl _)
    exact Record.split_determined split otherSplit slot equal

/-- Once the counter has wrapped, a record is missing under its number. -/
theorem counts_of_headers_decoded {records : List Record} {root : Node} (decoded : Decoded records root)
    (headers : HeadersDecoded records root) :
    ∀ record ∈ records, records.countP record.sameSlot ≤ 2 ^ 31 + 1 := by
  intro record _
  by_contra crowded
  have wrapped : 2 ^ 31 + 1 < records.countP record.sameSlot := by omega
  obtain ⟨before, other, after, split, same, count⟩ := Record.exists_counted wrapped
  have index : other.earlier before = 2 ^ 31 + 1 := by
    rw [Record.earlier, ← Record.same_slot_congr same, count]
  have found := headers.present before other after split
  rw [index, numberedName] at found
  have noProcessors : other.typeName ++ toString (2 ^ 31) ≠ "processors" := by
    intro equal
    have plain : "processors" = "processors" ++ "" := by simp
    have parts := Text.split_at_number (equal.trans plain) other.type_name_unnumbered (by decide)
      (fun c member => by simp [Text.isNumberChar, Text.nat_digits member]) (by simp)
    exact absurd parts.2 (by rw [Nat.toString_eq_repr]; exact Nat.repr_ne_empty)
  rcases decoded.only _ _ found with ⟨_, trunk⟩ | ⟨otherBefore, third, otherAfter, thirdSplit, inside⟩
  · rw [if_neg (by simp)] at trunk
    cases trunk
  · have round := decoded.countable _ _ _ thirdSplit
    obtain ⟨_, names⟩ := Record.place_determines third other (third.instance_ne_processors _ round)
      noProcessors inside (List.prefix_refl _)
    rw [Text.instance_name_eq] at names
    have parts := Text.split_at_number names third.type_name_unnumbered other.type_name_unnumbered
      (Text.instance_number_chars _)
      (fun c member => by simp [Text.isNumberChar, Text.nat_digits member])
    have number := parts.2
    cases tries : third.earlier otherBefore with
    | zero =>
        rw [tries, Text.instanceNumber] at number
        exact absurd number.symm (by rw [Nat.toString_eq_repr]; exact Nat.repr_ne_empty)
    | succ tries' =>
        rw [tries, Text.instanceNumber] at number
        exact Text.display_ne_nat (le_refl _) _ number

/-- Header decoding of a Crash Log in which every record is found again. -/
def KeepsHeaders (crashlog : CrashLog) : Prop :=
  ∃ root, crashlog.decodeWithoutCm = some root ∧ HeadersDecoded crashlog.records root

theorem counts_of_keeps_headers {crashlog : CrashLog} (kept : crashlog.KeepsHeaders) :
    ∀ record ∈ crashlog.records, crashlog.records.countP record.sameSlot ≤ 2 ^ 31 + 1 := by
  obtain ⟨merge, endless⟩ := merge_records crashlog.records
  obtain ⟨root, merged, headers⟩ := kept
  rw [decode_without_cm_eq] at merged
  by_cases countable : Countable crashlog.records
  · obtain ⟨same, sameMerged, decoded⟩ := merge countable
    rw [merged] at sameMerged
    cases sameMerged
    exact counts_of_headers_decoded decoded headers
  · rw [endless countable] at merged
    cases merged

/-- Header decoding keeps every record exactly when no more than 2 ^ 31 + 1
records share a location and a type name: the instance counter is a signed
32-bit number. -/
theorem keeps_headers_iff (crashlog : CrashLog) :
    crashlog.KeepsHeaders ↔
      ∀ record ∈ crashlog.records, crashlog.records.countP record.sameSlot ≤ 2 ^ 31 + 1 := by
  refine ⟨counts_of_keeps_headers, fun counts => ?_⟩
  have countable : Countable crashlog.records := by
    intro before record after split
    have less := Record.earlier_lt split record.same_slot_self
    have bound := counts record (by simp [split])
    omega
  obtain ⟨root, merged, decoded⟩ := (merge_records crashlog.records).1 countable
  exact ⟨root, (decode_without_cm_eq crashlog).trans merged, headers_decoded_of_counts decoded counts⟩

/-! ## Too many records -/

/-- The bytes of a machine check record that is only a header. -/
def mcaBytes : List Byte := [0x08, 0xa1, 0x07, 0x3e, 2, 0, 0, 0]

def mcaRecord : Record := { header := mcaHeader 2, data := mcaBytes }

omit [UnicodeTables] in
theorem not_a_container (rest : List Byte) :
    Berr.fromBertFile (mcaBytes ++ rest) = none ∧ Cper.fromSlice (mcaBytes ++ rest) = none := by
  constructor
  · simp [Berr.fromBertFile, mcaBytes]
  · have noSignature : ∀ s, slice (mcaBytes ++ rest) 0 RECORD_HEADER_SIZE = some s →
        CperHeader.fromSlice s = none := by
      intro s cut
      obtain ⟨_, _, rfl⟩ := slice_eq_some_iff.mp cut
      have signature : ¬ CPER_SIGNATURE <+:
          ((mcaBytes ++ rest).drop 0).take (RECORD_HEADER_SIZE - 0) := by
        simp [CPER_SIGNATURE, mcaBytes, RECORD_HEADER_SIZE]
      rw [CperHeader.fromSlice]
      cases readU32 _ 6 with
      | none => rfl
      | some word => simp only [signature, not_false_eq_true, true_or, if_true]; rfl
    rw [Cper.fromSlice]
    cases cut : slice (mcaBytes ++ rest) 0 RECORD_HEADER_SIZE with
    | none => rfl
    | some s =>
        rw [Option.bind_some, noSignature s cut]
        rfl

omit [UnicodeTables] in
/-- Any number of such records makes up a region. -/
theorem mca_region (count : Nat) :
    Region.fromSlice (List.replicate (count + 1) mcaBytes).flatten =
      .ok { records := List.replicate (count + 1) mcaRecord } := by
  have walk := Region.records_of_blocks (List.replicate (count + 1) (mcaHeader 2, mcaBytes)) [] (by
    intro block member
    rw [List.eq_of_mem_replicate member]
    decide +kernel) stops_nil
  rw [List.map_replicate, List.map_replicate, List.append_nil] at walk
  exact Region.from_slice_eq_ok_iff.mpr ⟨walk, by simp⟩

omit [UnicodeTables] in
/-- Such a region holds no boxes. -/
theorem mca_alone (regions count : Nat) :
    boxExpansion.run (List.replicate regions { records := List.replicate count mcaRecord }) =
      List.replicate regions { records := List.replicate count mcaRecord } := by
  have childless : boxedRegion mcaRecord = none := by decide +kernel
  apply boxExpansion.run_eq_self
  intro item member
  rw [List.eq_of_mem_replicate member]
  simp [boxExpansion, boxedRegions, childless]

omit [UnicodeTables] in
/-- The region as a Crash Log. -/
theorem mca_crashlog (count : Nat) :
    fromSlice (List.replicate (count + 1) mcaBytes).flatten =
      .ok { regions := [{ records := List.replicate (count + 1) mcaRecord }] } := by
  obtain ⟨notBert, notCper⟩ := not_a_container (List.replicate count mcaBytes).flatten
  have split : (List.replicate (count + 1) mcaBytes).flatten =
      mcaBytes ++ (List.replicate count mcaBytes).flatten := by
    rw [List.replicate_succ, List.flatten_cons]
  have alone := mca_alone 1 (count + 1)
  rw [List.replicate_one] at alone
  rw [fromSlice, split, notBert, notCper, ← split, mca_region]
  simp only [Bind.bind, Except.bind, from_regions_eq, alone]
  rfl

omit [UnicodeTables] in
/-- With 2 ^ 31 + 2 machine check records the last one has a negative number. -/
theorem crowded_headers_not_kept :
    ¬ ∀ (_ : UnicodeTables) (s : List Byte) (crashlog : CrashLog),
      fromSlice s = .ok crashlog → crashlog.KeepsHeaders := by
  intro kept
  have keeps := kept .ascii _ _ (mca_crashlog (2 ^ 31 + 1))
  have counts := @counts_of_keeps_headers .ascii _ keeps mcaRecord
  have records : CrashLog.records
      { regions := [{ records := List.replicate (2 ^ 31 + 1 + 1) mcaRecord }] } =
        List.replicate (2 ^ 31 + 1 + 1) mcaRecord := by
    rw [CrashLog.records, List.map_singleton, List.flatten_singleton]
  rw [records, List.countP_replicate, if_pos (@Record.same_slot_self .ascii _)] at counts
  have bound := counts (List.mem_replicate.mpr ⟨Nat.succ_ne_zero _, rfl⟩)
  omega

end CrashLog

end Crashlog
