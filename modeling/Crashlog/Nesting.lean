import Crashlog.DecodeHeaders
import Crashlog.Export

/-!
# Records in boxes in boxes

A record keeps the header of the box it was taken from, and no other. The
expansion with the chain of all enclosing headers shows what is lost: a record
below two boxes does not know the die of the outer one.
-/

namespace Crashlog

open Bytes

/-! ## The chain of enclosing headers -/

/-- A region with the headers of the boxes around it, the nearest first. -/
structure EnclosedRegion where
  region : Region
  headers : List Header
  deriving DecidableEq, Repr

namespace EnclosedRegion

def boxes (enclosed : EnclosedRegion) : List EnclosedRegion :=
  enclosed.region.records.filterMap fun record =>
    (boxedRegion record).map fun child => ⟨child, record.header :: enclosed.headers⟩

theorem boxes_regions (enclosed : EnclosedRegion) :
    enclosed.boxes.map region = boxedRegions enclosed.region := by
  rw [boxes, List.map_filterMap, boxedRegions]
  congr 1
  funext record
  cases boxedRegion record <;> rfl

end EnclosedRegion

/-- `boxExpansion` with the chain of headers carried along. -/
def nestedExpansion : Expansion EnclosedRegion where
  children enclosed := enclosed.boxes.reverse
  weight enclosed := boxExpansion.weight enclosed.region
  lighter enclosed := by
    have lighter := boxExpansion.lighter enclosed.region
    have same : (enclosed.boxes.reverse.map fun child => boxExpansion.weight child.region) =
        (boxExpansion.children enclosed.region).map boxExpansion.weight := by
      change _ = (boxedRegions enclosed.region).reverse.map _
      rw [← enclosed.boxes_regions, ← List.map_reverse, List.map_map]
      rfl
    rwa [same]

/-- The regions of the input with the boxes around them, in the order of the Crash Log. -/
def enclosedRegions (s : List Byte) : List EnclosedRegion :=
  nestedExpansion.run ((storedRegions s).map fun region => ⟨region, []⟩)

/-- The records of the input with the headers of the boxes around them. -/
def enclosedRecords (s : List Byte) : List (Record × List Header) :=
  (enclosedRegions s).flatMap fun enclosed => enclosed.region.records.map fun record =>
    (record, enclosed.headers)

theorem enclosed_regions_eq (s : List Byte) :
    (enclosedRegions s).map EnclosedRegion.region = boxExpansion.run (storedRegions s) := by
  have commutes : ∀ enclosed : EnclosedRegion, boxExpansion.children enclosed.region =
      (nestedExpansion.children enclosed).map EnclosedRegion.region := by
    intro enclosed
    change (boxedRegions enclosed.region).reverse = enclosed.boxes.reverse.map _
    rw [List.map_reverse, enclosed.boxes_regions]
  rw [enclosedRegions, nestedExpansion.run_map boxExpansion EnclosedRegion.region commutes, List.map_map]
  congr 1
  exact List.map_id _

namespace CrashLog

/-- The chains belong to the records of the Crash Log, one to one. -/
theorem records_enclosed {s : List Byte} {crashlog : CrashLog} (read : fromSlice s = .ok crashlog) :
    crashlog.records = (enclosedRecords s).map Prod.fst := by
  obtain ⟨_, regions⟩ := from_slice_regions_iff.mp ⟨crashlog, read, rfl⟩
  rw [records, ← regions, ← enclosed_regions_eq, enclosedRecords, List.map_flatMap, List.map_map,
    ← List.flatMap_def]
  congr 1
  funext enclosed
  rw [List.map_map]
  exact (List.map_id _).symm

end CrashLog

/-- A record keeps the head of its chain. -/
theorem parent_header_eq {s : List Byte} :
    ∀ enclosed ∈ enclosedRegions s, ∀ record ∈ enclosed.region.records,
      record.context.parentHeader = enclosed.headers.head? := by
  apply nestedExpansion.run_induction fun enclosed => ∀ record ∈ enclosed.region.records,
    record.context.parentHeader = enclosed.headers.head?
  · intro enclosed start record member
    obtain ⟨region, stored, rfl⟩ := List.mem_map.mp start
    obtain ⟨bytes, parsed⟩ := CrashLog.stored_region_parsed stored
    obtain ⟨walk, _⟩ := Region.from_slice_eq_ok_iff.mp parsed
    rw [walk.context_default record member]
    rfl
  · intro enclosed _ child member record inside
    obtain ⟨box, _, carried⟩ := List.mem_filterMap.mp (List.mem_reverse.mp member)
    obtain ⟨region, boxed, rfl⟩ := Option.map_eq_some_iff.mp carried
    obtain ⟨_, payload, plain, _, _, rfl⟩ := boxed_region_eq_some_iff.mp boxed
    obtain ⟨inner, _, rfl⟩ := List.mem_map.mp inside
    rfl

theorem enclosed_record_parent {s : List Byte} {record : Record} {headers : List Header}
    (member : (record, headers) ∈ enclosedRecords s) : record.context.parentHeader = headers.head? := by
  obtain ⟨enclosed, inRegions, inRecords⟩ := List.mem_flatMap.mp member
  obtain ⟨found, inside, same⟩ := List.mem_map.mp inRecords
  cases same
  exact parent_header_eq enclosed inRegions _ inside

/-! ## Where a record belongs -/

/-- The die of the nearest header of a chain that names one. -/
def nearestDie (headers : List Header) : Option (List String) := headers.findSome? Header.diePath

/-- The die of a record is in its own header or in that of its box, or no box
around them names one. -/
def DieInReach (own : Header) (headers : List Header) : Prop :=
  own.diePath ≠ none ∨ headers.head?.bind Header.diePath ≠ none ∨
    ∀ header ∈ headers, header.diePath = none

instance (own : Header) (headers : List Header) : Decidable (DieInReach own headers) :=
  inferInstanceAs (Decidable (_ ∨ _ ∨ _))

/-- What a record and its box say is what the whole chain says exactly when the
die is in reach. -/
theorem nearest_die_eq_iff (own : Header) (headers : List Header) :
    (own.diePath.or (headers.head?.bind Header.diePath)).getD [] = (nearestDie (own :: headers)).getD [] ↔
      DieInReach own headers := by
  unfold nearestDie DieInReach
  cases ownDie : own.diePath with
  | some path => simp [ownDie]
  | none =>
      rw [List.findSome?_cons, ownDie]
      cases headers with
      | nil => simp
      | cons box outer =>
          cases boxDie : box.diePath with
          | some path => simp [boxDie]
          | none =>
              cases outerDie : outer.findSome? Header.diePath with
              | none =>
                  have silent := List.findSome?_eq_none_iff.mp outerDie
                  simpa [boxDie, outerDie] using silent
              | some path =>
                  obtain ⟨header, member, found⟩ := List.exists_of_findSome?_eq_some outerDie
                  obtain ⟨_, _, rfl⟩ := Record.die_path_cases found
                  simp only [List.head?_cons, Option.bind_some, boxDie, List.findSome?_cons, outerDie,
                    Option.or_none, Option.getD_none, Option.getD_some, List.nil_eq, reduceCtorEq,
                    ne_eq, not_true_eq_false, false_or, false_iff, not_forall]
                  exact ⟨header, by simp [member], by simp [found]⟩

/-! ## Where a record is put -/

section Places

variable [UnicodeTables]

/-- A branch holds no record but its leaf. -/
theorem Node.hang_records {base leaf : Node} {path : List String} (plain : base.kind ≠ .record)
    (alone : ∀ below node, leaf.walk below = some node → node.kind = .record → below = []) :
    ∀ place node, (Node.hang base leaf path).walk place = some node → node.kind = .record →
      place = path ++ [leaf.name] := by
  intro place node walked kind
  induction path generalizing base place with
  | nil =>
      cases place with
      | nil =>
          cases walked
          exact absurd kind plain
      | cons first rest =>
          obtain ⟨child, stored, below⟩ := Option.bind_eq_some_iff.mp walked
          have entry := OrderedMap.mem_of_lookup stored
          simp only [Node.hang, List.mem_singleton, Prod.mk.injEq] at entry
          obtain ⟨rfl, rfl⟩ := entry
          rw [alone rest node below kind, List.nil_append]
  | cons name path ih =>
      cases place with
      | nil =>
          cases walked
          exact absurd kind plain
      | cons first rest =>
          obtain ⟨child, stored, below⟩ := Option.bind_eq_some_iff.mp walked
          have entry := OrderedMap.mem_of_lookup stored
          simp only [Node.hang, List.mem_singleton, Prod.mk.injEq] at entry
          obtain ⟨rfl, rfl⟩ := entry
          have section_plain : (Node.newSection first).kind ≠ .record := by simp [Node.newSection]
          rw [ih section_plain rest below, List.cons_append]

theorem Node.walk_hang (base leaf : Node) (path : List String) :
    (Node.hang base leaf path).walk (path ++ [leaf.name]) = some leaf := by
  induction path generalizing base with
  | nil => simp [Node.hang, Node.walk_cons, Node.get, OrderedMap.lookup]
  | cons name rest ih =>
      rw [List.cons_append, Node.walk_cons]
      simp [Node.hang, Node.get, OrderedMap.lookup, ih]

namespace Record

/-- Decoding the record gives a tree whose only record node is at the end of
the path, under the name of the record type. -/
def PlacedUnder (record : Record) (path : List String) : Prop :=
  ∃ root, record.decodeWithoutCm = some root ∧
    root.walk (path ++ [record.typeName]) = some (record.node record.typeName) ∧
    ∀ place node, root.walk place = some node → node.kind = .record → place = path ++ [record.typeName]

theorem placed_under_iff {record : Record} {path : List String} :
    record.PlacedUnder path ↔ record.location = path := by
  have only := @Node.hang_records _ Node.newRoot (record.node record.typeName) record.location
    (by simp [Node.newRoot]) (fun below node walked kind => record.node_below _ walked kind)
  constructor
  · rintro ⟨root, decoded, placed, _⟩
    rw [decode_without_cm_eq] at decoded
    cases decoded
    have same := only _ _ placed rfl
    exact (List.append_inj' same rfl).1.symm
  · rintro rfl
    exact ⟨_, record.decode_without_cm_eq, Node.walk_hang _ _ _, only⟩

omit [UnicodeTables] in
theorem location_eq (record : Record) :
    record.location = (record.header.diePath.or (record.context.parentHeader.bind Header.diePath)).getD [] := by
  unfold location
  cases record.header.diePath <;> rfl

end Record

/-- Every record of a Crash Log is put under the die of the nearest header on
its way out of the boxes, by itself and among the records of the Crash Log. -/
structure LocationsInherited (s : List Byte) (crashlog : CrashLog) : Prop where
  every : crashlog.records = (enclosedRecords s).map Prod.fst
  alone : ∀ record headers, (record, headers) ∈ enclosedRecords s →
    record.PlacedUnder ((nearestDie (record.header :: headers)).getD [])
  together : ∀ root, crashlog.decodeWithoutCm = some root → ∀ before record headers after,
    enclosedRecords s = before ++ (record, headers) :: after →
      let name := Text.instanceName record.typeName (record.earlier (before.map Prod.fst))
      root.walk ((nearestDie (record.header :: headers)).getD [] ++ [name]) = some (record.node name)

namespace CrashLog

omit [UnicodeTables] in
theorem location_nearest_iff {s : List Byte} {record : Record} {headers : List Header}
    (member : (record, headers) ∈ enclosedRecords s) :
    record.location = (nearestDie (record.header :: headers)).getD [] ↔
      DieInReach record.header headers := by
  rw [record.location_eq, enclosed_record_parent member, nearest_die_eq_iff]

/-- Locations are inherited exactly when no record is in two or more boxes of
which only the outer ones name a die: a record keeps the header of its own box
and not the headers around that. -/
theorem locations_inherited_iff (s : List Byte) (crashlog : CrashLog) (read : fromSlice s = .ok crashlog) :
    LocationsInherited s crashlog ↔
      ∀ record headers, (record, headers) ∈ enclosedRecords s → DieInReach record.header headers := by
  constructor
  · intro inherited record headers member
    exact (location_nearest_iff member).mp (Record.placed_under_iff.mp (inherited.alone _ _ member))
  · intro reach
    have nearest : ∀ record headers, (record, headers) ∈ enclosedRecords s →
        record.location = (nearestDie (record.header :: headers)).getD [] :=
      fun record headers member => (location_nearest_iff member).mpr (reach record headers member)
    refine ⟨records_enclosed read, ?_, ?_⟩
    · intro record headers member
      exact Record.placed_under_iff.mpr (nearest record headers member)
    · intro root merged before record headers after split
      have records : crashlog.records = before.map Prod.fst ++ record :: after.map Prod.fst := by
        rw [records_enclosed read, split, List.map_append, List.map_cons]
      obtain ⟨merge, endless⟩ := merge_records crashlog.records
      rw [decode_without_cm_eq] at merged
      by_cases countable : Countable crashlog.records
      · obtain ⟨same, sameMerged, decoded⟩ := merge countable
        rw [merged] at sameMerged
        cases sameMerged
        have found := decoded.present _ _ _ records
        rw [Record.place, nearest record headers (by simp [split])] at found
        exact found
      · rw [endless countable] at merged
        cases merged

end CrashLog

end Places

/-! ## A box in a box -/

namespace CrashLog

/-- The bytes of a Box record of die 1 on a socket around `payload`. -/
def dieBoxBytes (socketId dwords : Byte) (payload : List Byte) : List Byte :=
  [0x08, 0xa6, 0x07, 0x3d, dwords, 0, 0, 0] ++ List.replicate 16 0 ++ [1, socketId, 0, 0] ++ payload

def dieBoxHeader (socketId : UInt8) (dwords : UInt16) : Header where
  version := { revision := 8, headerType := 6, productId := 0x7a, recordType := RecordTypes.BOX }
  size := { recordSize := dwords }
  headerType := .type6 0 0 0 1 socketId 0 [] false

def plainBoxHeader : Header where
  version := { revision := 8, headerType := 1, productId := 0x7a, recordType := RecordTypes.BOX }
  size := { recordSize := 4 }

/-- A box on socket 2 in a box on socket 5. -/
def boxInBox : List Byte := dieBoxBytes 5 16 (dieBoxBytes 2 9 mcaBytes)

/-- The machine check record in the inner box is put on socket 2. -/
theorem boxed_record_location_inherited :
    @LocationsInherited .ascii boxInBox { regions := [
      ⟨[{ header := dieBoxHeader 5 16, data := boxInBox }]⟩,
      ⟨[{
        header := dieBoxHeader 2 9
        data := dieBoxBytes 2 9 mcaBytes
        context := { parentHeader := some (dieBoxHeader 5 16) } }]⟩,
      ⟨[{ header := mcaHeader 2, data := mcaBytes, context := { parentHeader := some (dieBoxHeader 2 9) } }]⟩] } :=
  (@locations_inherited_iff .ascii boxInBox _ (by decide +kernel)).mpr (by
    have reach : ∀ enclosed ∈ enclosedRecords boxInBox, DieInReach enclosed.1.header enclosed.2 := by
      decide +kernel
    exact fun record headers member => reach (record, headers) member)

/-- A machine check record in a plain box in a box of die 1 on socket 2 is put at the root. -/
theorem outer_box_location_not_inherited :
    ¬ ∀ (_ : UnicodeTables) (s : List Byte) (crashlog : CrashLog), fromSlice s = .ok crashlog →
      LocationsInherited s crashlog := by
  intro inherits
  let inner : List Byte := [0x08, 0xa1, 0x07, 0x3d, 4, 0, 0, 0] ++ mcaBytes
  let record : Record := {
    header := mcaHeader 2, data := mcaBytes, context := { parentHeader := some plainBoxHeader } }
  have read : ∃ crashlog, fromSlice (dieBoxBytes 2 11 inner) = .ok crashlog := by
    cases result : fromSlice (dieBoxBytes 2 11 inner) with
    | ok crashlog => exact ⟨crashlog, rfl⟩
    | error error =>
        have accepted : (fromSlice (dieBoxBytes 2 11 inner)).isOk := by decide +kernel
        rw [result] at accepted
        cases accepted
  obtain ⟨crashlog, read⟩ := read
  have member : (record, [plainBoxHeader, dieBoxHeader 2 11]) ∈ enclosedRecords (dieBoxBytes 2 11 inner) := by
    decide +kernel
  have placed := @LocationsInherited.alone .ascii _ _ (inherits .ascii _ crashlog read) _ _ member
  have root : record.location = [] := by decide +kernel
  have die : nearestDie [record.header, plainBoxHeader, dieBoxHeader 2 11] =
      some ["processors", "cpu2", "die1"] := by decide +kernel
  rw [@Record.placed_under_iff .ascii, root, die] at placed
  cases placed

end CrashLog

end Crashlog
