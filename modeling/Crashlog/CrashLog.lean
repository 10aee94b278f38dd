import Crashlog.Berr
import Crashlog.Cper
import Crashlog.Expansion

/-!
# Crash Logs

A Crash Log is a list of regions. Box records carry regions of their own, and
building a Crash Log takes these out: the loop drains a queue to whose front
it pushes what it finds. `boxExpansion` is that loop as a stack of regions; it
ends because a boxed region is lighter than its box.

The model follows the release build, in which the assertions are off and
integer casts truncate.
-/

namespace Crashlog

open Bytes

structure PciBdf where
  segment : UInt16
  bus : UInt8
  device : UInt8
  function : UInt8
  deriving DecidableEq, Repr

inductive PmtDeviceId where
  | name (name : String)
  | bdf (bdf : PciBdf)
  deriving DecidableEq, Repr

/-- A source from which Crash Logs can be extracted. -/
inductive CrashLogSource where
  | acpi
  | pmtDevice (device : PmtDeviceId)
  | eventLog
  deriving DecidableEq, Repr

structure Metadata where
  computer : Option String := none
  source : Option CrashLogSource := none
  time : Option Time := none
  extraCperSections : List CperSectionBody := []
  deriving DecidableEq, Repr

structure CrashLog where
  regions : List Region := []
  metadata : Metadata := {}
  deriving DecidableEq, Repr

namespace Record

def isBox (record : Record) : Bool :=
  record.header.version.recordType = RecordTypes.BOX ||
    record.header.version.errata.type0LegacyServerBox

/-- The bytes behind the header. -/
def boxPayload (record : Record) : Option (List Byte) :=
  sliceFrom record.data record.header.headerSize

end Record

/-! ## The expansion loop -/

namespace CrashLog

/-- The body of the inner loop: what a record pushes to the front of the queue. -/
def pushBox (queue : List Region) (record : Record) : List Region :=
  if record.isBox then
    match record.boxPayload with
    | none => queue
    | some payload =>
        match Region.fromSlice payload with
        | .ok region => region.setChildContext record.header :: queue
        | .error _ => queue
  else queue

/-- The inner loop. -/
def pushBoxes (records : List Record) (queue : List Region) : List Region :=
  records.foldl pushBox queue

end CrashLog

/-- The region carried by a box record. -/
def boxedRegion (record : Record) : Option Region :=
  if record.isBox then
    record.boxPayload.bind fun payload =>
      (Region.fromSlice payload).toOption.map (Region.setChildContext · record.header)
  else none

def boxedRegions (region : Region) : List Region := region.records.filterMap boxedRegion

@[simp] theorem set_child_context_to_bytes (region : Region) (header : Header) :
    (region.setChildContext header).toBytes = region.toBytes := by
  simp [Region.setChildContext, Region.toBytes, Function.comp_def]

theorem except_to_option_eq_some {α ε : Type} {result : Except ε α} {value : α} :
    result.toOption = some value ↔ result = .ok value := by
  cases result <;> simp [Except.toOption]

theorem is_box_iff (record : Record) :
    record.isBox ↔ record.header.version.recordType = RecordTypes.BOX ∨
      record.header.version.recordType = RecordTypes.PCORE ∧
        record.header.version.errata.type0LegacyServer := by
  simp [Record.isBox, Version.errata, Errata.fromVersion, and_comm]

theorem boxed_region_eq_some_iff {record : Record} {child : Region} :
    boxedRegion record = some child ↔ record.isBox ∧ ∃ payload region,
      sliceFrom record.data record.header.headerSize = some payload ∧
        Region.fromSlice payload = .ok region ∧ child = region.setChildContext record.header := by
  unfold boxedRegion Record.boxPayload
  split_ifs with isBox
  · simp only [isBox, true_and, Option.bind_eq_some_iff, Option.map_eq_some_iff,
      except_to_option_eq_some]
    constructor
    · rintro ⟨payload, cut, region, read, rfl⟩
      exact ⟨payload, region, cut, read, rfl⟩
    · rintro ⟨payload, region, cut, read, rfl⟩
      exact ⟨payload, cut, region, read, rfl⟩
  · simp [isBox]

/-- A box is at least a header of eight bytes longer than what it carries. -/
theorem boxed_region_size {record : Record} {child : Region} (boxed : boxedRegion record = some child) :
    child.toBytes.length + 8 ≤ record.data.length := by
  obtain ⟨_, payload, region, cut, read, rfl⟩ := boxed_region_eq_some_iff.mp boxed
  obtain ⟨inside, rest⟩ := slice_from_eq_some_iff.mp cut
  have total := (Region.from_slice_eq_ok_iff.mp read).1.total_le
  have header := record.header.size_ge
  rw [rest, List.length_drop] at total
  rw [set_child_context_to_bytes]
  change (recordsToBytes region.records).length + 8 ≤ _
  omega

/-- The bytes of a region pay for its boxed regions and for eight more each. -/
theorem boxed_regions_paid (records : List Record) :
    ((records.filterMap boxedRegion).map fun child => 8 + child.toBytes.length).sum ≤
      (recordsToBytes records).length := by
  induction records with
  | nil => simp
  | cons record rest ih =>
      rw [records_to_bytes_cons, List.length_append, List.filterMap_cons]
      cases boxed : boxedRegion record with
      | none =>
          simp only
          omega
      | some child =>
          have size := boxed_region_size boxed
          simp only [List.map_cons, List.sum_cons]
          omega

theorem region_credit (region : Region) :
    8 + ((boxedRegions region).reverse.map fun child => 8 + child.toBytes.length).sum ≤
      8 + region.toBytes.length := by
  rw [List.map_reverse, List.sum_reverse]
  exact Nat.add_le_add_left (boxed_regions_paid region.records) 8

/-- Draining a queue of regions. The last boxed region of a region comes first. -/
def boxExpansion : Expansion Region where
  children region := (boxedRegions region).reverse
  weight region := 8 + region.toBytes.length
  lighter region := by
    have paid := region_credit region
    omega

namespace CrashLog

theorem push_box_eq (queue : List Region) (record : Record) :
    pushBox queue record = (boxedRegion record).toList ++ queue := by
  unfold pushBox boxedRegion
  split_ifs with isBox
  · cases record.boxPayload with
    | none => rfl
    | some payload => cases read : Region.fromSlice payload <;> simp [read, Except.toOption]
  · rfl

theorem push_boxes_eq (records : List Record) (queue : List Region) :
    pushBoxes records queue = (records.filterMap boxedRegion).reverse ++ queue := by
  induction records generalizing queue with
  | nil => rfl
  | cons record rest ih =>
      rw [pushBoxes, List.foldl_cons, ← pushBoxes, ih, push_box_eq, List.filterMap_cons]
      cases boxedRegion record <;> simp

/-- The outer loop of `fromRegions`: the state is the queue and the regions emitted so far. -/
def fromRegionsLoop (queue regions : List Region) : List Region :=
  match queue with
  | [] => regions
  | region :: rest => fromRegionsLoop (pushBoxes region.records rest) (regions ++ [region])
termination_by boxExpansion.load queue
decreasing_by
  rw [push_boxes_eq]
  exact boxExpansion.load_step region rest

def fromRegions (regions : List Region) : Except Error CrashLog :=
  let regions := fromRegionsLoop regions []
  if regions.isEmpty then .error .invalidCrashLog else .ok { regions }

/-! ## Containers -/

def fromBerr (berr : Berr) : Except Error CrashLog :=
  fromRegions (berr.entries.filterMap fun entry => Region.fromCperSection entry.cperSection)

/-- The loop body of `fromCper`: regions and extra sections are set apart. -/
def sortSection (sorted : List Region × List CperSectionBody) (item : CperSection) :
    List Region × List CperSectionBody :=
  match Region.fromCperSection item.body with
  | some region => (sorted.1 ++ [region], sorted.2)
  | none => (sorted.1, sorted.2 ++ [item.body])

def fromCper (cper : Cper) : Except Error CrashLog :=
  let (regions, extraCperSections) := cper.sections.foldl sortSection ([], [])
  if regions.isEmpty then .error .noCrashLogFound
  else do
    let crashlog ← fromRegions regions
    .ok { crashlog with metadata := { crashlog.metadata with extraCperSections } }

def fromSlice (s : List Byte) : Except Error CrashLog :=
  match Berr.fromBertFile s with
  | some berr => fromBerr berr
  | none =>
      match Cper.fromSlice s with
      | some cper => fromCper cper
      | none => do
          let region ← Region.fromSlice s
          fromRegions [region]

end CrashLog

namespace Cper

/-- The section of a region, reported as fatal. -/
def regionSection (region : Region) : CperSection :=
  let added := CperSection.fromCrashlogRegion region
  { added with descriptor := { added.descriptor with sectionSeverity := .fatal } }

def fromRawCrashlog (crashlog : CrashLog) : Cper :=
  let cper : Cper := {
    recordHeader := {
      notificationType := NotificationTypes.BOOT
      errorSeverity := .fatal
      timestamp := crashlog.metadata.time.map Timestamp.fromCrashlogMetadata } }
  let cper := (crashlog.regions.map regionSection).foldl appendSection cper
  (crashlog.metadata.extraCperSections.map CperSection.fromBody).foldl appendSection cper

end Cper

namespace CrashLog

def toBytes (crashlog : CrashLog) : List Byte := (Cper.fromRawCrashlog crashlog).toBytes

/-! ## What the loop computes -/

theorem from_regions_loop_eq (queue regions : List Region) :
    fromRegionsLoop queue regions = regions ++ boxExpansion.run queue := by
  fun_induction fromRegionsLoop queue regions with
  | case1 regions => simp
  | case2 regions region rest ih =>
      rw [ih, push_boxes_eq, Expansion.run_cons, List.append_assoc]
      rfl

theorem run_eq_nil_iff {queue : List Region} : boxExpansion.run queue = [] ↔ queue = [] := by
  cases queue with
  | nil => simp
  | cons region rest => simp [Expansion.run_cons]

theorem from_regions_eq (regions : List Region) :
    fromRegions regions =
      if regions = [] then .error .invalidCrashLog else .ok { regions := boxExpansion.run regions } := by
  unfold fromRegions
  simp only [from_regions_loop_eq, List.nil_append, List.isEmpty_iff, run_eq_nil_iff]

/-- Every boxed region is taken out exactly once, at any depth: the output is
the input together with the boxed regions of the records in the output, and
each boxed region costs its box eight bytes. -/
theorem from_regions_expands_boxes (regions : List Region) :
    ∃ output : List Region,
      (fromRegions regions =
        if regions = [] then .error .invalidCrashLog else .ok { regions := output }) ∧
      output.Perm (regions ++ output.flatMap fun region => region.records.filterMap boxedRegion) ∧
      output.length ≤ regions.length + (regions.map fun region => region.toBytes.length).sum / 8 ∧
      ∀ record child, boxedRegion record = some child ↔
        (record.header.version.recordType = RecordTypes.BOX ∨
          record.header.version.recordType = RecordTypes.PCORE ∧
            record.header.version.errata.type0LegacyServer) ∧
        ∃ payload region, sliceFrom record.data record.header.headerSize = some payload ∧
          Region.fromSlice payload = .ok region ∧
          child.records = region.records.map fun inner =>
            { inner with context := { inner.context with parentHeader := some record.header } } := by
  refine ⟨boxExpansion.run regions, from_regions_eq regions, ?_, ?_, ?_⟩
  · refine (boxExpansion.run_perm regions).trans (List.Perm.append_left _ ?_)
    exact List.Perm.flatMap_left _ fun region _ => List.reverse_perm _
  · have paid := boxExpansion.run_length_le region_credit regions
    have credit : (regions.map fun region => 8 + region.toBytes.length).sum =
        8 * regions.length + (regions.map fun region => region.toBytes.length).sum := by
      simp [Nat.mul_comm]
    rw [credit] at paid
    omega
  · intro record child
    rw [boxed_region_eq_some_iff, is_box_iff]
    have records : ∀ region : Region, child = region.setChildContext record.header ↔
        child.records = region.records.map fun inner =>
          { inner with context := { inner.context with parentHeader := some record.header } } := by
      intro region
      cases child
      simp [Region.setChildContext]
    simp only [records]

end CrashLog

end Crashlog
