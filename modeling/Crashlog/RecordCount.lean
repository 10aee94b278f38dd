import Crashlog.Container
import Crashlog.DecodeHeaders

/-!
# How many records a slice holds

A region has no more records than bytes, those of its boxes included, and the
entries of an error region lie one behind the other. The descriptors of a CPER
container may all point to the same section: its records are then read once
for every descriptor.
-/

namespace Crashlog

open Bytes

/-! ## Records are not empty -/

/-- What every record that was parsed has. -/
def Region.Filled (region : Region) : Prop := ∀ record ∈ region.records, record.data ≠ []

theorem Records.filled {bytes : List Byte} {records : List Record} (read : Records bytes records) :
    ∀ record ∈ records, record.data ≠ [] := by
  induction read with
  | stop _ => simp
  | @record bytes records header headerRead size rest ih =>
      intro record member
      rcases List.mem_cons.mp member with rfl | later
      · intro empty
        rcases List.take_eq_nil_iff.mp empty with zero | nothing
        · exact size zero
        · rw [nothing, header_from_slice_nil] at headerRead
          cases headerRead
      · exact ih record later

theorem Region.filled_of_from_slice {bytes : List Byte} {region : Region}
    (read : Region.fromSlice bytes = .ok region) : region.Filled :=
  (Region.from_slice_eq_ok_iff.mp read).1.filled

theorem Region.filled_boxed {record : Record} {child : Region} (boxed : boxedRegion record = some child) :
    child.Filled := by
  obtain ⟨_, payload, inner, _, read, rfl⟩ := boxed_region_eq_some_iff.mp boxed
  intro record member
  obtain ⟨original, inside, rfl⟩ := List.mem_map.mp member
  exact Region.filled_of_from_slice read original inside

/-- The bytes of a region pay for its records and for the bytes of its boxed regions. -/
theorem records_paid {records : List Record} (filled : ∀ record ∈ records, record.data ≠ []) :
    records.length + ((records.filterMap boxedRegion).map fun child => child.toBytes.length).sum ≤
      (recordsToBytes records).length := by
  induction records with
  | nil => simp
  | cons record rest ih =>
      have own : 0 < record.data.length := List.length_pos_iff.mpr (filled record (by simp))
      have others := ih fun other member => filled other (by simp [member])
      rw [records_to_bytes_cons, List.length_append, List.filterMap_cons, List.length_cons]
      cases boxed : boxedRegion record with
      | none =>
          simp only
          omega
      | some child =>
          have size := boxed_region_size boxed
          simp only [List.map_cons, List.sum_cons]
          omega

/-- The bytes of the regions stored in the input. -/
def storedBytes (s : List Byte) : Nat := ((storedRegions s).map fun region => region.toBytes.length).sum

/-- The records of the regions stored in the input, those of their boxes included. -/
def storedRecords (s : List Byte) : List Record :=
  (boxExpansion.run (storedRegions s)).flatMap Region.records

/-- No more records are stored than bytes. -/
theorem stored_records_le (s : List Byte) : (storedRecords s).length ≤ storedBytes s := by
  rw [storedRecords, List.length_flatMap]
  apply boxExpansion.run_sum_le Region.Filled
  · intro region stored
    obtain ⟨bytes, parsed⟩ := CrashLog.stored_region_parsed stored
    exact Region.filled_of_from_slice parsed
  · intro region _ child member
    obtain ⟨record, _, boxed⟩ := List.mem_filterMap.mp (List.mem_reverse.mp member)
    exact Region.filled_boxed boxed
  · intro region filled
    have paid := records_paid filled
    change _ + (((boxedRegions region).reverse).map _).sum ≤ _
    rw [List.map_reverse, List.sum_reverse]
    exact paid

namespace CrashLog

theorem records_stored {s : List Byte} {crashlog : CrashLog} (read : fromSlice s = .ok crashlog) :
    crashlog.records = storedRecords s := by
  obtain ⟨_, regions⟩ := from_slice_regions_iff.mp ⟨crashlog, read, rfl⟩
  rw [storedRecords, regions, records, List.flatMap_def]

/-- What stores a record is read as a Crash Log. -/
theorem read_of_stored {s : List Byte} {record : Record} (stored : record ∈ storedRecords s) :
    ∃ crashlog, fromSlice s = .ok crashlog := by
  have nonempty : storedRegions s ≠ [] := by
    intro none
    rw [storedRecords, none, boxExpansion.run_nil] at stored
    cases stored
  obtain ⟨crashlog, read, _⟩ := from_slice_regions_iff.mpr ⟨nonempty, rfl⟩
  exact ⟨crashlog, read⟩

end CrashLog

/-! ## Bytes that are stored once -/

theorem region_in_section {body : CperSectionBody} {region : Region}
    (parsed : Region.fromCperSection body = some region) : region.toBytes.length ≤ body.len := by
  cases body with
  | unknown guid data => cases parsed
  | firmwareErrorRecord fer =>
      rw [Region.fromCperSection] at parsed
      split_ifs at parsed
      have total := (Region.from_slice_eq_ok_iff.mp (except_to_option_eq_some.mp parsed)).1.total_le
      exact total.trans (Nat.le_add_left _ _)

theorem regions_in_sections (bodies : List CperSectionBody) :
    ((bodies.filterMap Region.fromCperSection).map fun region => region.toBytes.length).sum ≤
      (bodies.map CperSectionBody.len).sum := by
  induction bodies with
  | nil => simp
  | cons body rest ih =>
      rw [List.filterMap_cons, List.map_cons, List.sum_cons]
      cases parsed : Region.fromCperSection body with
      | none =>
          dsimp only
          omega
      | some region =>
          have inside := region_in_section parsed
          rw [List.map_cons, List.sum_cons]
          omega

namespace Berr

variable {s : List Byte} {berr : Berr}

/-- The entries of an error region lie one behind the other. -/
theorem entries_inside (read : fromSlice s = some berr) :
    (berr.entries.map fun entry => entry.cperSection.len).sum ≤ s.length := by
  simp only [fromSlice, Option.bind_eq_bind, Option.bind_eq_some_iff, Option.some.injEq] at read
  obtain ⟨header, _, entries, loop, rfl⟩ := read
  have inside := (from_slice_loop_is_some (Nat.le_add_right _ _)).mp (Option.isSome_iff_exists.mpr ⟨_, loop⟩)
  obtain ⟨found, same, each, total⟩ := from_slice_loop_parsed loop
  rw [List.nil_append] at same
  subst same
  have smaller : (entries.map fun entry => entry.cperSection.len).sum ≤
      (entries.map GenericErrorDataEntry.size).sum := by
    apply List.sum_le_sum
    intro entry member
    obtain ⟨rest, _, parsed⟩ := each entry member
    obtain ⟨_, _, body, _, length, sectionRead⟩ := GenericErrorDataEntry.from_slice_parts parsed
    rw [CperSectionBody.len_eq_of_from_slice sectionRead, length]
    exact Nat.le_add_left _ _
  dsimp only
  omega

theorem file_entries_inside (read : fromBertFile s = some berr) :
    (berr.entries.map fun entry => entry.cperSection.len).sum ≤ s.length := by
  obtain ⟨rest, behind, read⟩ := from_bert_file_suffix read
  exact (entries_inside read).trans behind.length_le

end Berr

/-- Outside of CPER containers no byte is stored twice. -/
theorem stored_bytes_le {s : List Byte} (other : ¬ CPER_SIGNATURE <+: s) : storedBytes s ≤ s.length := by
  have notCper : Cper.fromSlice s = none := by
    cases read : Cper.fromSlice s with
    | none => rfl
    | some cper => exact absurd (Cper.from_slice_signed read) other
  unfold storedBytes storedRegions
  rw [notCper]
  cases file : Berr.fromBertFile s with
  | some berr =>
      have inside := Berr.file_entries_inside file
      have bodies := regions_in_sections (berr.entries.map GenericErrorDataEntry.cperSection)
      rw [List.filterMap_map, List.map_map] at bodies
      exact bodies.trans inside
  | none =>
      dsimp only
      cases single : Region.fromSlice s with
      | error error => simp [Except.toOption]
      | ok region =>
          have total := (Region.from_slice_eq_ok_iff.mp single).1.total_le
          simp only [Except.toOption, Option.toList, List.map_singleton, List.sum_singleton]
          exact total

/-! ## Sections that share their bytes -/

namespace Cper

/-- The descriptor of a body behind a table of `count` descriptors. -/
def sharedDescriptor (count : Nat) (body : List Byte) : CperSectionDescriptor where
  sectionOffset := UInt32.ofNat (bodyStart count)
  sectionLength := UInt32.ofNat body.length
  sectionType := FW_ERROR_RECORD

/-- A container with one body, to which all its descriptors point. -/
def sharedContainer (count : Nat) (body : List Byte) : List Byte :=
  ({ sectionCount := UInt16.ofNat count } : CperHeader).toBytes ++
    ((List.replicate count (sharedDescriptor count body).toBytes).flatten ++ body)

variable {count : Nat} {fer : FirmwareErrorRecord}

theorem shared_table_length (count entries : Nat) (body : List Byte) :
    (List.replicate entries (sharedDescriptor count body).toBytes).flatten.length =
      SECTION_DESCRIPTOR_SIZE * entries := by
  rw [List.length_flatten, List.map_replicate, List.sum_replicate, CperSectionDescriptor.to_bytes_length]
  exact Nat.mul_comm _ _

/-- Every descriptor is read, and the body is read for it. -/
theorem read_shared_section (recent : fer.header.revision ≥ 2) (start : bodyStart count < 2 ^ 32)
    (size : fer.toBytes.length < 2 ^ 32) {i : Nat} (inside : i < count) :
    readSection (sharedContainer count fer.toBytes) i =
      some { descriptor := sharedDescriptor count fer.toBytes, body := .firmwareErrorRecord fer } := by
  obtain ⟨rest, split⟩ : ∃ rest, count = i + (rest + 1) := ⟨count - i - 1, by omega⟩
  let header : CperHeader := { sectionCount := UInt16.ofNat count }
  let entry := (sharedDescriptor count fer.toBytes).toBytes
  have table : (List.replicate count entry).flatten =
      (List.replicate i entry).flatten ++ (entry ++ (List.replicate rest entry).flatten) := by
    conv_lhs => rw [split, List.replicate_add, List.flatten_append, List.replicate_succ, List.flatten_cons]
  have ahead : (header.toBytes ++ (List.replicate i entry).flatten).length =
      RECORD_HEADER_SIZE + i * SECTION_DESCRIPTOR_SIZE := by
    rw [List.length_append, CperHeader.to_bytes_length, shared_table_length, Nat.mul_comm]
  have cut : sliceFrom (sharedContainer count fer.toBytes) (RECORD_HEADER_SIZE + i * SECTION_DESCRIPTOR_SIZE) =
      some (entry ++ ((List.replicate rest entry).flatten ++ fer.toBytes)) := by
    have whole : sharedContainer count fer.toBytes = (header.toBytes ++ (List.replicate i entry).flatten) ++
        (entry ++ ((List.replicate rest entry).flatten ++ fer.toBytes)) := by
      rw [sharedContainer, table]
      simp only [List.append_assoc]
      rfl
    rw [whole]
    exact slice_from_head ahead
  have plain : (sharedDescriptor count fer.toBytes).validationBits =
      (sharedDescriptor count fer.toBytes).mirrorBits := by
    simp [CperSectionDescriptor.mirrorBits, sharedDescriptor]
  have descriptor : CperSectionDescriptor.fromSlice (entry ++ ((List.replicate rest entry).flatten ++ fer.toBytes)) =
      some (sharedDescriptor count fer.toBytes) := CperSectionDescriptor.from_slice_to_bytes _ plain _
  have offset : (sharedDescriptor count fer.toBytes).sectionOffset.toNat = bodyStart count := by
    rw [sharedDescriptor, UInt32.toNat_ofNat', Nat.mod_eq_of_lt start]
  have length : (sharedDescriptor count fer.toBytes).sectionLength.toNat = fer.toBytes.length := by
    rw [sharedDescriptor, UInt32.toNat_ofNat', Nat.mod_eq_of_lt size]
  have body : slice (sharedContainer count fer.toBytes) (bodyStart count)
      (bodyStart count + fer.toBytes.length) = some fer.toBytes := by
    rw [sharedContainer, ← List.append_assoc]
    apply slice_tail
    rw [List.length_append, CperHeader.to_bytes_length, shared_table_length, bodyStart]
  have parsed : CperSectionBody.fromSlice FW_ERROR_RECORD fer.toBytes = some (.firmwareErrorRecord fer) := by
    rw [CperSectionBody.fromSlice, if_pos rfl, FirmwareErrorRecord.from_slice_to_bytes fer recent, Option.map_some]
  simp only [readSection, cut, descriptor, offset, length, body, Option.bind_eq_bind, Option.bind_some]
  rw [show (sharedDescriptor count fer.toBytes).sectionType = FW_ERROR_RECORD from rfl, parsed, Option.bind_some]

/-- The body comes out once for every descriptor. -/
theorem read_shared_container (recent : fer.header.revision ≥ 2) (few : count < 2 ^ 16)
    (size : fer.toBytes.length < 2 ^ 32) :
    ∃ cper, fromSlice (sharedContainer count fer.toBytes) = some cper ∧
      cper.bodies = List.replicate count (.firmwareErrorRecord fer) := by
  let header : CperHeader := { sectionCount := UInt16.ofNat count }
  have start : bodyStart count < 2 ^ 32 := by
    unfold bodyStart RECORD_HEADER_SIZE SECTION_DESCRIPTOR_SIZE
    omega
  have announced : header.sectionCount.toNat = count := by
    change (UInt16.ofNat count).toNat = count
    rw [UInt16.toNat_ofNat', Nat.mod_eq_of_lt few]
  have cut : slice (sharedContainer count fer.toBytes) 0 RECORD_HEADER_SIZE = some header.toBytes :=
    slice_head header.to_bytes_length
  have plain : header.validationBits = header.mirrorBits := by simp [CperHeader.mirrorBits, header]
  have read : CperHeader.fromSlice header.toBytes = some header := by
    have whole := CperHeader.from_slice_to_bytes header plain []
    rwa [List.append_nil] at whole
  have sections : (List.range count).filterMap (readSection (sharedContainer count fer.toBytes)) =
      List.replicate count
        { descriptor := sharedDescriptor count fer.toBytes, body := .firmwareErrorRecord fer } := by
    rw [List.filterMap_congr fun i member =>
      read_shared_section recent start size (List.mem_range.mp member)]
    rw [List.filterMap_eq_map', List.map_const', List.length_range]
  have whole : fromSlice (sharedContainer count fer.toBytes) = some (normalize {
      recordHeader := header
      sections := List.replicate count
        { descriptor := sharedDescriptor count fer.toBytes, body := .firmwareErrorRecord fer } }) := by
    simp only [fromSlice, cut, read, Option.bind_eq_bind, Option.bind_some, announced, sections]
  exact ⟨_, whole, by rw [bodies_normalize, bodies, List.map_replicate]⟩

theorem shared_container_length (count : Nat) (body : List Byte) :
    (sharedContainer count body).length = bodyStart count + body.length := by
  rw [sharedContainer, List.length_append, List.length_append, CperHeader.to_bytes_length, shared_table_length,
    bodyStart, Nat.add_assoc]

theorem shared_container_signed (count : Nat) (body : List Byte) :
    CPER_SIGNATURE <+: sharedContainer count body := by
  rw [sharedContainer, CperHeader.toBytes, List.append_assoc]
  exact List.prefix_append _ _

end Cper

namespace CrashLog

/-- A Firmware Error Record of machine check records. -/
def mcaSection (records : Nat) : FirmwareErrorRecord where
  header := { errorType := 2, revision := 2, guid := Fer.RECORD_ID_CRASHLOG }
  payload := (List.replicate records mcaBytes).flatten

theorem mca_section_length (records : Nat) : (mcaSection records).toBytes.length = 32 + 8 * records := by
  rw [FirmwareErrorRecord.to_bytes_length]
  simp [mcaSection, mcaBytes, Nat.mul_comm]

/-- Any number of records comes out of a container with enough descriptors. -/
theorem shared_records (descriptors records : Nat) (few : descriptors + 1 < 2 ^ 16)
    (size : 32 + 8 * (records + 1) < 2 ^ 32) :
    storedRecords (Cper.sharedContainer (descriptors + 1) (mcaSection (records + 1)).toBytes) =
      List.replicate ((descriptors + 1) * (records + 1)) mcaRecord := by
  let s := Cper.sharedContainer (descriptors + 1) (mcaSection (records + 1)).toBytes
  have recent : (mcaSection (records + 1)).header.revision ≥ 2 := show (2 : UInt8) ≥ 2 by decide
  obtain ⟨cper, read, bodies⟩ := Cper.read_shared_container recent few (by rwa [mca_section_length])
  have notBert : Berr.fromBertFile s = none :=
    @ContainerFormat.from_bert_file_eq _ .cper (Cper.shared_container_signed _ _)
  have region : Region.fromCperSection (.firmwareErrorRecord (mcaSection (records + 1))) =
      some { records := List.replicate (records + 1) mcaRecord } := by
    have crashlog : (mcaSection (records + 1)).header.guid = Fer.RECORD_ID_CRASHLOG := rfl
    rw [Region.fromCperSection, if_pos crashlog]
    exact congrArg Except.toOption (mca_region records)
  have stored : storedRegions s =
      List.replicate (descriptors + 1) { records := List.replicate (records + 1) mcaRecord } := by
    simp only [storedRegions, notBert, s, read, bodies, List.filterMap_replicate_of_some region]
  rw [storedRecords, stored, mca_alone, List.flatMap_def, List.map_replicate, List.flatten_replicate_replicate]

end CrashLog

end Crashlog
