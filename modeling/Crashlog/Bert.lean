import Crashlog.Export

/-!
# Export as a boot error record table

A Crash Log can also be exported as an ACPI table: the packed table header,
then a Boot Error Region with one entry for each region. The table carries no
extra sections. What is found in it again is what is found in the CPER export,
so importing either gives the same regions.
-/

namespace Crashlog

open Bytes

/-- The header shared by the ACPI tables, packed into 36 bytes. The signature
is written by the table. -/
structure SdtHeader where
  length : UInt32 := 0
  revision : UInt8 := 0
  checksum : UInt8 := 0
  oemId : Block 6 := Block.zero 6
  oemTableId : Block 8 := Block.zero 8
  oemRevision : UInt32 := 0
  creatorId : UInt32 := 0
  creatorRevision : UInt32 := 0
  deriving DecidableEq, Repr

structure Bert where
  header : SdtHeader := {}
  regionLength : UInt32 := 0
  region : UInt64 := 0
  deriving DecidableEq, Repr

namespace Bert

/-- The letters `BERT`. -/
def SIGNATURE : List Byte := [0x42, 0x45, 0x52, 0x54]

def dummy : Bert := {}

def toBytes (bert : Bert) : List Byte :=
  SIGNATURE ++ (bytesOfU32 bert.header.length ++ ([bert.header.revision] ++
    ([bert.header.checksum] ++ (bert.header.oemId.bytes ++ (bert.header.oemTableId.bytes ++
    (bytesOfU32 bert.header.oemRevision ++ (bytesOfU32 bert.header.creatorId ++
    (bytesOfU32 bert.header.creatorRevision ++ (bytesOfU32 bert.regionLength ++
    bytesOfU64 bert.region)))))))))

theorem to_bytes_length (bert : Bert) : bert.toBytes.length = Berr.BERT_SIZE := by
  simp [toBytes, SIGNATURE, Berr.BERT_SIZE, Block.size]

end Bert

namespace Berr

/-- The entry of a region. -/
def regionEntry (region : Region) : GenericErrorDataEntry where
  header := { sectionType := FW_ERROR_RECORD, revision := 0x300 }
  cperSection := .firmwareErrorRecord (FirmwareErrorRecord.fromCrashlogRegion region)

def fromCrashlog (crashlog : CrashLog) : Berr where
  header := {}
  entries := crashlog.regions.map regionEntry

end Berr

namespace CrashLog

def toBert (crashlog : CrashLog) : List Byte :=
  let berr := (Berr.fromCrashlog crashlog).toBytes
  let bert := { Bert.dummy with region := 0, regionLength := UInt32.ofNat berr.length }
  bert.toBytes ++ berr

end CrashLog

/-! ## Importing the table -/

namespace Berr

theorem from_bert_file_table (bert : Bert) (berr : List Byte) :
    fromBertFile (bert.toBytes ++ berr) = fromSlice berr := by
  have named : bert.toBytes ++ berr = [0x42, 0x45, 0x52, 0x54] ++ ((bert.toBytes ++ berr).drop 4) := rfl
  have other : ¬ ([0x42, 0x45, 0x52, 0x52] : List Byte) <+: bert.toBytes ++ berr := by
    rw [named]
    simp
  have signature : ([0x42, 0x45, 0x52, 0x54] : List Byte) <+: bert.toBytes ++ berr := ⟨_, named.symm⟩
  rw [fromBertFile, if_neg other, if_pos signature, slice_from_head bert.to_bytes_length, Option.bind_some]

theorem region_entry_length (region : Region) :
    (regionEntry region).toBytes.length = 104 + region.toBytes.length := by
  have body : (regionEntry region).cperSection.toBytes.length = 32 + region.toBytes.length :=
    FirmwareErrorRecord.to_bytes_length _
  rw [GenericErrorDataEntry.toBytes, List.length_append, GenericErrorDataEntryHeader.to_bytes_length, body]
  change 72 + (32 + region.toBytes.length) = _
  omega

theorem region_entry_encodable {region : Region} (fits : 32 + region.toBytes.length < 2 ^ 32) :
    (regionEntry region).Encodable where
  fits := by
    change (FirmwareErrorRecord.fromCrashlogRegion region).toBytes.length < _
    rw [FirmwareErrorRecord.to_bytes_length]
    exact fits
  body := CperSectionBody.recent_record_from_slice (by change (2 : UInt8) ≥ 2; decide)
  untimed _ := rfl

end Berr

namespace CrashLog

variable {crashlog : CrashLog}

/-- Every region of a table that fits its length fields fits an entry. -/
theorem table_region_fits (fits : crashlog.toBert.length < 2 ^ 32) {region : Region}
    (member : region ∈ crashlog.regions) : 32 + region.toBytes.length < 2 ^ 32 := by
  have listed : (Berr.regionEntry region).toBytes.length ∈
      ((Berr.fromCrashlog crashlog).entries.map fun entry => entry.toBytes.length) :=
    List.mem_map_of_mem (List.mem_map_of_mem member)
  have part := List.le_sum_of_mem listed
  rw [Berr.region_entry_length] at part
  have whole : (Berr.entriesToBytes (Berr.fromCrashlog crashlog).entries).length ≤ crashlog.toBert.length := by
    rw [toBert, Berr.to_bytes_eq]
    simp only [List.length_append]
    omega
  rw [Berr.entriesToBytes, List.length_flatten, List.map_map] at whole
  simp only [Function.comp_def] at whole
  omega

theorem stored_regions_of_table (fits : crashlog.toBert.length < 2 ^ 32) :
    storedRegions crashlog.toBert = crashlog.regions.filterMap reimport := by
  have encodable : ∀ entry ∈ (Berr.fromCrashlog crashlog).entries, entry.Encodable := by
    intro entry member
    obtain ⟨region, listed, rfl⟩ := List.mem_map.mp member
    exact Berr.region_entry_encodable (table_region_fits fits listed)
  have whole : (Berr.entriesToBytes (Berr.fromCrashlog crashlog).entries).length < 2 ^ 32 := by
    rw [toBert, Berr.to_bytes_eq] at fits
    simp only [List.length_append] at fits
    omega
  have read : Berr.fromBertFile crashlog.toBert = Berr.fromSlice (Berr.fromCrashlog crashlog).toBytes :=
    Berr.from_bert_file_table _ _
  rw [storedRegions, read, Berr.from_slice_to_bytes _ encodable whole]
  simp only [List.filterMap_map, Berr.fromCrashlog]
  rfl

/-- Both exports of a Crash Log are imported as the same regions, or neither
can be imported. -/
theorem exports_agree (s : List Byte) (crashlog : CrashLog) (read : fromSlice s = .ok crashlog)
    (counted : crashlog.regions.length + crashlog.metadata.extraCperSections.length < 2 ^ 16)
    (cperFits : crashlog.toBytes.length < 2 ^ 32) (bertFits : crashlog.toBert.length < 2 ^ 32) :
    ((∃ error, fromSlice crashlog.toBert = .error error) ∧
        ∃ error, fromSlice crashlog.toBytes = .error error) ∨
      ∃ table container, fromSlice crashlog.toBert = .ok table ∧
        fromSlice crashlog.toBytes = .ok container ∧ table.regions = container.regions := by
  have sections : crashlog.exportedSections.length < 2 ^ 16 := by
    simpa [exportedSections] using counted
  have same : storedRegions crashlog.toBert = storedRegions crashlog.toBytes := by
    rw [stored_regions_of_table bertFits, stored_regions_reimported read sections cperFits
      fun region member => table_region_fits bertFits member]
  have regions := regions_of_stored same
  cases tableRead : fromSlice crashlog.toBert with
  | ok table =>
      cases containerRead : fromSlice crashlog.toBytes with
      | ok container =>
          rw [tableRead, containerRead] at regions
          exact .inr ⟨table, container, rfl, rfl, Option.some.inj regions⟩
      | error error =>
          rw [tableRead, containerRead] at regions
          cases regions
  | error error =>
      cases containerRead : fromSlice crashlog.toBytes with
      | ok container =>
          rw [tableRead, containerRead] at regions
          cases regions
      | error other => exact .inl ⟨⟨error, rfl⟩, other, rfl⟩

/-- A Box record is taken out of both exports once more. -/
theorem boxed_region_exports_agree :
    let box : Header := {
      version := { revision := 8, headerType := 1, productId := 0x7a, recordType := RecordTypes.BOX }
      size := { recordSize := 4 }
      headerType := .type1 }
    let inner : List Byte := [0x08, 0xa1, 0x07, 0x3e, 2, 0, 0, 0]
    let crashlog : CrashLog := { regions := [
      ⟨[{ header := box, data := [0x08, 0xa1, 0x07, 0x3d, 4, 0, 0, 0] ++ inner }]⟩,
      ⟨[{ header := mcaHeader 2, data := inner, context := { parentHeader := some box } }]⟩] }
    ((∃ error, fromSlice crashlog.toBert = .error error) ∧
        ∃ error, fromSlice crashlog.toBytes = .error error) ∨
      ∃ table container, fromSlice crashlog.toBert = .ok table ∧
        fromSlice crashlog.toBytes = .ok container ∧ table.regions = container.regions :=
  exports_agree [0x08, 0xa1, 0x07, 0x3d, 4, 0, 0, 0, 0x08, 0xa1, 0x07, 0x3e, 2, 0, 0, 0] _
    (by decide +kernel) (by decide +kernel) (by decide +kernel) (by decide +kernel)

end CrashLog

end Crashlog
