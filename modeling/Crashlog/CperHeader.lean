import Crashlog.Bytes

/-!
# CPER record header and section descriptors

The two fixed-size structures at the start of a CPER file. Optional fields
are mirrored in validation bits, which `normalize` recomputes; a normalized
structure is read back field for field from its own encoding.
-/

namespace Crashlog

open Bytes

abbrev Guid := Block 16

def Guid.ZERO : Guid := Block.zero 16

/-- Extraction time, as stored in the metadata of a Crash Log. -/
structure Time where
  year : UInt16
  month : UInt8
  day : UInt8
  hour : UInt8
  minute : UInt8
  deriving DecidableEq, Repr

structure Revision where
  major : UInt8
  minor : UInt8
  deriving DecidableEq, Repr

namespace Revision

def fromSlice (s : List Byte) : Option Revision := do
  let minor ← readU8 s 0
  let major ← readU8 s 1
  some { major, minor }

def toBytes (revision : Revision) : List Byte := [revision.minor, revision.major]

@[simp] theorem to_bytes_length (revision : Revision) : revision.toBytes.length = 2 := by
  simp [toBytes]

theorem from_slice_to_bytes (revision : Revision) : fromSlice revision.toBytes = some revision := rfl

end Revision

/-- The severity of a record and that of a section have the same four values. -/
inductive Severity where
  | recoverable
  | fatal
  | corrected
  | informational
  deriving DecidableEq, Repr

namespace Severity

def ofU32 (value : UInt32) : Severity :=
  if value = 0 then recoverable
  else if value = 1 then fatal
  else if value = 2 then corrected
  else informational

def asU32 : Severity → UInt32
  | recoverable => 0
  | fatal => 1
  | corrected => 2
  | informational => 3

theorem of_as_u32 (severity : Severity) : ofU32 severity.asU32 = severity := by
  cases severity <;> rfl

end Severity

abbrev ErrorSeverity := Severity
abbrev SectionSeverity := Severity

/-! ## Timestamps -/

def binToBcd (byte : UInt8) : UInt8 := (byte / 10) <<< 4 ||| (byte % 10)

structure Timestamp where
  seconds : UInt8 := 0
  minutes : UInt8 := 0
  hours : UInt8 := 0
  precise : Bool := false
  day : UInt8 := 0
  month : UInt8 := 0
  year : UInt8 := 0
  century : UInt8 := 0
  deriving DecidableEq, Repr

namespace Timestamp

def fromCrashlogMetadata (time : Time) : Timestamp where
  century := binToBcd (time.year / 100).toUInt8
  year := binToBcd (time.year % 100).toUInt8
  month := binToBcd time.month
  day := binToBcd time.day
  hours := binToBcd time.hour
  minutes := binToBcd time.minute

def fromSlice (s : List Byte) : Option Timestamp := do
  let seconds ← readU8 s 0
  let minutes ← readU8 s 1
  let hours ← readU8 s 2
  let precise ← readU8 s 3
  let day ← readU8 s 4
  let month ← readU8 s 5
  let year ← readU8 s 6
  let century ← readU8 s 7
  some { seconds, minutes, hours, precise := precise &&& 1 != 0, day, month, year, century }

def toBytes (timestamp : Timestamp) : List Byte :=
  [timestamp.seconds, timestamp.minutes, timestamp.hours, timestamp.precise.toUInt8,
    timestamp.day, timestamp.month, timestamp.year, timestamp.century]

@[simp] theorem to_bytes_length (timestamp : Timestamp) : timestamp.toBytes.length = 8 := by
  simp [toBytes]

theorem from_slice_to_bytes (timestamp : Timestamp) : fromSlice timestamp.toBytes = some timestamp := by
  have bit : ∀ precise : Bool, (precise.toUInt8 &&& 1 != 0) = precise := by decide
  simp [fromSlice, toBytes, readU8, bit]

end Timestamp

/-- An optional field that is present exactly when its validation bit is set
is read back from the default that stands in for it. -/
theorem read_optional {α : Type} {bit : Prop} [Decidable bit] {value : Option α} {default : α}
    (mirrored : bit ↔ value.isSome) :
    (if bit then (some (value.getD default)).map some else some none) = some value := by
  cases value with
  | none => simp [mirrored]
  | some present => simp [mirrored]

/-! ## Record header -/

def RECORD_HEADER_SIZE : Nat := 128

def LCF_GUID : Guid :=
  ⟨[0x44, 0x73, 0xa6, 0xeb, 0x76, 0xb8, 0x37, 0x42, 0xb8, 0x0d, 0x27, 0xe1, 0x29, 0x7f, 0xa2, 0xff],
    rfl⟩

namespace HeaderValidation

def PLATFORM_ID : UInt32 := 1
def TIMESTAMP : UInt32 := 2
def PARTITION_ID : UInt32 := 4

end HeaderValidation

namespace NotificationTypes

def BOOT : Guid :=
  ⟨[0x66, 0xa4, 0x61, 0x3d, 0x40, 0xab, 0x9a, 0x40, 0xa6, 0x98, 0xf3, 0x62, 0xd4, 0x64, 0xb3, 0x8f],
    rfl⟩

end NotificationTypes

/-- The four signature bytes, the letters `CPER`. -/
def CPER_SIGNATURE : List Byte := [0x43, 0x50, 0x45, 0x52]

structure CperHeader where
  revision : Revision := ⟨1, 1⟩
  sectionCount : UInt16 := 0
  errorSeverity : ErrorSeverity := .informational
  validationBits : UInt32 := 0
  recordLength : UInt32 := 128
  timestamp : Option Timestamp := none
  platformId : Option Guid := none
  partitionId : Option Guid := none
  creatorId : Guid := LCF_GUID
  notificationType : Guid := Guid.ZERO
  recordId : UInt64 := 0
  flags : UInt32 := 0
  persistenceInformation : UInt64 := 0
  deriving DecidableEq, Repr

namespace CperHeader

def fromSlice (s : List Byte) : Option CperHeader := do
  let signatureEnd ← readU32 s 6
  if ¬ CPER_SIGNATURE <+: s ∨ signatureEnd ≠ 0xFFFFFFFF then none
  else do
    let revision ← (field s 4 2).bind Revision.fromSlice
    let validationBits ← readU32 s 16
    let sectionCount ← readU16 s 10
    let errorSeverity ← readU32 s 12
    let recordLength ← readU32 s 20
    let timestamp ← (if validationBits &&& HeaderValidation.TIMESTAMP ≠ 0 then
        ((field s 24 8).bind Timestamp.fromSlice).map some
      else some none)
    let platformId ← (if validationBits &&& HeaderValidation.PLATFORM_ID ≠ 0 then
        (readBlock 16 s 32).map some
      else some none)
    let partitionId ← (if validationBits &&& HeaderValidation.PARTITION_ID ≠ 0 then
        (readBlock 16 s 48).map some
      else some none)
    let creatorId ← readBlock 16 s 64
    let notificationType ← readBlock 16 s 80
    let recordId ← readU64 s 96
    let flags ← readU32 s 104
    let persistenceInformation ← readU64 s 108
    some {
      revision, sectionCount, errorSeverity := Severity.ofU32 errorSeverity, validationBits
      recordLength, timestamp, platformId, partitionId, creatorId, notificationType, recordId
      flags, persistenceInformation }

/-- The validation bits that mirror the optional fields. -/
def mirrorBits (header : CperHeader) : UInt32 :=
  (if header.timestamp.isSome then HeaderValidation.TIMESTAMP else 0) |||
    (if header.platformId.isSome then HeaderValidation.PLATFORM_ID else 0) |||
    (if header.partitionId.isSome then HeaderValidation.PARTITION_ID else 0)

def normalize (header : CperHeader) : CperHeader := { header with validationBits := header.mirrorBits }

def toBytes (header : CperHeader) : List Byte :=
  CPER_SIGNATURE ++ (header.revision.toBytes ++ ([0xFF, 0xFF, 0xFF, 0xFF] ++
    (bytesOfU16 header.sectionCount ++ (bytesOfU32 header.errorSeverity.asU32 ++
    (bytesOfU32 header.validationBits ++ (bytesOfU32 header.recordLength ++
    ((header.timestamp.getD {}).toBytes ++ ((header.platformId.getD Guid.ZERO).bytes ++
    ((header.partitionId.getD Guid.ZERO).bytes ++ (header.creatorId.bytes ++
    (header.notificationType.bytes ++ (bytesOfU64 header.recordId ++ (bytesOfU32 header.flags ++
    (bytesOfU64 header.persistenceInformation ++ List.replicate 12 0))))))))))))))

theorem to_bytes_length (header : CperHeader) : header.toBytes.length = RECORD_HEADER_SIZE := by
  simp [toBytes, CPER_SIGNATURE, RECORD_HEADER_SIZE, Block.size]

theorem mirror_bits_timestamp (header : CperHeader) :
    (header.mirrorBits &&& HeaderValidation.TIMESTAMP ≠ 0) ↔ header.timestamp.isSome := by
  unfold mirrorBits
  rcases header.timestamp with _ | _ <;> rcases header.platformId with _ | _ <;>
    rcases header.partitionId with _ | _ <;> simp only [Option.isSome] <;> decide

theorem mirror_bits_platform_id (header : CperHeader) :
    (header.mirrorBits &&& HeaderValidation.PLATFORM_ID ≠ 0) ↔ header.platformId.isSome := by
  unfold mirrorBits
  rcases header.timestamp with _ | _ <;> rcases header.platformId with _ | _ <;>
    rcases header.partitionId with _ | _ <;> simp only [Option.isSome] <;> decide

theorem mirror_bits_partition_id (header : CperHeader) :
    (header.mirrorBits &&& HeaderValidation.PARTITION_ID ≠ 0) ↔ header.partitionId.isSome := by
  unfold mirrorBits
  rcases header.timestamp with _ | _ <;> rcases header.platformId with _ | _ <;>
    rcases header.partitionId with _ | _ <;> simp only [Option.isSome] <;> decide

/-- A normalized header is read back field for field, whatever follows it. -/
theorem from_slice_to_bytes (header : CperHeader) (normalized : header.validationBits = header.mirrorBits)
    (rest : List Byte) : fromSlice (header.toBytes ++ rest) = some header := by
  have signatureEnd : ([0xFF, 0xFF, 0xFF, 0xFF] : List Byte) = bytesOfU32 0xFFFFFFFF := by decide
  unfold fromSlice toBytes
  rw [signatureEnd]
  simp only [List.append_assoc, List.prefix_append, not_true_eq_false, ne_self_iff_false,
    or_self, if_false, field_skip, readU16_skip, readU32_skip, readU64_skip, read_block_skip,
    readU16_head, readU32_head, readU64_head, read_block_head, field_head,
    CPER_SIGNATURE, List.length_cons, List.length_nil, Revision.to_bytes_length,
    bytes_of_u16_length, bytes_of_u32_length, bytes_of_u64_length, Timestamp.to_bytes_length,
    Block.size, Nat.reduceAdd, Nat.reduceSub, Nat.reduceLeDiff, le_refl,
    Option.bind_some, Option.bind_eq_bind, Revision.from_slice_to_bytes,
    Timestamp.from_slice_to_bytes, normalized, Severity.of_as_u32,
    read_optional (mirror_bits_timestamp header), read_optional (mirror_bits_platform_id header),
    read_optional (mirror_bits_partition_id header)]
  rw [← normalized]

end CperHeader

/-! ## Section descriptors -/

def SECTION_DESCRIPTOR_SIZE : Nat := 72

namespace DescriptorValidation

def FRU_ID : UInt8 := 1
def FRU_STRING : UInt8 := 2

end DescriptorValidation

structure CperSectionDescriptor where
  sectionOffset : UInt32 := 0
  sectionLength : UInt32 := 0
  revision : Revision := ⟨1, 0⟩
  validationBits : UInt8 := 0
  flags : UInt32 := 0
  sectionType : Guid := Guid.ZERO
  fruId : Option Guid := none
  sectionSeverity : SectionSeverity := .informational
  fruText : Option (Block 20) := none
  deriving DecidableEq, Repr

namespace CperSectionDescriptor

def fromSlice (s : List Byte) : Option CperSectionDescriptor := do
  let revision ← (field s 8 2).bind Revision.fromSlice
  let validationBits ← readU8 s 10
  let sectionOffset ← readU32 s 0
  let sectionLength ← readU32 s 4
  let flags ← readU32 s 12
  let sectionType ← readBlock 16 s 16
  let fruId ← (if validationBits &&& DescriptorValidation.FRU_ID ≠ 0 then
      (readBlock 16 s 32).map some
    else some none)
  let sectionSeverity ← readU32 s 48
  let fruText ← (if validationBits &&& DescriptorValidation.FRU_STRING ≠ 0 then
      (readBlock 20 s 52).map some
    else some none)
  some {
    sectionOffset, sectionLength, revision, validationBits, flags, sectionType, fruId
    sectionSeverity := Severity.ofU32 sectionSeverity, fruText }

def mirrorBits (descriptor : CperSectionDescriptor) : UInt8 :=
  (if descriptor.fruId.isSome then DescriptorValidation.FRU_ID else 0) |||
    (if descriptor.fruText.isSome then DescriptorValidation.FRU_STRING else 0)

def normalize (descriptor : CperSectionDescriptor) : CperSectionDescriptor :=
  { descriptor with validationBits := descriptor.mirrorBits }

def toBytes (descriptor : CperSectionDescriptor) : List Byte :=
  bytesOfU32 descriptor.sectionOffset ++ (bytesOfU32 descriptor.sectionLength ++
    (descriptor.revision.toBytes ++ ([descriptor.validationBits] ++ ([0] ++
    (bytesOfU32 descriptor.flags ++ (descriptor.sectionType.bytes ++
    ((descriptor.fruId.getD Guid.ZERO).bytes ++ (bytesOfU32 descriptor.sectionSeverity.asU32 ++
    (descriptor.fruText.getD (Block.zero 20)).bytes))))))))

theorem to_bytes_length (descriptor : CperSectionDescriptor) :
    descriptor.toBytes.length = SECTION_DESCRIPTOR_SIZE := by
  simp [toBytes, SECTION_DESCRIPTOR_SIZE, Block.size]

theorem mirror_bits_fru_id (descriptor : CperSectionDescriptor) :
    (descriptor.mirrorBits &&& DescriptorValidation.FRU_ID ≠ 0) ↔ descriptor.fruId.isSome := by
  unfold mirrorBits
  rcases descriptor.fruId with _ | _ <;> rcases descriptor.fruText with _ | _ <;>
    simp only [Option.isSome] <;> decide

theorem mirror_bits_fru_text (descriptor : CperSectionDescriptor) :
    (descriptor.mirrorBits &&& DescriptorValidation.FRU_STRING ≠ 0) ↔
      descriptor.fruText.isSome := by
  unfold mirrorBits
  rcases descriptor.fruId with _ | _ <;> rcases descriptor.fruText with _ | _ <;>
    simp only [Option.isSome] <;> decide

/-- A normalized descriptor is read back field for field, whatever follows it. -/
theorem from_slice_to_bytes (descriptor : CperSectionDescriptor)
    (normalized : descriptor.validationBits = descriptor.mirrorBits) (rest : List Byte) :
    fromSlice (descriptor.toBytes ++ rest) = some descriptor := by
  unfold fromSlice toBytes
  simp only [List.append_assoc, field_skip, readU8_skip, readU32_skip, read_block_skip,
    readU8_head, readU32_head, read_block_head, field_head,
    List.length_cons, List.length_nil, Revision.to_bytes_length, bytes_of_u32_length,
    Block.size, Nat.reduceAdd, Nat.reduceSub, Nat.reduceLeDiff, le_refl,
    Option.bind_some, Option.bind_eq_bind, Revision.from_slice_to_bytes,
    normalized, Severity.of_as_u32,
    read_optional (mirror_bits_fru_id descriptor), read_optional (mirror_bits_fru_text descriptor)]
  rw [← normalized]

end CperSectionDescriptor

end Crashlog
