import Crashlog.CperHeader
import Crashlog.Region

/-!
# CPER section bodies

A section body is either a Firmware Error Record, which may carry a Crash Log
region, or opaque bytes under their GUID. The parser and `len` size a Firmware
Error Record header by its revision, the encoder does not.
-/

namespace Crashlog

open Bytes

namespace Fer

def RECORD_ID_CRASHLOG : Guid :=
  ⟨[0x11, 0xf3, 0x87, 0x8f, 0x98, 0xc9, 0x9e, 0x4d, 0xa0, 0xc4, 0x60, 0x65, 0x51, 0x8c, 0x4f, 0x6d],
    rfl⟩

def HEADER_REV1_SIZE : Nat := 16
def HEADER_REV2_SIZE : Nat := 32

end Fer

structure FirmwareErrorRecordHeader where
  errorType : UInt8 := 0
  revision : UInt8 := 0
  recordIdentifier : UInt64 := 0
  guid : Guid := Guid.ZERO
  deriving DecidableEq, Repr

namespace FirmwareErrorRecordHeader

def fromSlice (s : List Byte) : Option FirmwareErrorRecordHeader := do
  let revision ← readU8 s 1
  let errorType ← readU8 s 0
  let recordIdentifier ← readU64 s 8
  let guid ← (if revision ≥ 2 then readBlock 16 s 16 else some Guid.ZERO)
  some { errorType, revision, recordIdentifier, guid }

/-- The GUID is always written, also for a revision whose header has none. -/
def toBytes (header : FirmwareErrorRecordHeader) : List Byte :=
  [header.errorType] ++ ([header.revision] ++ (List.replicate 6 0 ++
    (bytesOfU64 header.recordIdentifier ++ header.guid.bytes)))

def len (header : FirmwareErrorRecordHeader) : Nat :=
  if header.revision ≥ 2 then Fer.HEADER_REV2_SIZE else Fer.HEADER_REV1_SIZE

end FirmwareErrorRecordHeader

structure FirmwareErrorRecord where
  header : FirmwareErrorRecordHeader := {}
  payload : List Byte := []
  deriving DecidableEq, Repr

namespace FirmwareErrorRecord

def fromSlice (s : List Byte) : Option FirmwareErrorRecord := do
  let header ← FirmwareErrorRecordHeader.fromSlice s
  let payload ← sliceFrom s header.len
  some { header, payload }

def fromCrashlogRegion (region : Region) : FirmwareErrorRecord where
  header := { errorType := 2, revision := 2, guid := Fer.RECORD_ID_CRASHLOG }
  payload := region.toBytes

def toBytes (record : FirmwareErrorRecord) : List Byte := record.header.toBytes ++ record.payload

end FirmwareErrorRecord

def FW_ERROR_RECORD : Guid :=
  ⟨[0x96, 0x2a, 0x21, 0x81, 0xed, 0x09, 0x96, 0x49, 0x94, 0x71, 0x8d, 0x72, 0x9c, 0x8e, 0x69, 0xed],
    rfl⟩

inductive CperSectionBody where
  | firmwareErrorRecord (fer : FirmwareErrorRecord)
  | unknown (guid : Guid) (data : List Byte)
  deriving DecidableEq, Repr

namespace CperSectionBody

def fromSlice (guid : Guid) (s : List Byte) : Option CperSectionBody :=
  if guid = FW_ERROR_RECORD then (FirmwareErrorRecord.fromSlice s).map .firmwareErrorRecord
  else some (.unknown guid s)

def guid : CperSectionBody → Guid
  | firmwareErrorRecord _ => FW_ERROR_RECORD
  | unknown guid _ => guid

def len : CperSectionBody → Nat
  | firmwareErrorRecord fer => fer.header.len + fer.payload.length
  | unknown _ data => data.length

/-- The source asserts in debug builds that the result has length `len`. -/
def toBytes : CperSectionBody → List Byte
  | firmwareErrorRecord fer => fer.toBytes
  | unknown _ data => data

end CperSectionBody

structure CperSection where
  descriptor : CperSectionDescriptor
  body : CperSectionBody
  deriving DecidableEq, Repr

namespace CperSection

def fromBody (body : CperSectionBody) : CperSection where
  descriptor := { sectionType := body.guid, sectionLength := UInt32.ofNat body.len }
  body := body

def fromCrashlogRegion (region : Region) : CperSection :=
  fromBody (.firmwareErrorRecord (FirmwareErrorRecord.fromCrashlogRegion region))

/-- The body cut or filled to the length its descriptor announces. -/
def bodyBytes (self : CperSection) : List Byte :=
  resize self.body.toBytes self.descriptor.sectionLength.toNat

end CperSection

/-- The region carried by a section, if it is a Crash Log that can be parsed. -/
def Region.fromCperSection : CperSectionBody → Option Region
  | .firmwareErrorRecord fer =>
      if fer.header.guid = Fer.RECORD_ID_CRASHLOG then (Region.fromSlice fer.payload).toOption
      else none
  | .unknown _ _ => none

/-! ## Encoding and parsing again -/

namespace FirmwareErrorRecordHeader

@[simp] theorem to_bytes_length (header : FirmwareErrorRecordHeader) : header.toBytes.length = 32 := by
  simp [toBytes, header.guid.size]

/-- Whatever the revision says, the encoded fields are at their offsets. -/
theorem from_slice_to_bytes (header : FirmwareErrorRecordHeader) (payload : List Byte) :
    fromSlice (header.toBytes ++ payload) =
      some { header with guid := if header.revision ≥ 2 then header.guid else Guid.ZERO } := by
  unfold fromSlice toBytes
  simp only [List.append_assoc]
  rw [readU8_skip (by simp), readU8_head]
  rw [readU64_skip (by simp), readU64_skip (by simp), readU64_skip (by simp)]
  rw [read_block_skip _ (by simp), read_block_skip _ (by simp), read_block_skip _ (by simp),
    read_block_skip _ (by simp)]
  simp only [List.length_cons, List.length_nil, List.length_replicate, bytes_of_u64_length,
    Nat.reduceAdd, Nat.reduceSub, readU8_head, readU64_head, read_block_head, Option.bind_eq_bind,
    Option.bind_some]
  split_ifs <;> rfl

theorem from_slice_parts {s : List Byte} {header : FirmwareErrorRecordHeader}
    (parsed : fromSlice s = some header) :
    readU8 s 1 = some header.revision ∧ (¬ header.revision ≥ 2 → header.guid = Guid.ZERO) := by
  simp only [fromSlice, Option.bind_eq_bind, Option.bind_eq_some_iff, Option.some.injEq] at parsed
  obtain ⟨revision, read, _, _, _, _, guid, stored, rfl⟩ := parsed
  refine ⟨read, fun old => ?_⟩
  rw [if_neg old] at stored
  exact (Option.some.inj stored).symm

theorem len_ge_sixteen (header : FirmwareErrorRecordHeader) : 16 ≤ header.len := by
  unfold len
  split_ifs <;> decide

end FirmwareErrorRecordHeader

namespace FirmwareErrorRecord

variable {s : List Byte} {fer : FirmwareErrorRecord}

theorem from_slice_eq_some_iff :
    fromSlice s = some fer ↔ FirmwareErrorRecordHeader.fromSlice s = some fer.header ∧
      fer.header.len ≤ s.length ∧ fer.payload = s.drop fer.header.len := by
  simp only [fromSlice, Option.bind_eq_bind, Option.bind_eq_some_iff, Option.some.injEq,
    slice_from_eq_some_iff]
  constructor
  · rintro ⟨header, parsed, payload, cut, rfl⟩
    exact ⟨parsed, cut⟩
  · rintro ⟨parsed, cut⟩
    exact ⟨fer.header, parsed, fer.payload, cut, rfl⟩

theorem to_bytes_length (fer : FirmwareErrorRecord) : fer.toBytes.length = 32 + fer.payload.length := by
  simp [toBytes]

/-- A record whose header carries a GUID is read back from its own bytes. -/
theorem from_slice_to_bytes (fer : FirmwareErrorRecord) (recent : fer.header.revision ≥ 2) :
    fromSlice fer.toBytes = some fer := by
  have size : fer.header.len = 32 := by simp [FirmwareErrorRecordHeader.len, recent, Fer.HEADER_REV2_SIZE]
  rw [from_slice_eq_some_iff, toBytes, FirmwareErrorRecordHeader.from_slice_to_bytes, if_pos recent, size]
  refine ⟨rfl, by simp, ?_⟩
  rw [List.drop_append_of_le_length (by simp), List.drop_eq_nil_of_le (by simp), List.nil_append]

end FirmwareErrorRecord

/-! ## Section bodies -/

namespace CperSectionBody

variable {guid : Guid} {s : List Byte} {body : CperSectionBody}

theorem len_eq_of_from_slice (parsed : fromSlice guid s = some body) : body.len = s.length := by
  unfold fromSlice at parsed
  split_ifs at parsed with isFer
  · obtain ⟨fer, ferParsed, rfl⟩ := Option.map_eq_some_iff.mp parsed
    obtain ⟨_, inside, payload⟩ := FirmwareErrorRecord.from_slice_eq_some_iff.mp ferParsed
    simp only [len, payload, List.length_drop]
    omega
  · cases parsed
    rfl

/-- The encoder and `len` agree on every body but an old Firmware Error Record. -/
def EncodedAsSized : CperSectionBody → Prop
  | firmwareErrorRecord fer => fer.header.revision ≥ 2
  | unknown _ _ => True

instance EncodedAsSized.decidable : (body : CperSectionBody) → Decidable body.EncodedAsSized
  | firmwareErrorRecord fer => inferInstanceAs (Decidable (fer.header.revision ≥ 2))
  | unknown _ _ => .isTrue trivial

theorem to_bytes_length_iff (body : CperSectionBody) :
    body.toBytes.length = body.len ↔ body.EncodedAsSized := by
  cases body with
  | unknown guid data => simp [toBytes, len, EncodedAsSized]
  | firmwareErrorRecord fer =>
      simp only [toBytes, len, EncodedAsSized, FirmwareErrorRecord.to_bytes_length,
        FirmwareErrorRecordHeader.len, Fer.HEADER_REV2_SIZE, Fer.HEADER_REV1_SIZE]
      split_ifs with recent
      · simp [recent]
      · simp only [recent, iff_false]
        omega

theorem encoded_as_sized_iff (parsed : fromSlice guid s = some body) :
    body.EncodedAsSized ↔
      guid ≠ FW_ERROR_RECORD ∨ ∃ revision, s[1]? = some revision ∧ revision ≥ 2 := by
  unfold fromSlice at parsed
  split_ifs at parsed with isFer
  · obtain ⟨fer, ferParsed, rfl⟩ := Option.map_eq_some_iff.mp parsed
    obtain ⟨headerParsed, _, _⟩ := FirmwareErrorRecord.from_slice_eq_some_iff.mp ferParsed
    have revisionRead : s[1]? = some fer.header.revision :=
      (FirmwareErrorRecordHeader.from_slice_parts headerParsed).1
    simp [EncodedAsSized, isFer, revisionRead]
  · cases parsed
    simp [EncodedAsSized, isFer]

theorem recent_record_from_slice {fer : FirmwareErrorRecord} (recent : fer.header.revision ≥ 2) :
    fromSlice FW_ERROR_RECORD (firmwareErrorRecord fer).toBytes = some (.firmwareErrorRecord fer) := by
  rw [fromSlice, if_pos rfl, toBytes, FirmwareErrorRecord.from_slice_to_bytes fer recent, Option.map_some]

theorem from_slice_to_bytes (parsed : fromSlice guid s = some body) (sized : body.EncodedAsSized) :
    fromSlice guid body.toBytes = some body := by
  have given := parsed
  unfold fromSlice at parsed
  split_ifs at parsed with isFer
  · obtain ⟨fer, _, rfl⟩ := Option.map_eq_some_iff.mp parsed
    rw [isFer]
    exact recent_record_from_slice sized
  · cases parsed
    exact given

/-- What a section body owes to the bytes it was parsed from: its length, the
assertion of its encoder, its own parser, and the container that exports it. -/
structure RoundTrips (guid : Guid) (s : List Byte) (body : CperSectionBody) : Prop where
  len_eq : body.len = s.length
  asserted : body.toBytes.length = body.len
  parsed : fromSlice guid body.toBytes = some body
  exported : (CperSection.fromBody body).bodyBytes = body.toBytes

/-- A body parsed from a slice makes the round trip exactly when it is not a
Firmware Error Record of revision zero or one, whose header is encoded with a
GUID that `len` does not count, and its length fits the descriptor field. -/
theorem section_body_round_trips_iff (parsed : fromSlice guid s = some body) :
    RoundTrips guid s body ↔
      (guid ≠ FW_ERROR_RECORD ∨ ∃ revision, s[1]? = some revision ∧ revision ≥ 2) ∧
        s.length < 2 ^ 32 := by
  rw [← encoded_as_sized_iff parsed, ← len_eq_of_from_slice parsed]
  have announced : (CperSection.fromBody body).bodyBytes = body.toBytes ↔
      body.len % 2 ^ 32 = body.toBytes.length := by
    change resize body.toBytes (UInt32.ofNat body.len).toNat = body.toBytes ↔ _
    rw [resize_eq_self_iff, UInt32.toNat_ofNat']
  constructor
  · intro trip
    have sized := (to_bytes_length_iff body).mp trip.asserted
    have fits := announced.mp trip.exported
    rw [trip.asserted] at fits
    exact ⟨sized, by omega⟩
  · rintro ⟨sized, fits⟩
    have asserted := (to_bytes_length_iff body).mpr sized
    refine ⟨len_eq_of_from_slice parsed, asserted, from_slice_to_bytes parsed sized, ?_⟩
    rw [announced, asserted]
    omega

theorem recent_section_body_round_trips :
    RoundTrips FW_ERROR_RECORD ([2, 2] ++ List.replicate 30 0 ++ [0xaa])
      (.firmwareErrorRecord {
        header := { errorType := 2, revision := 2 }
        payload := [0xaa] }) :=
  (section_body_round_trips_iff (by decide +kernel)).mpr (by decide +kernel)

/-- Revision one: sixteen bytes are parsed, thirty-two are written. -/
theorem old_section_body_does_not_round_trip :
    ¬ ∀ (guid : Guid) (s : List Byte) (body : CperSectionBody), fromSlice guid s = some body →
      RoundTrips guid s body := by
  intro trips
  have parsed : fromSlice FW_ERROR_RECORD ([2, 1] ++ List.replicate 14 0) =
      some (.firmwareErrorRecord { header := { errorType := 2, revision := 1 } }) := by
    decide +kernel
  have asserted := (trips _ _ _ parsed).asserted
  revert asserted
  decide +kernel

end CperSectionBody

end Crashlog
