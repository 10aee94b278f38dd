import Crashlog.Bytes
import Crashlog.Error

/-!
# Record headers

Every record starts with a version dword, a size field and optional fields
whose layout the header type selects. Some server products reuse header type
zero for a legacy layout, and some core records count their size in bytes:
the errata derived from the version decide. `Header.from_slice_own_bytes`
is the interface of this module: a header depends on exactly the
`headerSize` bytes it occupies.
-/

namespace Crashlog

open Bytes

namespace RecordTypes

def PMC : UInt8 := 0x1
def PMC_FW_TRACE : UInt8 := 0x2
def PUNIT : UInt8 := 0x3
def PCORE : UInt8 := 0x4
def ECORE : UInt8 := 0x6
def UNCORE : UInt8 := 0x8
def PMC_TRACE : UInt8 := 0x11
def TCSS : UInt8 := 0x16
def PMC_RST : UInt8 := 0x17
def PCODE : UInt8 := 0x19
def CRASHLOG_AGENT : UInt8 := 0x1C
def BOX : UInt8 := 0x3D
def MCA : UInt8 := 0x3E

end RecordTypes

/-! ## Version and errata -/

namespace Version

/-- Too few bytes and the two termination markers give no version. -/
def fromSlice (slice : List Byte) : Option Version := do
  let version ← readU32 slice 0
  if version = 0 ∨ version = 0xdeadbeef then none
  else some {
    cldic := (version >>> 30) &&& 1 == 1
    consumed := (version >>> 31) &&& 1 == 1
    revision := version &&& 0xFF
    headerType := ((version >>> 8) &&& 0xF).toUInt16
    productId := (version >>> 12) &&& 0xFFF
    recordType := ((version >>> 24) &&& 0x3F).toUInt8 }

def asU32 (version : Version) : UInt32 :=
  (version.consumed.toUInt32 <<< 31) |||
    (version.cldic.toUInt32 <<< 30) |||
    (version.recordType.toUInt32 <<< 24) |||
    (version.productId <<< 12) |||
    (version.headerType.toUInt32 <<< 8) |||
    version.revision

def recordTypeAsStr (version : Version) : Except Error String :=
  if version.recordType = RecordTypes.PMC then .ok "PMC"
  else if version.recordType = RecordTypes.PMC_FW_TRACE then .ok "PMC_FW_Trace"
  else if version.recordType = RecordTypes.PUNIT then .ok "Punit"
  else if version.recordType = RecordTypes.PCORE then .ok "PCORE"
  else if version.recordType = RecordTypes.ECORE then .ok "ECORE"
  else if version.recordType = RecordTypes.UNCORE then .ok "UNCORE"
  else if version.recordType = RecordTypes.PMC_TRACE then .ok "PMC_TRACE"
  else if version.recordType = RecordTypes.TCSS then .ok "TCSS"
  else if version.recordType = RecordTypes.PMC_RST then .ok "PMC_RST"
  else if version.recordType = RecordTypes.PCODE then .ok "PCODE"
  else if version.recordType = RecordTypes.CRASHLOG_AGENT then .ok "CRASHLOG_AGENT"
  else if version.recordType = RecordTypes.BOX then .ok "BOX"
  else if version.recordType = RecordTypes.MCA then .ok "MCA"
  else .error (.invalidRecordType version.recordType)

end Version

structure Errata where
  type0LegacyServer : Bool
  type0LegacyServerBox : Bool
  coreRecordSizeBytes : Bool
  deriving DecidableEq, Repr

namespace Errata

def GNR_SP_PRODUCT_ID : UInt32 := 0x2f
def SRF_SP_PRODUCT_ID : UInt32 := 0x82
def CGC_PRODUCT_ID : UInt32 := 0x85
def CWF_SP_PRODUCT_ID : UInt32 := 0x8e

def SERVER_LEGACY_PRODUCT_IDS : List UInt32 :=
  [GNR_SP_PRODUCT_ID, SRF_SP_PRODUCT_ID, CWF_SP_PRODUCT_ID]

def fromVersion (version : Version) : Errata :=
  let type0LegacyServer :=
    decide (version.headerType = 0) && SERVER_LEGACY_PRODUCT_IDS.contains version.productId
  let type0LegacyServerBox :=
    type0LegacyServer && decide (version.recordType = RecordTypes.PCORE)
  let ecoreRecordWithSizeInBytes :=
    decide (version.recordType = RecordTypes.ECORE) && decide (version.productId < 0x96)
  let pcoreRecordWithSizeInBytes :=
    decide (version.recordType = RecordTypes.PCORE) &&
      (decide (version.productId < 0x71) || decide (version.productId = CGC_PRODUCT_ID))
  { type0LegacyServer
    type0LegacyServerBox
    coreRecordSizeBytes :=
      !type0LegacyServer && (ecoreRecordWithSizeInBytes || pcoreRecordWithSizeInBytes) }

end Errata

def Version.errata (version : Version) : Errata := Errata.fromVersion version

/-! ## Record size -/

structure RecordSize where
  recordSize : UInt16 := 0
  extendedRecordSize : UInt16 := 0
  deriving DecidableEq, Repr

namespace RecordSize

def fromSlice (slice : List Byte) : Option RecordSize := do
  let recordSize ← readU16 slice 4
  let extendedRecordSize ← readU16 slice 6
  some { recordSize, extendedRecordSize }

def fromSliceType0LegacyServer (slice : List Byte) : Option RecordSize := do
  let recordSize ← readU16 slice 16
  some { recordSize, extendedRecordSize := 0 }

end RecordSize

/-! ## Optional header fields -/

inductive HeaderType where
  | type0
  | type1
  | type2 (timestamp : UInt64) (agentVersion reason : UInt32)
  | type3 (timestamp : UInt64) (agentVersion reason completionStatus : UInt32)
      (collectionComplete : Bool)
  | type4 (timestamp : UInt64) (agentVersion reason whoami misc : UInt32)
  | type5 (timestamp : UInt64) (agentVersion reason completionStatus : UInt32)
      (collectionComplete : Bool) (errorStatus : UInt32)
  | type6 (timestamp : UInt64) (agentVersion reason : UInt32) (dieId socketId : UInt8)
      (completionStatusSize : UInt16) (completionStatus : List UInt32)
      (collectionComplete : Bool)
  | type0LegacyServer (timestamp : UInt64) (agentVersion reason : UInt32)
      (dieId socketId : UInt8) (completionStatus : UInt32) (collectionComplete : Bool)
  deriving DecidableEq, Repr

namespace HeaderType

def type2FromSlice (slice : List Byte) : Option HeaderType := do
  let timestamp ← readU64 slice 8
  let agentVersion ← readU32 slice 16
  let reason ← readU32 slice 20
  some (.type2 timestamp agentVersion reason)

def type3FromSlice (slice : List Byte) : Option HeaderType := do
  let timestamp ← readU64 slice 8
  let agentVersion ← readU32 slice 16
  let reason ← readU32 slice 20
  let csData ← readU32 slice 24
  some (.type3 timestamp agentVersion reason (csData &&& 0x7FFFFFFF) (csData >>> 31 != 0))

def type4FromSlice (slice : List Byte) : Option HeaderType := do
  let timestamp ← readU64 slice 8
  let agentVersion ← readU32 slice 16
  let reason ← readU32 slice 20
  let whoami ← readU32 slice 24
  let misc ← readU32 slice 28
  some (.type4 timestamp agentVersion reason whoami misc)

def type5FromSlice (slice : List Byte) : Option HeaderType := do
  let timestamp ← readU64 slice 8
  let agentVersion ← readU32 slice 16
  let reason ← readU32 slice 20
  let csData ← readU32 slice 24
  let errorStatus ← readU32 slice 28
  some (.type5 timestamp agentVersion reason (csData &&& 0x7FFFFFFF) (csData >>> 31 != 0)
    errorStatus)

/-- The completion status words follow the fixed fields; the low seven bits of
the size word count them. -/
def type6FromSlice (slice : List Byte) : Option HeaderType := do
  let timestamp ← readU64 slice 8
  let agentVersion ← readU32 slice 16
  let reason ← readU32 slice 20
  let dieId ← readU8 slice 24
  let socketId ← readU8 slice 25
  let sizeWord ← readU16 slice 26
  let flags ← readU8 slice 27
  let completionStatusSize := sizeWord &&& 0x7F
  let completionStatus ← readU32s slice 28 completionStatusSize.toNat
  some (.type6 timestamp agentVersion reason dieId socketId completionStatusSize
    completionStatus (flags &&& 0x80 != 0))

def type0LegacyServerFromSlice (slice : List Byte) : Option HeaderType := do
  let reason ← readU32 slice 4
  let timestamp ← readU64 slice 8
  let agentVersion ← readU32 slice 20
  let socketId ← readU8 slice 24
  let csData ← readU32 slice 28
  let revision ← readU8 slice 0
  let dieIdx := revision &&& 0x3
  let dieId := if (revision >>> 7) &&& 1 = 1 then dieIdx + 9 else dieIdx <<< 2
  some (.type0LegacyServer timestamp agentVersion reason dieId socketId
    (csData &&& 0x7FFFFFFF) (csData >>> 31 != 0))

def fromSlice (headerTypeValue : UInt16) (slice : List Byte) : Except Error HeaderType :=
  match headerTypeValue.toNat with
  | 0 => .ok .type0
  | 1 => .ok .type1
  | 2 => okOr (type2FromSlice slice) .invalidHeader
  | 3 => okOr (type3FromSlice slice) .invalidHeader
  | 4 => okOr (type4FromSlice slice) .invalidHeader
  | 5 => okOr (type5FromSlice slice) .invalidHeader
  | 6 => okOr (type6FromSlice slice) .invalidHeader
  | _ => .error (.invalidHeaderType headerTypeValue)

def fromSliceType0LegacyServer (slice : List Byte) : Except Error HeaderType :=
  okOr (type0LegacyServerFromSlice slice) .invalidHeader

/-- Size in bytes of a header with these optional fields. -/
def size : HeaderType → Nat
  | type0 | type1 => 8
  | type2 .. => 24
  | type3 .. => 28
  | type4 .. => 32
  | type5 .. => 32
  | type6 _ _ _ _ _ completionStatusSize _ _ => 28 + completionStatusSize.toNat * 4
  | type0LegacyServer .. => 32

end HeaderType

/-! ## Header -/

structure Header where
  version : Version := {}
  size : RecordSize := {}
  headerType : HeaderType := .type1
  deriving DecidableEq, Repr

namespace Header

def fromSlice (slice : List Byte) : Except Error (Option Header) :=
  match Version.fromSlice slice with
  | none => .ok none
  | some version => do
      let errata := Errata.fromVersion version
      let size ← (if errata.type0LegacyServer then
          okOr (RecordSize.fromSliceType0LegacyServer slice) .invalidHeader
        else okOr (RecordSize.fromSlice slice) .invalidHeader)
      let headerType ← (if errata.type0LegacyServer then
          HeaderType.fromSliceType0LegacyServer slice
        else HeaderType.fromSlice version.headerType slice)
      .ok (some { version, size, headerType })

def recordSizeGranularity (header : Header) : Nat :=
  if header.version.errata.coreRecordSizeBytes then 1 else 4

def recordSize (header : Header) : Nat :=
  (header.size.recordSize.toNat + header.size.extendedRecordSize.toNat) *
    header.recordSizeGranularity

def headerSize (header : Header) : Nat := header.headerType.size

def recordType (header : Header) : Except Error String := header.version.recordTypeAsStr

def productId (header : Header) : UInt32 := header.version.productId

end Header

/-! ## A header depends on exactly its own bytes

Every parser below reads at fixed offsets, so two slices with the same prefix
give the same result as soon as the prefix covers the last offset. -/

section Locality

variable {left right : List Byte}

theorem version_from_slice_congr (agree : SamePrefix 4 left right) :
    Version.fromSlice left = Version.fromSlice right := by
  simp only [Version.fromSlice, agree.readU32_eq 0 (by omega)]

theorem record_size_from_slice_congr (agree : SamePrefix 8 left right) :
    RecordSize.fromSlice left = RecordSize.fromSlice right := by
  simp only [RecordSize.fromSlice, agree.readU16_eq 4 (by omega),
    agree.readU16_eq 6 (by omega)]

theorem legacy_record_size_congr (agree : SamePrefix 18 left right) :
    RecordSize.fromSliceType0LegacyServer left =
      RecordSize.fromSliceType0LegacyServer right := by
  simp only [RecordSize.fromSliceType0LegacyServer, agree.readU16_eq 16 (by omega)]

namespace HeaderType

theorem type2_from_slice_congr (agree : SamePrefix 24 left right) :
    type2FromSlice left = type2FromSlice right := by
  simp only [type2FromSlice, agree.readU64_eq 8 (by omega),
    agree.readU32_eq 16 (by omega), agree.readU32_eq 20 (by omega)]

theorem type3_from_slice_congr (agree : SamePrefix 28 left right) :
    type3FromSlice left = type3FromSlice right := by
  simp only [type3FromSlice, agree.readU64_eq 8 (by omega),
    agree.readU32_eq 16 (by omega), agree.readU32_eq 20 (by omega),
    agree.readU32_eq 24 (by omega)]

theorem type4_from_slice_congr (agree : SamePrefix 32 left right) :
    type4FromSlice left = type4FromSlice right := by
  simp only [type4FromSlice, agree.readU64_eq 8 (by omega),
    agree.readU32_eq 16 (by omega), agree.readU32_eq 20 (by omega),
    agree.readU32_eq 24 (by omega), agree.readU32_eq 28 (by omega)]

theorem type5_from_slice_congr (agree : SamePrefix 32 left right) :
    type5FromSlice left = type5FromSlice right := by
  simp only [type5FromSlice, agree.readU64_eq 8 (by omega),
    agree.readU32_eq 16 (by omega), agree.readU32_eq 20 (by omega),
    agree.readU32_eq 24 (by omega), agree.readU32_eq 28 (by omega)]

/-- The length of a type 6 header is known once its size word was read. -/
theorem type6_from_slice_congr {completionStatusSize : UInt16}
    (sizeRead : (readU16 left 26).map (· &&& 0x7F) = some completionStatusSize)
    (agree : SamePrefix (28 + completionStatusSize.toNat * 4) left right) :
    type6FromSlice left = type6FromSlice right := by
  obtain ⟨sizeWord, wordRead, masked⟩ := Option.map_eq_some_iff.mp sizeRead
  have wordReadRight : readU16 right 26 = some sizeWord := by
    rw [← agree.readU16_eq 26 (by omega)]
    exact wordRead
  have words : readU32s left 28 (sizeWord &&& 0x7F).toNat =
      readU32s right 28 (sizeWord &&& 0x7F).toNat := by
    rw [masked]
    exact agree.readU32s_eq (by omega)
  simp only [type6FromSlice, wordRead, wordReadRight, Option.bind_eq_bind, Option.bind_some, words,
    agree.readU64_eq 8 (by omega), agree.readU32_eq 16 (by omega),
    agree.readU32_eq 20 (by omega), agree.readU8_eq 24 (by omega),
    agree.readU8_eq 25 (by omega), agree.readU8_eq 27 (by omega)]

theorem legacy_from_slice_congr (agree : SamePrefix 32 left right) :
    type0LegacyServerFromSlice left = type0LegacyServerFromSlice right := by
  simp only [type0LegacyServerFromSlice, agree.readU32_eq 4 (by omega),
    agree.readU64_eq 8 (by omega), agree.readU32_eq 20 (by omega),
    agree.readU8_eq 24 (by omega), agree.readU32_eq 28 (by omega),
    agree.readU8_eq 0 (by omega)]

end HeaderType

end Locality

section OwnBytes

variable {slice : List Byte}

namespace HeaderType

theorem type2_from_slice_size {headerType : HeaderType} (parsed : type2FromSlice slice = some headerType) :
    headerType.size = 24 ∧ 24 ≤ slice.length := by
  simp only [type2FromSlice, Option.bind_eq_bind, Option.bind_eq_some_iff, Option.some.injEq] at parsed
  obtain ⟨timestamp, _, agentVersion, _, reason, last, rfl⟩ := parsed
  exact ⟨rfl, readU32_bound last⟩

theorem type3_from_slice_size {headerType : HeaderType} (parsed : type3FromSlice slice = some headerType) :
    headerType.size = 28 ∧ 28 ≤ slice.length := by
  simp only [type3FromSlice, Option.bind_eq_bind, Option.bind_eq_some_iff, Option.some.injEq] at parsed
  obtain ⟨timestamp, _, agentVersion, _, reason, _, csData, last, rfl⟩ := parsed
  exact ⟨rfl, readU32_bound last⟩

theorem type4_from_slice_size {headerType : HeaderType} (parsed : type4FromSlice slice = some headerType) :
    headerType.size = 32 ∧ 32 ≤ slice.length := by
  simp only [type4FromSlice, Option.bind_eq_bind, Option.bind_eq_some_iff, Option.some.injEq] at parsed
  obtain ⟨timestamp, _, agentVersion, _, reason, _, whoami, _, misc, last, rfl⟩ := parsed
  exact ⟨rfl, readU32_bound last⟩

theorem type5_from_slice_size {headerType : HeaderType} (parsed : type5FromSlice slice = some headerType) :
    headerType.size = 32 ∧ 32 ≤ slice.length := by
  simp only [type5FromSlice, Option.bind_eq_bind, Option.bind_eq_some_iff, Option.some.injEq] at parsed
  obtain ⟨timestamp, _, agentVersion, _, reason, _, csData, _, errorStatus, last, rfl⟩ := parsed
  exact ⟨rfl, readU32_bound last⟩

theorem type6_from_slice_size {headerType : HeaderType} (parsed : type6FromSlice slice = some headerType) :
    ∃ completionStatusSize : UInt16,
      (readU16 slice 26).map (· &&& 0x7F) = some completionStatusSize ∧
        headerType.size = 28 + completionStatusSize.toNat * 4 ∧
        28 + completionStatusSize.toNat * 4 ≤ slice.length := by
  simp only [type6FromSlice, Option.bind_eq_bind, Option.bind_eq_some_iff, Option.some.injEq] at parsed
  obtain ⟨timestamp, _, agentVersion, _, reason, _, dieId, _, socketId, _, sizeWord, wordRead,
    flags, flagsRead, words, wordsRead, rfl⟩ := parsed
  refine ⟨sizeWord &&& 0x7F, by rw [wordRead]; rfl, rfl, ?_⟩
  cases count : (sizeWord &&& 0x7F).toNat with
  | zero => simpa using readU8_bound flagsRead
  | succ words =>
      rw [count] at wordsRead
      exact readU32s_bound wordsRead

theorem legacy_from_slice_size {headerType : HeaderType}
    (parsed : type0LegacyServerFromSlice slice = some headerType) :
    headerType.size = 32 ∧ 32 ≤ slice.length := by
  simp only [type0LegacyServerFromSlice, Option.bind_eq_bind, Option.bind_eq_some_iff,
    Option.some.injEq] at parsed
  obtain ⟨reason, _, timestamp, _, agentVersion, _, socketId, _, csData, last, revision, _, rfl⟩ := parsed
  exact ⟨rfl, readU32_bound last⟩

/-- A parser of optional fields that depends on exactly the bytes of the header it returns. -/
structure OwnBytes (parse : List Byte → Option HeaderType) : Prop where
  inside : ∀ {slice headerType}, parse slice = some headerType → headerType.size ≤ slice.length
  again : ∀ {slice headerType other}, parse slice = some headerType →
    SamePrefix headerType.size slice other → parse other = some headerType

/-- The fields end at a fixed offset. -/
theorem OwnBytes.fixed {parse : List Byte → Option HeaderType} {width : Nat}
    (size : ∀ {slice headerType}, parse slice = some headerType →
      headerType.size = width ∧ width ≤ slice.length)
    (congr : ∀ {left right}, SamePrefix width left right → parse left = parse right) : OwnBytes parse where
  inside parsed := (size parsed).1.trans_le (size parsed).2
  again parsed agree := by
    rw [(size parsed).1] at agree
    rw [← congr agree, parsed]

theorem type2_own_bytes : OwnBytes type2FromSlice := .fixed type2_from_slice_size type2_from_slice_congr

theorem type3_own_bytes : OwnBytes type3FromSlice := .fixed type3_from_slice_size type3_from_slice_congr

theorem type4_own_bytes : OwnBytes type4FromSlice := .fixed type4_from_slice_size type4_from_slice_congr

theorem type5_own_bytes : OwnBytes type5FromSlice := .fixed type5_from_slice_size type5_from_slice_congr

theorem legacy_own_bytes : OwnBytes type0LegacyServerFromSlice :=
  .fixed legacy_from_slice_size legacy_from_slice_congr

theorem type6_own_bytes : OwnBytes type6FromSlice where
  inside parsed := by
    obtain ⟨count, _, sizes⟩ := type6_from_slice_size parsed
    omega
  again parsed agree := by
    obtain ⟨count, sizeRead, sizes⟩ := type6_from_slice_size parsed
    rw [sizes.1] at agree
    rw [← type6_from_slice_congr sizeRead agree, parsed]

/-- The fields of a header that was read from at least eight bytes lie inside them. -/
theorem from_slice_size {headerTypeValue : UInt16} {headerType : HeaderType}
    (parsed : fromSlice headerTypeValue slice = .ok headerType) (dwords : 8 ≤ slice.length) :
    headerType.size ≤ slice.length := by
  unfold fromSlice at parsed
  split at parsed
  · cases parsed; exact dwords
  · cases parsed; exact dwords
  · exact type2_own_bytes.inside (ok_or_eq_ok.mp parsed)
  · exact type3_own_bytes.inside (ok_or_eq_ok.mp parsed)
  · exact type4_own_bytes.inside (ok_or_eq_ok.mp parsed)
  · exact type5_own_bytes.inside (ok_or_eq_ok.mp parsed)
  · exact type6_own_bytes.inside (ok_or_eq_ok.mp parsed)
  · cases parsed

theorem from_slice_own_bytes {headerTypeValue : UInt16} {headerType : HeaderType} {other : List Byte}
    (parsed : fromSlice headerTypeValue slice = .ok headerType)
    (agree : SamePrefix headerType.size slice other) :
    fromSlice headerTypeValue other = .ok headerType := by
  unfold fromSlice at parsed ⊢
  split at parsed
  · exact parsed
  · exact parsed
  · exact ok_or_eq_ok.mpr (type2_own_bytes.again (ok_or_eq_ok.mp parsed) agree)
  · exact ok_or_eq_ok.mpr (type3_own_bytes.again (ok_or_eq_ok.mp parsed) agree)
  · exact ok_or_eq_ok.mpr (type4_own_bytes.again (ok_or_eq_ok.mp parsed) agree)
  · exact ok_or_eq_ok.mpr (type5_own_bytes.again (ok_or_eq_ok.mp parsed) agree)
  · exact ok_or_eq_ok.mpr (type6_own_bytes.again (ok_or_eq_ok.mp parsed) agree)
  · exact parsed

theorem size_ge (headerType : HeaderType) : 8 ≤ headerType.size := by
  cases headerType <;> simp only [size] <;> omega

end HeaderType

namespace Header

variable {header : Header}

/-- What a successful parse read, part by part. -/
theorem from_slice_eq_some_iff :
    fromSlice slice = .ok (some header) ↔
      Version.fromSlice slice = some header.version ∧
        (if header.version.errata.type0LegacyServer then
            RecordSize.fromSliceType0LegacyServer slice = some header.size ∧
              HeaderType.fromSliceType0LegacyServer slice = .ok header.headerType
          else
            RecordSize.fromSlice slice = some header.size ∧
              HeaderType.fromSlice header.version.headerType slice = .ok header.headerType) := by
  constructor
  · intro parsed
    unfold fromSlice at parsed
    split at parsed
    · cases parsed
    · rename_i version versionRead
      obtain ⟨size, sizeRead, parsed⟩ := except_bind_eq_ok.mp parsed
      obtain ⟨headerType, typeRead, built⟩ := except_bind_eq_ok.mp parsed
      cases built
      refine ⟨versionRead, ?_⟩
      change if (Errata.fromVersion version).type0LegacyServer then _ else _
      by_cases legacy : (Errata.fromVersion version).type0LegacyServer = true
      · rw [if_pos legacy] at sizeRead typeRead ⊢
        exact ⟨ok_or_eq_ok.mp sizeRead, typeRead⟩
      · rw [if_neg legacy] at sizeRead typeRead ⊢
        exact ⟨ok_or_eq_ok.mp sizeRead, typeRead⟩
  · rintro ⟨versionRead, parts⟩
    unfold fromSlice
    rw [versionRead]
    change if (Errata.fromVersion header.version).type0LegacyServer then _ else _ at parts
    by_cases legacy : (Errata.fromVersion header.version).type0LegacyServer = true
    · rw [if_pos legacy] at parts
      simp only [legacy, if_true, ok_or_eq_ok.mpr parts.1, parts.2, Bind.bind, Except.bind]
    · rw [if_neg legacy] at parts
      simp only [legacy, ok_or_eq_ok.mpr parts.1, parts.2, Bind.bind, Except.bind]
      rfl

theorem size_ge (header : Header) : 8 ≤ header.headerSize := header.headerType.size_ge

theorem from_slice_size (parsed : fromSlice slice = .ok (some header)) :
    header.headerSize ≤ slice.length := by
  obtain ⟨_, parts⟩ := from_slice_eq_some_iff.mp parsed
  split_ifs at parts with legacy
  · exact HeaderType.legacy_own_bytes.inside (ok_or_eq_ok.mp parts.2)
  · refine HeaderType.from_slice_size parts.2 ?_
    simp only [RecordSize.fromSlice, Option.bind_eq_bind, Option.bind_eq_some_iff] at parts
    obtain ⟨⟨_, _, _, last, _⟩, _⟩ := parts
    exact readU16_bound last

/-- A header is decided by the `headerSize` bytes it occupies: any slice that
begins with the same bytes gives the same header. -/
theorem from_slice_own_bytes {other : List Byte} (parsed : fromSlice slice = .ok (some header))
    (agree : SamePrefix header.headerSize slice other) :
    fromSlice other = .ok (some header) := by
  have least := header.size_ge
  obtain ⟨versionRead, parts⟩ := from_slice_eq_some_iff.mp parsed
  rw [from_slice_eq_some_iff, ← version_from_slice_congr (agree.mono (by omega))]
  refine ⟨versionRead, ?_⟩
  split_ifs at parts ⊢ with legacy
  · have fields := ok_or_eq_ok.mp parts.2
    have wide : 18 ≤ header.headerSize := by
      rw [headerSize, (HeaderType.legacy_from_slice_size fields).1]
      decide
    rw [← legacy_record_size_congr (agree.mono wide)]
    exact ⟨parts.1, ok_or_eq_ok.mpr (HeaderType.legacy_own_bytes.again fields agree)⟩
  · rw [← record_size_from_slice_congr (agree.mono least)]
    exact ⟨parts.1, HeaderType.from_slice_own_bytes parts.2 agree⟩

/-- Bytes that follow a complete header do not change it. -/
theorem from_slice_append (parsed : fromSlice slice = .ok (some header)) (rest : List Byte) :
    fromSlice (slice ++ rest) = .ok (some header) :=
  from_slice_own_bytes parsed (SamePrefix.append (from_slice_size parsed) rest)

/-- Fewer bytes than the header occupies never give a header. -/
theorem from_slice_truncated {count : Nat} (parsed : fromSlice slice = .ok (some header))
    (short : count < header.headerSize) (other : Header) :
    fromSlice (slice.take count) ≠ .ok (some other) := by
  intro reparsed
  have fits := from_slice_size reparsed
  have extended := from_slice_append reparsed (slice.drop count)
  rw [List.take_append_drop, parsed] at extended
  cases extended
  simp only [List.length_take] at fits
  omega

/-- A header is inside the bytes it was read from, bytes behind it do not
count, and it is not read from fewer bytes. -/
theorem from_slice_exactly_own_bytes (slice : List Byte) (header : Header)
    (parsed : fromSlice slice = .ok (some header)) :
    header.headerSize ≤ slice.length ∧
      (∀ rest, fromSlice (slice.take header.headerSize ++ rest) = .ok (some header)) ∧
        ∀ count, count < header.headerSize → ∀ other, fromSlice (slice.take count) ≠ .ok (some other) := by
  have fits := from_slice_size parsed
  refine ⟨fits, ?_, fun count short other => from_slice_truncated parsed short other⟩
  intro rest
  have whole : (slice.take header.headerSize).length = header.headerSize := by
    rw [List.length_take, min_eq_left fits]
  refine from_slice_own_bytes parsed ⟨fits, ?_, ?_⟩
  · rw [List.length_append]
    omega
  · rw [List.take_append_of_le_length (by omega), List.take_take, min_self]

def statusHeaderBytes : List Byte :=
  [8, 0xa6, 7, 0x3e, 8, 0, 0, 0, 1, 2, 3, 4, 5, 6, 7, 8, 2, 0, 0, 0, 1, 0, 0, 0, 9, 1, 1, 0x80, 0xef, 0xbe, 0xad, 0xde]

/-- A header of type 6 with one completion status word. -/
def statusHeader : Header where
  version := { revision := 8, headerType := 6, productId := 0x7a, recordType := RecordTypes.MCA }
  size := { recordSize := 8 }
  headerType := .type6 0x0807060504030201 2 1 9 1 1 [0xdeadbeef] true

theorem status_header_own_bytes :
    statusHeader.headerSize ≤ (statusHeaderBytes ++ [0]).length ∧
      (∀ rest, fromSlice ((statusHeaderBytes ++ [0]).take statusHeader.headerSize ++ rest) = .ok (some statusHeader)) ∧
        ∀ count, count < statusHeader.headerSize →
          ∀ other, fromSlice ((statusHeaderBytes ++ [0]).take count) ≠ .ok (some other) :=
  from_slice_exactly_own_bytes (statusHeaderBytes ++ [0]) statusHeader (by rfl)

end Header

end OwnBytes

end Crashlog
