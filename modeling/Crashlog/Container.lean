import Crashlog.Export

/-!
# Damaged containers

The parsers of the containers answer `none` both to another format and to a
damaged container of their own, and `CrashLog.fromSlice` takes what neither of
them accepts for a single region. The four bytes of a signature are also the
version of a record header, so most damaged containers are read as a region.
-/

namespace Crashlog

open Bytes

/-- The containers that `CrashLog.fromSlice` looks for. -/
inductive ContainerFormat where
  | berr
  | bert
  | cper
  deriving DecidableEq, Repr

namespace ContainerFormat

def signature : ContainerFormat → List Byte
  | berr => [0x42, 0x45, 0x52, 0x52]
  | bert => [0x42, 0x45, 0x52, 0x54]
  | cper => CPER_SIGNATURE

/-- The version that the signature spells at the start of a record header. -/
def version : ContainerFormat → Version
  | berr => { cldic := true, revision := 0x42, headerType := 5, productId := 0x524, recordType := 0x12 }
  | bert => { cldic := true, revision := 0x42, headerType := 5, productId := 0x524, recordType := 0x14 }
  | cper => { cldic := true, revision := 0x43, headerType := 0, productId := 0x455, recordType := 0x12 }

/-- The bytes of a record header of that version. -/
def headerSize : ContainerFormat → Nat
  | berr | bert => 32
  | cper => 8

/-- The container holds its own header and everything its parser insists on:
the announced error data, or the whole record header with its end mark. -/
def Complete (s : List Byte) : ContainerFormat → Prop
  | berr => ∃ dataLength, readU32 s 16 = some dataLength ∧ 24 + dataLength.toNat ≤ s.length
  | bert => ∃ dataLength, readU32 s 60 = some dataLength ∧ 68 + dataLength.toNat ≤ s.length
  | cper => RECORD_HEADER_SIZE ≤ s.length ∧ readU32 s 6 = some 0xFFFFFFFF

end ContainerFormat

/-- The section bodies found by the parser that the signature selects. -/
def containerBodies (s : List Byte) : ContainerFormat → Option (List CperSectionBody)
  | .berr | .bert =>
      (Berr.fromBertFile s).map fun berr => berr.entries.map GenericErrorDataEntry.cperSection
  | .cper => (Cper.fromSlice s).map Cper.bodies

/-- A region that was stored in a Firmware Error Record with the GUID of Crash
Logs, or in a Box record of such a region. -/
inductive FromContainer (bodies : List CperSectionBody) : Region → Prop where
  | stored {fer : FirmwareErrorRecord} {region : Region}
      (found : .firmwareErrorRecord fer ∈ bodies) (crashlog : fer.header.guid = Fer.RECORD_ID_CRASHLOG)
      (read : Region.fromSlice fer.payload = .ok region) : FromContainer bodies region
  | boxed {outer region : Region} {record : Record} (inside : FromContainer bodies outer)
      (member : record ∈ outer.records) (box : boxedRegion record = some region) :
      FromContainer bodies region

/-- What the user of a container expects of `CrashLog.fromSlice`. -/
structure DecodedAsContainer (format : ContainerFormat) (s : List Byte) : Prop where
  found : ∀ crashlog, CrashLog.fromSlice s = .ok crashlog →
    ∃ bodies, containerBodies s format = some bodies ∧
      (∀ body ∈ bodies, ∃ guid bytes, bytes <:+: s ∧ CperSectionBody.fromSlice guid bytes = some body) ∧
      ∀ region ∈ crashlog.regions, FromContainer bodies region
  refused : containerBodies s format = none → ∃ error, CrashLog.fromSlice s = .error error

/-! ## A signature as a record header -/

namespace ContainerFormat

variable {s : List Byte} {format : ContainerFormat}

theorem version_read (signed : format.signature <+: s) : Version.fromSlice s = some format.version := by
  obtain ⟨rest, rfl⟩ := signed
  have four : 4 ≤ format.signature.length := by cases format <;> decide
  rw [← version_from_slice_congr (SamePrefix.append four rest)]
  cases format <;> decide

theorem version_modern (format : ContainerFormat) :
    format.version.errata.type0LegacyServer = false ∧
      format.version.errata.coreRecordSizeBytes = false := by
  cases format <;> decide

theorem type5_from_slice_is_some : (HeaderType.type5FromSlice s).isSome ↔ 32 ≤ s.length := by
  constructor
  · intro parsed
    obtain ⟨headerType, parsed⟩ := Option.isSome_iff_exists.mp parsed
    exact (HeaderType.type5_from_slice_size parsed).2
  · intro size
    apply bind_is_some (readU64_is_some.mpr (by omega)); intro timestamp _
    apply bind_is_some (readU32_is_some.mpr (by omega)); intro agentVersion _
    apply bind_is_some (readU32_is_some.mpr (by omega)); intro reason _
    apply bind_is_some (readU32_is_some.mpr (by omega)); intro csData _
    apply bind_is_some (readU32_is_some.mpr (by omega)); intro errorStatus _
    rfl

/-- The optional fields of the header can be read exactly when they are there. -/
theorem header_type_read (size : 8 ≤ s.length) :
    (∃ headerType, HeaderType.fromSlice format.version.headerType s = .ok headerType) ↔
      format.headerSize ≤ s.length := by
  have five : (∃ headerType, okOr (HeaderType.type5FromSlice s) .invalidHeader = .ok headerType) ↔
      32 ≤ s.length := by
    simp only [ok_or_eq_ok, ← Option.isSome_iff_exists, type5_from_slice_is_some]
  cases format with
  | berr => exact five
  | bert => exact five
  | cper => exact ⟨fun _ => size, fun _ => ⟨.type0, rfl⟩⟩

theorem header_size_ge (format : ContainerFormat) : 8 ≤ format.headerSize := by
  cases format <;> decide

/-- A signature begins a record, if only the rest of its header is there and
does not announce an empty record. -/
theorem record_read_iff (signed : format.signature <+: s) :
    (∃ header, Header.fromSlice s = .ok (some header) ∧ header.recordSize ≠ 0) ↔
      format.headerSize ≤ s.length ∧ ¬ (readU16 s 4 = some 0 ∧ readU16 s 6 = some 0) := by
  have version := version_read signed
  obtain ⟨modern, dwords⟩ := version_modern format
  constructor
  · rintro ⟨header, read, nonempty⟩
    obtain ⟨versionRead, parts⟩ := Header.from_slice_eq_some_iff.mp read
    have same : header.version = format.version := by
      rw [version] at versionRead
      exact (Option.some.inj versionRead).symm
    rw [same, modern, if_neg (by decide)] at parts
    obtain ⟨sizeRead, typeRead⟩ := parts
    refine ⟨(header_type_read ?_).mp ⟨_, typeRead⟩, ?_⟩
    · exact header.size_ge.trans (Header.from_slice_size read)
    · rintro ⟨first, second⟩
      apply nonempty
      simp only [RecordSize.fromSlice, first, second, Option.bind_eq_bind, Option.bind_some,
        Option.some.injEq] at sizeRead
      rw [Header.recordSize, ← sizeRead]
      exact Nat.zero_mul _
  · rintro ⟨size, announced⟩
    have eight := (header_size_ge format).trans size
    have inside : 4 + 2 ≤ s.length ∧ 6 + 2 ≤ s.length := by omega
    obtain ⟨recordSize, first⟩ := Option.isSome_iff_exists.mp (readU16_is_some.mpr inside.1)
    obtain ⟨extended, second⟩ := Option.isSome_iff_exists.mp (readU16_is_some.mpr inside.2)
    obtain ⟨headerType, typeRead⟩ := (header_type_read eight).mpr size
    refine ⟨⟨format.version, ⟨recordSize, extended⟩, headerType⟩, ?_, ?_⟩
    · rw [Header.from_slice_eq_some_iff, modern, if_neg (by decide)]
      refine ⟨version, ?_, typeRead⟩
      simp only [RecordSize.fromSlice, first, second, Option.bind_eq_bind, Option.bind_some]
    · intro empty
      apply announced
      simp only [Header.recordSize, Header.recordSizeGranularity, dwords, Bool.false_eq_true,
        if_false, Nat.mul_eq_zero, OfNat.ofNat_ne_zero, or_false, Nat.add_eq_zero_iff] at empty
      have zero : ∀ word : UInt16, word.toNat = 0 → word = 0 := fun _ none => UInt16.toNat_inj.mp none
      rw [first, second, zero _ empty.1, zero _ empty.2]
      exact ⟨rfl, rfl⟩

end ContainerFormat

namespace Region

variable {bytes : List Byte}

/-- Any bytes that begin with a record are a region. -/
theorem accepted_iff :
    (∃ region, fromSlice bytes = .ok region) ↔
      ∃ header, Header.fromSlice bytes = .ok (some header) ∧ header.recordSize ≠ 0 := by
  constructor
  · rintro ⟨region, accepted⟩
    obtain ⟨read, nonempty⟩ := from_slice_eq_ok_iff.mp accepted
    cases walk : region.records with
    | nil => exact absurd walk nonempty
    | cons record rest =>
        rw [walk] at read
        cases read with
        | record header headerRead size _ => exact ⟨header, headerRead, size⟩
  · rintro ⟨header, headerRead, size⟩
    obtain ⟨records, rest, _⟩ := from_slice_loop_spec (bytes.drop header.recordSize) 0 []
    rw [List.drop_zero] at rest
    exact ⟨⟨_⟩, from_slice_eq_ok_iff.mpr ⟨.record header headerRead size rest, List.cons_ne_nil _ _⟩⟩

end Region

/-! ## What the parsers insist on -/

namespace Berr

variable {s : List Byte}

/-- The pointer never runs past the end, so only the first step can miss. -/
theorem from_slice_loop_is_some {ptr endOffset : Nat} {entries : List GenericErrorDataEntry}
    (ordered : ptr ≤ endOffset) :
    (fromSliceLoop s ptr endOffset entries).isSome ↔ endOffset ≤ s.length := by
  fun_induction fromSliceLoop s ptr endOffset entries with
  | case1 ptr entries missing =>
      have outside : ¬ (slice s ptr endOffset).isSome := by simp [missing]
      rw [slice_is_some] at outside
      simp only [Option.isSome_none, Bool.false_eq_true, false_iff]
      exact fun inside => outside ⟨ordered, inside⟩
  | case2 ptr entries rest cut unreadable => simpa using slice_stop_le cut
  | case3 ptr entries rest cut entry parsed last => simpa using slice_stop_le cut
  | case4 ptr entries rest cut entry parsed more ih => exact ih (by omega)

theorem from_slice_is_some :
    (fromSlice s).isSome ↔ ∃ dataLength, readU32 s 12 = some dataLength ∧ 20 + dataLength.toNat ≤ s.length := by
  constructor
  · intro parsed
    obtain ⟨berr, parsed⟩ := Option.isSome_iff_exists.mp parsed
    simp only [fromSlice, GenericErrorStatusBlock.fromSlice, Option.bind_eq_bind,
      Option.bind_eq_some_iff, Option.some.injEq] at parsed
    obtain ⟨_, ⟨_, _, _, _, _, _, dataLength, read, _, _, rfl⟩, entries, loop, _⟩ := parsed
    refine ⟨dataLength, read, ?_⟩
    exact (from_slice_loop_is_some (Nat.le_add_right _ _)).mp (Option.isSome_iff_exists.mpr ⟨_, loop⟩)
  · rintro ⟨dataLength, read, inside⟩
    apply bind_is_some
    · apply bind_is_some (readU32_is_some.mpr (by omega)); intro blockStatus _
      apply bind_is_some (readU32_is_some.mpr (by omega)); intro rawDataOffset _
      apply bind_is_some (readU32_is_some.mpr (by omega)); intro rawDataLength _
      apply bind_is_some (readU32_is_some.mpr (by omega)); intro dataLength _
      apply bind_is_some (readU32_is_some.mpr (by omega)); intro errorSeverity _
      rfl
    · intro header headerRead
      simp only [GenericErrorStatusBlock.fromSlice, Option.bind_eq_bind, Option.bind_eq_some_iff,
        Option.some.injEq] at headerRead
      obtain ⟨_, _, _, _, _, _, other, otherRead, _, _, rfl⟩ := headerRead
      have same : other = dataLength := by
        rw [read] at otherRead
        exact (Option.some.inj otherRead).symm
      subst same
      apply bind_is_some ((from_slice_loop_is_some (Nat.le_add_right _ _)).mpr inside)
      intro entries _
      rfl

/-- The error region behind `before` is found when it is complete. -/
theorem from_slice_behind_is_some (start : Nat) :
    ((sliceFrom s start).bind fromSlice).isSome ↔
      ∃ dataLength, readU32 s (start + 12) = some dataLength ∧
        start + 20 + dataLength.toNat ≤ s.length := by
  by_cases inside : start ≤ s.length
  · have ahead : (s.take start).length = start := by simp [inside]
    have shifted : readU32 s (start + 12) = readU32 (s.drop start) 12 := by
      conv_lhs => rw [← List.take_append_drop start s]
      rw [readU32_skip (by omega), ahead, Nat.add_sub_cancel_left]
    have cut : sliceFrom s start = some (s.drop start) := slice_from_eq_some_iff.mpr ⟨inside, rfl⟩
    rw [cut, Option.bind_some, from_slice_is_some, shifted, List.length_drop]
    apply exists_congr
    intro dataLength
    apply and_congr_right
    intro _
    omega
  · have cut : sliceFrom s start = none := if_neg inside
    rw [cut, Option.bind_none]
    constructor
    · intro none
      cases none
    · rintro ⟨dataLength, _, size⟩
      omega

theorem entry_inside {berr : Berr} (read : fromSlice s = some berr) {entry : GenericErrorDataEntry}
    (member : entry ∈ berr.entries) :
    ∃ guid bytes, bytes <:+: s ∧ CperSectionBody.fromSlice guid bytes = some entry.cperSection := by
  simp only [fromSlice, Option.bind_eq_bind, Option.bind_eq_some_iff, Option.some.injEq] at read
  obtain ⟨header, _, entries, loop, rfl⟩ := read
  obtain ⟨found, rfl, each, _⟩ := from_slice_loop_parsed loop
  obtain ⟨rest, inside, parsed⟩ := each entry member
  obtain ⟨_, _, bytes, within, _, body⟩ := GenericErrorDataEntry.from_slice_parts parsed
  exact ⟨_, bytes, within.trans inside, body⟩

end Berr

/-- The fields of fixed size can all be read from bytes that hold them. -/
theorem revision_is_some {bytes : List Byte} (size : 2 ≤ bytes.length) :
    (Revision.fromSlice bytes).isSome := by
  apply bind_is_some (readU8_is_some.mpr (by omega)); intro minor _
  apply bind_is_some (readU8_is_some.mpr (by omega)); intro major _
  rfl

theorem timestamp_is_some {bytes : List Byte} (size : 8 ≤ bytes.length) :
    (Timestamp.fromSlice bytes).isSome := by
  apply bind_is_some (readU8_is_some.mpr (by omega)); intro seconds _
  apply bind_is_some (readU8_is_some.mpr (by omega)); intro minutes _
  apply bind_is_some (readU8_is_some.mpr (by omega)); intro hours _
  apply bind_is_some (readU8_is_some.mpr (by omega)); intro precise _
  apply bind_is_some (readU8_is_some.mpr (by omega)); intro day _
  apply bind_is_some (readU8_is_some.mpr (by omega)); intro month _
  apply bind_is_some (readU8_is_some.mpr (by omega)); intro year _
  apply bind_is_some (readU8_is_some.mpr (by omega)); intro century _
  rfl

theorem field_bind_is_some {α : Type} {s : List Byte} {offset width : Nat} {parse : List Byte → Option α}
    (inside : offset + width ≤ s.length)
    (total : ∀ bytes : List Byte, bytes.length = width → (parse bytes).isSome) :
    ((field s offset width).bind parse).isSome := by
  apply bind_is_some (field_is_some.mpr inside)
  intro bytes cut
  exact total bytes (by rw [slice_length cut, Nat.add_sub_cancel_left])

/-- An optional field is absent or inside the header. -/
theorem optional_is_some {α : Type} {bit : Prop} [Decidable bit] {value : Option α}
    (present : value.isSome) : (if bit then value.map some else some none).isSome := by
  split_ifs <;> simp [present]

namespace CperHeader

variable {s : List Byte}

theorem from_slice_intact {header : CperHeader} (parsed : fromSlice s = some header) :
    CPER_SIGNATURE <+: s ∧ readU32 s 6 = some 0xFFFFFFFF := by
  obtain ⟨signatureEnd, read, rest⟩ := Option.bind_eq_some_iff.mp parsed
  split_ifs at rest with damaged
  have intact := not_or.mp damaged
  simp only [not_not] at intact
  rw [read, intact.2]
  exact ⟨intact.1, rfl⟩

theorem from_slice_is_some (size : RECORD_HEADER_SIZE ≤ s.length) :
    (fromSlice s).isSome ↔ CPER_SIGNATURE <+: s ∧ readU32 s 6 = some 0xFFFFFFFF := by
  have whole : 128 ≤ s.length := size
  constructor
  · intro parsed
    obtain ⟨header, parsed⟩ := Option.isSome_iff_exists.mp parsed
    exact from_slice_intact parsed
  · rintro ⟨signed, marked⟩
    apply bind_is_some (readU32_is_some.mpr (by omega))
    intro signatureEnd read
    have same : signatureEnd = 0xFFFFFFFF := by
      rw [marked] at read
      exact (Option.some.inj read).symm
    rw [if_neg (by simp [signed, same])]
    apply bind_is_some (field_bind_is_some (by omega) fun _ two => revision_is_some two.ge)
    intro revision _
    apply bind_is_some (readU32_is_some.mpr (by omega)); intro validationBits _
    apply bind_is_some (readU16_is_some.mpr (by omega)); intro sectionCount _
    apply bind_is_some (readU32_is_some.mpr (by omega)); intro errorSeverity _
    apply bind_is_some (readU32_is_some.mpr (by omega)); intro recordLength _
    apply bind_is_some
      (optional_is_some (field_bind_is_some (by omega) fun _ eight => timestamp_is_some eight.ge))
    intro timestamp _
    apply bind_is_some (optional_is_some (read_block_is_some.mpr (by omega))); intro platformId _
    apply bind_is_some (optional_is_some (read_block_is_some.mpr (by omega))); intro partitionId _
    apply bind_is_some (read_block_is_some.mpr (by omega)); intro creatorId _
    apply bind_is_some (read_block_is_some.mpr (by omega)); intro notificationType _
    apply bind_is_some (readU64_is_some.mpr (by omega)); intro recordId _
    apply bind_is_some (readU32_is_some.mpr (by omega)); intro flags _
    apply bind_is_some (readU64_is_some.mpr (by omega)); intro persistenceInformation _
    rfl

end CperHeader

namespace Cper

variable {s : List Byte}

theorem from_slice_signed {cper : Cper} (parsed : fromSlice s = some cper) : CPER_SIGNATURE <+: s := by
  obtain ⟨header, read, _⟩ := Option.bind_eq_some_iff.mp parsed
  obtain ⟨bytes, cut, headerRead⟩ := Option.bind_eq_some_iff.mp read
  obtain ⟨_, _, rfl⟩ := slice_eq_some_iff.mp cut
  exact (CperHeader.from_slice_intact headerRead).1.trans (List.take_prefix _ _)

theorem from_slice_is_some (signed : CPER_SIGNATURE <+: s) :
    (fromSlice s).isSome ↔ ContainerFormat.cper.Complete s := by
  by_cases size : RECORD_HEADER_SIZE ≤ s.length
  · have cut : slice s 0 RECORD_HEADER_SIZE = some (s.take RECORD_HEADER_SIZE) :=
      slice_eq_some_iff.mpr ⟨Nat.zero_le _, size, rfl⟩
    have taken : RECORD_HEADER_SIZE ≤ (s.take RECORD_HEADER_SIZE).length := by simp [size]
    have agree : SamePrefix RECORD_HEADER_SIZE s (s.take RECORD_HEADER_SIZE) :=
      ⟨size, taken, by rw [List.take_take, Nat.min_self]⟩
    have signedHead : CPER_SIGNATURE <+: s.take RECORD_HEADER_SIZE :=
      List.prefix_take_iff.mpr ⟨signed, by decide⟩
    have same : (fromSlice s).isSome ↔ (CperHeader.fromSlice (s.take RECORD_HEADER_SIZE)).isSome := by
      simp only [fromSlice, cut, Option.bind_some, Option.bind_eq_bind]
      cases CperHeader.fromSlice (s.take RECORD_HEADER_SIZE) <;> simp
    rw [same, CperHeader.from_slice_is_some taken, ← agree.readU32_eq 6 (by decide)]
    exact ⟨fun parts => ⟨size, parts.2⟩, fun parts => ⟨signedHead, parts.2⟩⟩
  · have cut : slice s 0 RECORD_HEADER_SIZE = none := if_neg fun range => size range.2
    constructor
    · intro parsed
      simp [fromSlice, cut] at parsed
    · intro complete
      exact absurd complete.1 size

end Cper

/-! ## Decoding a container -/

namespace ContainerFormat

variable {s : List Byte} {format : ContainerFormat}

/-- No container begins with two signatures. -/
theorem signature_unique {other : ContainerFormat} (signed : format.signature <+: s)
    (otherSigned : other.signature <+: s) : format = other := by
  have four : ∀ any : ContainerFormat, any.signature.length = 4 := by
    intro any
    cases any <;> rfl
  have same : format.signature = other.signature := by
    rw [List.prefix_iff_eq_take.mp signed, List.prefix_iff_eq_take.mp otherSigned, four, four]
  revert same
  cases format <;> cases other <;> decide

/-- Each file goes to the parser of its own format. -/
theorem from_bert_file_eq (signed : format.signature <+: s) :
    Berr.fromBertFile s = match format with
      | berr => (sliceFrom s 4).bind Berr.fromSlice
      | bert => (sliceFrom s Berr.BERT_SIZE).bind Berr.fromSlice
      | cper => none := by
  have other (mismatch : ContainerFormat) (distinct : format ≠ mismatch) : ¬ mismatch.signature <+: s :=
    fun otherSigned => distinct (signature_unique signed otherSigned)
  unfold Berr.fromBertFile
  cases format with
  | berr => exact if_pos signed
  | bert => exact (if_neg (other berr (by decide))).trans (if_pos signed)
  | cper => exact (if_neg (other berr (by decide))).trans (if_neg (other bert (by decide)))

theorem cper_none_of_other (signed : format.signature <+: s) (distinct : format ≠ cper) :
    Cper.fromSlice s = none := by
  cases parsed : Cper.fromSlice s with
  | none => rfl
  | some found =>
      have cperSigned : cper.signature <+: s := Cper.from_slice_signed parsed
      exact absurd (signature_unique signed cperSigned) distinct

theorem bodies_is_some (signed : format.signature <+: s) :
    (containerBodies s format).isSome ↔ format.Complete s := by
  have file := from_bert_file_eq signed
  cases format with
  | berr =>
      rw [containerBodies, file, Option.isSome_map, Berr.from_slice_behind_is_some]
      rfl
  | bert =>
      rw [containerBodies, file, Option.isSome_map, Berr.from_slice_behind_is_some]
      rfl
  | cper => rw [containerBodies, Option.isSome_map, Cper.from_slice_is_some signed]

/-- The stored regions are those of the section bodies, or the bytes as they are. -/
theorem stored_regions_eq (signed : format.signature <+: s) :
    storedRegions s = match containerBodies s format with
      | some bodies => bodies.filterMap Region.fromCperSection
      | none => (Region.fromSlice s).toOption.toList := by
  have file := from_bert_file_eq signed
  have table (distinct : format ≠ cper) :
      storedRegions s =
        match (Berr.fromBertFile s).map fun berr => berr.entries.map GenericErrorDataEntry.cperSection with
        | some bodies => bodies.filterMap Region.fromCperSection
        | none => (Region.fromSlice s).toOption.toList := by
    unfold storedRegions
    rw [cper_none_of_other signed distinct]
    cases Berr.fromBertFile s with
    | none => rfl
    | some berr => simp only [Option.map_some, List.filterMap_map, Function.comp_def]
  cases format with
  | berr => exact table (by decide)
  | bert => exact table (by decide)
  | cper =>
      unfold storedRegions
      rw [file, containerBodies]
      cases Cper.fromSlice s <;> rfl

/-- Every body was parsed from bytes of the container. -/
theorem bodies_inside (signed : format.signature <+: s) {bodies : List CperSectionBody}
    (parsed : containerBodies s format = some bodies) :
    ∀ body ∈ bodies, ∃ guid bytes, bytes <:+: s ∧ CperSectionBody.fromSlice guid bytes = some body := by
  have file := from_bert_file_eq signed
  have table : ∀ start,
      ((sliceFrom s start).bind Berr.fromSlice).map
        (fun berr => berr.entries.map GenericErrorDataEntry.cperSection) = some bodies →
      ∀ body ∈ bodies, ∃ guid bytes, bytes <:+: s ∧ CperSectionBody.fromSlice guid bytes = some body := by
    intro start found body member
    obtain ⟨berr, read, rfl⟩ := Option.map_eq_some_iff.mp found
    obtain ⟨rest, cut, read⟩ := Option.bind_eq_some_iff.mp read
    obtain ⟨_, rfl⟩ := slice_from_eq_some_iff.mp cut
    obtain ⟨entry, entryMember, rfl⟩ := List.mem_map.mp member
    obtain ⟨guid, bytes, inside, body⟩ := Berr.entry_inside read entryMember
    exact ⟨guid, bytes, inside.trans (List.drop_suffix _ _).isInfix, body⟩
  cases format with
  | berr =>
      rw [containerBodies, file] at parsed
      exact table _ parsed
  | bert =>
      rw [containerBodies, file] at parsed
      exact table _ parsed
  | cper =>
      intro body member
      obtain ⟨found, read, rfl⟩ := Option.map_eq_some_iff.mp parsed
      obtain ⟨guid, bytes, inside, _, body⟩ := Cper.bodies_provenance read member
      exact ⟨guid, bytes, inside, body⟩

end ContainerFormat

theorem FromContainer.of_stored {bodies : List CperSectionBody} {region : Region}
    (stored : region ∈ bodies.filterMap Region.fromCperSection) : FromContainer bodies region := by
  obtain ⟨body, member, found⟩ := List.mem_filterMap.mp stored
  cases body with
  | unknown guid data => cases found
  | firmwareErrorRecord fer =>
      simp only [Region.fromCperSection] at found
      split_ifs at found with isCrashlog
      exact .stored member isCrashlog (except_to_option_eq_some.mp found)

theorem FromContainer.of_run {bodies : List CperSectionBody} :
    ∀ region ∈ boxExpansion.run (bodies.filterMap Region.fromCperSection), FromContainer bodies region := by
  apply boxExpansion.run_induction (FromContainer bodies)
  · intro region stored
    exact .of_stored stored
  · intro outer inside child member
    obtain ⟨record, inOuter, box⟩ := List.mem_filterMap.mp (List.mem_reverse.mp member)
    exact .boxed inside inOuter box

namespace CrashLog

variable {s : List Byte} {format : ContainerFormat}

/-- A damaged container is accepted when its bytes are a region. -/
theorem damaged_accepted_iff (signed : format.signature <+: s) (damaged : containerBodies s format = none) :
    (∃ crashlog, fromSlice s = .ok crashlog) ↔ ∃ region, Region.fromSlice s = .ok region := by
  have stored := ContainerFormat.stored_regions_eq signed
  rw [damaged] at stored
  constructor
  · rintro ⟨crashlog, accepted⟩
    obtain ⟨nonempty, _⟩ := from_slice_regions_iff.mp ⟨crashlog, accepted, rfl⟩
    rw [stored] at nonempty
    cases read : Region.fromSlice s with
    | ok region => exact ⟨region, rfl⟩
    | error error =>
        rw [read] at nonempty
        exact absurd rfl nonempty
  · rintro ⟨region, read⟩
    have nonempty : storedRegions s ≠ [] := by
      rw [stored, read]
      exact List.cons_ne_nil _ _
    obtain ⟨crashlog, accepted, _⟩ := from_slice_regions_iff.mpr ⟨nonempty, rfl⟩
    exact ⟨crashlog, accepted⟩

/-- A container is decoded as one or refused exactly when it is complete, or
its bytes are no record either: they end inside the header of the record that
the signature begins, or give it no size. -/
theorem container_decoded_iff (s : List Byte) (format : ContainerFormat) (signed : format.signature <+: s) :
    DecodedAsContainer format s ↔
      format.Complete s ∨ s.length < format.headerSize ∨
        readU16 s 4 = some 0 ∧ readU16 s 6 = some 0 := by
  have record : (∃ region, Region.fromSlice s = .ok region) ↔
      format.headerSize ≤ s.length ∧ ¬ (readU16 s 4 = some 0 ∧ readU16 s 6 = some 0) :=
    Region.accepted_iff.trans (ContainerFormat.record_read_iff signed)
  rw [← ContainerFormat.bodies_is_some signed]
  cases bodies : containerBodies s format with
  | some found =>
      simp only [Option.isSome_some, true_or, iff_true]
      refine ⟨?_, fun damaged => by rw [bodies] at damaged; cases damaged⟩
      intro crashlog accepted
      refine ⟨found, bodies, ContainerFormat.bodies_inside signed bodies, ?_⟩
      have stored := ContainerFormat.stored_regions_eq signed
      rw [bodies] at stored
      obtain ⟨_, expanded⟩ := from_slice_regions_iff.mp ⟨crashlog, accepted, rfl⟩
      rw [← expanded, stored]
      exact FromContainer.of_run
  | none =>
      have accepted := damaged_accepted_iff signed bodies
      rw [record] at accepted
      simp only [Option.isSome_none, Bool.false_eq_true, false_or]
      constructor
      · intro decoded
        obtain ⟨error, refused⟩ := decoded.refused bodies
        by_contra readable
        have reached : format.headerSize ≤ s.length ∧ ¬ (readU16 s 4 = some 0 ∧ readU16 s 6 = some 0) :=
          ⟨not_lt.mp fun short => readable (.inl short), fun empty => readable (.inr empty)⟩
        obtain ⟨crashlog, wrong⟩ := accepted.mpr reached
        rw [refused] at wrong
        cases wrong
      · intro unreadable
        have refused : ¬ ∃ crashlog, fromSlice s = .ok crashlog := by
          rw [accepted]
          rintro ⟨size, announced⟩
          rcases unreadable with short | empty
          · omega
          · exact announced empty
        refine ⟨fun crashlog wrong => absurd ⟨crashlog, wrong⟩ refused, fun _ => ?_⟩
        cases result : fromSlice s with
        | ok crashlog => exact absurd ⟨crashlog, result⟩ refused
        | error error => exact ⟨error, rfl⟩

/-- A status block that announces 255 bytes, none of which follow. -/
theorem error_region_cut_short_refused :
    DecodedAsContainer .berr ([0x42, 0x45, 0x52, 0x52, 1] ++ List.replicate 11 0 ++ [0xff] ++
      List.replicate 7 0) :=
  (container_decoded_iff ([0x42, 0x45, 0x52, 0x52, 1] ++ List.replicate 11 0 ++ [0xff] ++
    List.replicate 7 0) .berr (by decide)).mpr (.inr (.inl (by decide)))

/-- With eight more bytes it is a record of four bytes, cut from the signature. -/
theorem truncated_error_region_taken_for_record :
    ¬ ∀ (s : List Byte) (format : ContainerFormat), format.signature <+: s →
      DecodedAsContainer format s := by
  intro decodes
  have accepted : fromSlice ([0x42, 0x45, 0x52, 0x52, 1] ++ List.replicate 11 0 ++ [0xff] ++
      List.replicate 15 0) = .ok {
        regions := [{ records := [{
          header := {
            version := ContainerFormat.berr.version
            size := { recordSize := 1 }
            headerType := .type5 0 0xff 0 0 false 0 }
          data := [0x42, 0x45, 0x52, 0x52] }] }] } := by decide +kernel
  have damaged : containerBodies ([0x42, 0x45, 0x52, 0x52, 1] ++ List.replicate 11 0 ++ [0xff] ++
      List.replicate 15 0) .berr = none := by decide +kernel
  obtain ⟨error, refused⟩ := (decodes _ .berr (by decide)).refused damaged
  rw [accepted] at refused
  cases refused

end CrashLog

end Crashlog
